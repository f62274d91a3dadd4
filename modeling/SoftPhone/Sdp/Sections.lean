import Mathlib.Data.List.Pairwise
import SoftPhone.Sdp.SdpLines

/-!
# Session descriptions in the order of their lines

The lines of a session stand in a certain order, and so do the lines of each media section behind
its line of type m (`SdpText`).  The parser of the session looks for one type after another in
this order.  As long as what it looks for is found in the session, or is in no media section, the
session is parsed as if there were no media sections (`ofLines_append`); and otherwise at least one
line of type m is passed by, so a media description is missing (`length_media_lt`).

The media sections are parsed one by one, but a section without a line of its own takes the next
one (`takeMedia_sections`).
-/

namespace SoftPhone

namespace SdpParser

/-! ## The order of the lines -/

/-- The place of a type among the lines of a session.  A repeat time follows its time. -/
def rank (type : Char) : ℕ :=
  match type with
  | 'v' => 0
  | 'o' => 1
  | 's' => 2
  | 'i' => 3
  | 'u' => 4
  | 'e' => 5
  | 'p' => 6
  | 'c' => 7
  | 'b' => 8
  | 't' => 9
  | 'r' => 9
  | 'z' => 10
  | 'k' => 11
  | 'a' => 12
  | _ => 13

/-- The lines stand in their order. -/
def InOrder (ls : List SdpLine) : Prop := ls.Pairwise fun l l' => rank l.1 ≤ rank l'.1

/-- There is a line of this type. -/
def Has (type : Char) (ls : List SdpLine) : Prop := ∃ l ∈ ls, l.1 = type

instance (type : Char) (ls : List SdpLine) : Decidable (Has type ls) :=
  inferInstanceAs (Decidable (∃ l ∈ ls, l.1 = type))

/-- The fields of this type. -/
def fieldsOf (type : Char) (ls : List SdpLine) : List (SdpField type) :=
  (ls.filter (·.1 = type)).map fun l => fieldOf l.2

/-- How many lines have type m. -/
def countMedia (ls : List SdpLine) : ℕ := ls.countP (·.1 = 'm')

end SdpParser

open SdpParser

/-- A media section: a line of type m, and the lines behind it. -/
structure MediaSection where
  m : Entry
  lines : List SdpLine := []
  types : ∀ l ∈ lines, l.1 ∈ ['i', 'c', 'b', 'k', 'a']
  inOrder : InOrder lines

/-- A session description, in the order of its lines. -/
structure SdpText where
  session : List SdpLine
  media : List MediaSection
  types : ∀ l ∈ session,
    l.1 ∈ ['v', 'o', 's', 'i', 'u', 'e', 'p', 'c', 'b', 't', 'r', 'z', 'k', 'a']
  inOrder : InOrder session

/-- All the lines of a section. -/
def MediaSection.all (s : MediaSection) : List SdpLine := ('m', s.m) :: s.lines

/-- The lines of the media sections. -/
def mediaLines (ss : List MediaSection) : List SdpLine := ss.flatMap MediaSection.all

/-- The text. -/
def SdpText.text (d : SdpText) : Text := render (d.session ++ mediaLines d.media)

namespace SdpParser

/-! ## Looking for a type -/

theorem findLine_eq_none {type : Char} {ls : List SdpLine} (h : ¬Has type ls) :
    findLine type ls = none := by
  induction ls with
  | nil => rfl
  | cons l ls ih =>
    rw [findLine, if_neg fun htype => h ⟨l, List.mem_cons_self .., htype⟩]
    refine ih ?_
    rintro ⟨x, hx, hx'⟩
    exact h ⟨x, List.mem_cons_of_mem l hx, hx'⟩

/-- The lines that are passed by. -/
theorem findLine_eq_some {type : Char} {ls : List SdpLine} (h : Has type ls) :
    ∃ first e rest, ls = first ++ (type, e) :: rest ∧ ¬Has type first ∧
      findLine type ls = some (e, rest) := by
  induction ls with
  | nil =>
    obtain ⟨l, hl, -⟩ := h
    exact absurd hl List.not_mem_nil
  | cons l ls ih =>
    by_cases htype : l.1 = type
    · refine ⟨[], l.2, ls, ?_, ?_, ?_⟩
      · subst htype
        rfl
      · rintro ⟨x, hx, -⟩
        exact absurd hx List.not_mem_nil
      · rw [findLine, if_pos htype]
    · have hls : Has type ls := by
        obtain ⟨x, hx, hx'⟩ := h
        rcases List.mem_cons.mp hx with rfl | hx
        · exact absurd hx' htype
        · exact ⟨x, hx, hx'⟩
      obtain ⟨first, e, rest, rfl, hfirst, hfind⟩ := ih hls
      refine ⟨l :: first, e, rest, rfl, ?_, ?_⟩
      · rintro ⟨x, hx, hx'⟩
        rcases List.mem_cons.mp hx with rfl | hx
        · exact htype hx'
        · exact hfirst ⟨x, hx, hx'⟩
      · rw [findLine, if_neg htype, hfind]

/-- What is passed by does not matter. -/
theorem findLine_append {type : Char} {first : List SdpLine} (h : ¬Has type first)
    (ls : List SdpLine) : findLine type (first ++ ls) = findLine type ls := by
  induction first with
  | nil => rfl
  | cons l first ih =>
    rw [List.cons_append, findLine, if_neg fun htype => h ⟨l, List.mem_cons_self .., htype⟩]
    refine ih ?_
    rintro ⟨x, hx, hx'⟩
    exact h ⟨x, List.mem_cons_of_mem l hx, hx'⟩

/-- **The session is looked through first**: what is found there, or is nowhere, is found as if
nothing followed. -/
theorem takeField_append {type : Char} {ls more : List SdpLine}
    (h : Has type ls ∨ ¬Has type more) :
    takeField type (ls ++ more) = ((takeField type ls).1, (takeField type ls).2 ++ more) := by
  unfold takeField
  by_cases hls : Has type ls
  · obtain ⟨first, e, rest, rfl, hfirst, hfind⟩ := findLine_eq_some hls
    have happend : first ++ (type, e) :: rest ++ more = first ++ (type, e) :: (rest ++ more) := by
      simp
    rw [hfind, happend, findLine_append hfirst, findLine, if_pos rfl]
  · have hmore := h.resolve_left hls
    rw [findLine_append hls, findLine_eq_none hmore, findLine_eq_none hls]

theorem takeField_suffix (type : Char) (ls : List SdpLine) : (takeField type ls).2 <:+ ls := by
  unfold takeField
  cases h : findLine type ls with
  | none => exact List.suffix_rfl
  | some p => exact (List.suffix_cons _ _).trans (findLine_suffix h)

theorem takeFields_suffix (type : Char) (n : ℕ) (ls : List SdpLine) :
    (takeFields type n ls).2 <:+ ls := by
  induction n generalizing ls with
  | zero => exact List.suffix_rfl
  | succ n ih =>
    rw [takeFields]
    cases h : findLine type ls with
    | none => exact List.suffix_rfl
    | some p => exact (ih p.2).trans ((List.suffix_cons _ _).trans (findLine_suffix h))

theorem takeAttributes_suffix (ls : List SdpLine) : (takeAttributes ls).2 <:+ ls := by
  induction ls with
  | nil => exact List.suffix_rfl
  | cons l ls ih =>
    rw [takeAttributes]
    split
    · exact ih.trans (List.suffix_cons l ls)
    · exact List.suffix_rfl

/-- The loop finds all the fields of the type. -/
theorem takeFields_fst (type : Char) (ls : List SdpLine) :
    (takeFields type ls.length ls).1 = fieldsOf type ls ∧
      ¬Has type (takeFields type ls.length ls).2 := by
  induction hlen : ls.length using Nat.strong_induction_on generalizing ls with
  | _ k ih =>
    by_cases hls : Has type ls
    · obtain ⟨first, e, rest, rfl, hfirst, hfind⟩ := findLine_eq_some hls
      rw [List.length_append, List.length_cons] at hlen
      obtain ⟨k, rfl⟩ : ∃ k', k = k' + 1 := ⟨k - 1, by omega⟩
      obtain ⟨hfields, hnone⟩ := ih rest.length (by omega) rest rfl
      rw [takeFields, hfind]
      dsimp only
      rw [takeFields_of_le type (by omega), hfields]
      refine ⟨?_, hnone⟩
      have hfilter : first.filter (·.1 = type) = [] :=
        List.filter_eq_nil_iff.mpr fun l hl => by
          simpa using fun htype => hfirst ⟨l, hl, htype⟩
      unfold fieldsOf
      rw [List.filter_append, hfilter, List.nil_append, List.filter_cons_of_pos (by simp),
        List.map_cons]
    · have hnone : takeFields type k ls = ([], ls) := by
        cases k with
        | zero => rfl
        | succ k => rw [takeFields, findLine_eq_none hls]
      have hfilter : ls.filter (·.1 = type) = [] :=
        List.filter_eq_nil_iff.mpr fun l hl => by
          simpa using fun htype => hls ⟨l, hl, htype⟩
      rw [hnone]
      unfold fieldsOf
      rw [hfilter]
      exact ⟨rfl, hls⟩

theorem takeFields_append {type : Char} {ls more : List SdpLine} (h : ¬Has type more) :
    takeFields type (ls ++ more).length (ls ++ more) =
      ((takeFields type ls.length ls).1, (takeFields type ls.length ls).2 ++ more) := by
  rw [List.length_append]
  induction hlen : ls.length using Nat.strong_induction_on generalizing ls with
  | _ k ih =>
    by_cases hls : Has type ls
    · obtain ⟨first, e, rest, rfl, hfirst, hfind⟩ := findLine_eq_some hls
      rw [List.length_append, List.length_cons] at hlen
      have happend : first ++ (type, e) :: rest ++ more = first ++ (type, e) :: (rest ++ more) := by
        simp
      have hfind' : findLine type (first ++ (type, e) :: rest ++ more) = some (e, rest ++ more) := by
        rw [happend, findLine_append hfirst, findLine, if_pos rfl]
      obtain ⟨k, rfl⟩ : ∃ k', k = k' + 1 := ⟨k - 1, by omega⟩
      have hrounds : k + 1 + more.length = (k + more.length) + 1 := by omega
      rw [hrounds, takeFields, hfind', takeFields, hfind]
      dsimp only
      have hrest := ih rest.length (by omega) rfl
      rw [← List.length_append] at hrest
      rw [@takeFields_of_le type _ (rest ++ more) (by rw [List.length_append]; omega),
        @takeFields_of_le type _ rest (by omega), hrest]
    · have hnone {x : List SdpLine} (hx : ¬Has type x) (n : ℕ) : takeFields type n x = ([], x) := by
        cases n with
        | zero => rfl
        | succ n => rw [takeFields, findLine_eq_none hx]
      have hboth : ¬Has type (ls ++ more) := by
        rintro ⟨l, hl, hl'⟩
        rcases List.mem_append.mp hl with hl | hl
        · exact hls ⟨l, hl, hl'⟩
        · exact h ⟨l, hl, hl'⟩
      rw [hnone hboth, hnone hls]

/-! ## Lines of a higher rank -/

theorem InOrder.suffix {ls ls' : List SdpLine} (h : InOrder ls) (hs : ls' <:+ ls) : InOrder ls' :=
  h.sublist hs.sublist

/-- **Looking for a type does not pass by the types behind it.** -/
theorem filter_takeField {ls : List SdpLine} (hls : InOrder ls) {type later : Char}
    (hrank : rank type < rank later) :
    (takeField type ls).2.filter (·.1 = later) = ls.filter (·.1 = later) := by
  unfold takeField
  by_cases hhas : Has type ls
  · obtain ⟨first, e, rest, rfl, -, hfind⟩ := findLine_eq_some hhas
    rw [hfind]
    have hbefore : first.filter (·.1 = later) = [] := by
      refine List.filter_eq_nil_iff.mpr fun l hl => ?_
      have hle := (List.pairwise_append.mp hls).2.2 l hl (type, e) (List.mem_cons_self ..)
      have hne : l.1 ≠ later := by
        rintro rfl
        have hle' : rank l.1 ≤ rank type := hle
        omega
      simpa using hne
    have hne : type ≠ later := by
      rintro rfl
      exact lt_irrefl _ hrank
    rw [List.filter_append, hbefore, List.nil_append, List.filter_cons_of_neg (by simpa using hne)]
  · rw [findLine_eq_none hhas]

theorem has_iff_filter {type : Char} {ls : List SdpLine} :
    Has type ls ↔ ls.filter (·.1 = type) ≠ [] := by
  rw [ne_eq, List.filter_eq_nil_iff]
  unfold Has
  simp

theorem filter_takeFields {ls : List SdpLine} (hls : InOrder ls) {type later : Char}
    (hrank : rank type < rank later) (n : ℕ) :
    (takeFields type n ls).2.filter (·.1 = later) = ls.filter (·.1 = later) := by
  induction n generalizing ls with
  | zero => rfl
  | succ n ih =>
    have hfield := filter_takeField hls hrank
    unfold takeField at hfield
    rw [takeFields]
    cases h : findLine type ls with
    | none => rfl
    | some p =>
      rw [h] at hfield
      have hrest := hls.suffix ((List.suffix_cons _ _).trans (findLine_suffix h))
      exact (ih hrest).trans hfield

theorem has_takeField {ls : List SdpLine} (hls : InOrder ls) {type later : Char}
    (hrank : rank type < rank later) : Has later (takeField type ls).2 ↔ Has later ls := by
  rw [has_iff_filter, has_iff_filter, filter_takeField hls hrank]

theorem has_takeFields {ls : List SdpLine} (hls : InOrder ls) {type later : Char}
    (hrank : rank type < rank later) (n : ℕ) :
    Has later (takeFields type n ls).2 ↔ Has later ls := by
  rw [has_iff_filter, has_iff_filter, filter_takeFields hls hrank]

/-! ## Where the parser is -/

/-- Where it looks for a line of type i. -/
def afterS (ls : List SdpLine) : List SdpLine :=
  (takeField 's' (takeField 'o' (takeField 'v' ls).2).2).2

/-- Where it looks for a line of type u. -/
def afterI (ls : List SdpLine) : List SdpLine := (takeField 'i' (afterS ls)).2

/-- Where it looks for a line of type c. -/
def afterP (ls : List SdpLine) : List SdpLine :=
  (takeField 'p' (takeField 'e' (takeField 'u' (afterI ls)).2).2).2

/-- Where it looks for lines of type b. -/
def afterC (ls : List SdpLine) : List SdpLine := (takeField 'c' (afterP ls)).2

/-- Where it looks for lines of type t. -/
def afterB (ls : List SdpLine) : List SdpLine := (takeFields 'b' (afterC ls).length (afterC ls)).2

/-- Where it looks for a line of type k. -/
def afterZ (ls : List SdpLine) : List SdpLine :=
  (takeField 'z' (takeFields 't' (afterB ls).length (afterB ls)).2).2

/-- Where it looks for attributes. -/
def afterK (ls : List SdpLine) : List SdpLine := (takeField 'k' (afterZ ls)).2

/-- Where it looks for media sections. -/
def afterA (ls : List SdpLine) : List SdpLine := (takeAttributes (afterK ls)).2

theorem media_ofLines (ls : List SdpLine) :
    (ofLines ls).media = takeMedia (render (afterA ls)).length (afterA ls) := by
  simp only [ofLines, afterA, afterK, afterZ, afterB, afterC, afterP, afterI, afterS]

section Suffix

variable (ls : List SdpLine)

theorem afterS_suffix : afterS ls <:+ ls :=
  ((takeField_suffix _ _).trans (takeField_suffix _ _)).trans (takeField_suffix _ _)

theorem afterI_suffix : afterI ls <:+ afterS ls := takeField_suffix _ _

theorem afterP_suffix : afterP ls <:+ afterI ls :=
  ((takeField_suffix _ _).trans (takeField_suffix _ _)).trans (takeField_suffix _ _)

theorem afterC_suffix : afterC ls <:+ afterP ls := takeField_suffix _ _

theorem afterB_suffix : afterB ls <:+ afterC ls := takeFields_suffix _ _ _

theorem afterZ_suffix : afterZ ls <:+ afterB ls :=
  (takeField_suffix _ _).trans (takeFields_suffix _ _ _)

theorem afterK_suffix : afterK ls <:+ afterZ ls := takeField_suffix _ _

theorem afterA_suffix : afterA ls <:+ afterK ls := takeAttributes_suffix _

theorem afterA_suffix_self : afterA ls <:+ ls :=
  (afterA_suffix ls).trans <| (afterK_suffix ls).trans <| (afterZ_suffix ls).trans <|
    (afterB_suffix ls).trans <| (afterC_suffix ls).trans <| (afterP_suffix ls).trans <|
    (afterI_suffix ls).trans (afterS_suffix ls)

end Suffix

/-! ## Types of the lines -/

theorem not_has_of_types {types : List Char} {type : Char} {ls : List SdpLine}
    (h : ∀ l ∈ ls, l.1 ∈ types) (htype : type ∉ types) : ¬Has type ls := by
  rintro ⟨l, hl, rfl⟩
  exact htype (h l hl)

theorem types_mediaLines (ss : List MediaSection) :
    ∀ l ∈ mediaLines ss, l.1 ∈ ['m', 'i', 'c', 'b', 'k', 'a'] := by
  intro l hl
  obtain ⟨s, -, hl⟩ := List.mem_flatMap.mp hl
  rcases List.mem_cons.mp hl with rfl | hl
  · exact List.mem_cons_self ..
  · exact List.mem_cons_of_mem _ (s.types l hl)

theorem has_mediaLines {type : Char} (htype : type ≠ 'm') (ss : List MediaSection) :
    Has type (mediaLines ss) ↔ ∃ s ∈ ss, Has type s.lines := by
  constructor
  · rintro ⟨l, hl, hl'⟩
    obtain ⟨s, hs, hl⟩ := List.mem_flatMap.mp hl
    rcases List.mem_cons.mp hl with rfl | hl
    · exact absurd hl'.symm htype
    · exact ⟨s, hs, l, hl, hl'⟩
  · rintro ⟨s, hs, l, hl, hl'⟩
    exact ⟨l, List.mem_flatMap.mpr ⟨s, hs, List.mem_cons_of_mem _ hl⟩, hl'⟩

theorem countMedia_mediaLines (ss : List MediaSection) : countMedia (mediaLines ss) = ss.length := by
  induction ss with
  | nil => rfl
  | cons s ss ih =>
    have hnone : s.lines.countP (·.1 = 'm') = 0 := by
      refine List.countP_eq_zero.mpr fun l hl => ?_
      have hl' := s.types l hl
      have hne : l.1 ≠ 'm' := by
        rintro heq
        rw [heq] at hl'
        exact absurd hl' (by decide)
      simpa using hne
    show countMedia (('m', s.m) :: s.lines ++ mediaLines ss) = _
    unfold countMedia at ih ⊢
    rw [List.cons_append, List.countP_cons_of_pos (by simp), List.countP_append, hnone, ih,
      List.length_cons]
    omega

theorem countMedia_suffix {ls ls' : List SdpLine} (h : ls' <:+ ls) :
    countMedia ls' ≤ countMedia ls :=
  h.sublist.countP_le

/-- **What is not found in the session is found behind a line of type m.** -/
theorem countMedia_takeField_lt {type : Char} {ls : List SdpLine} {ss : List MediaSection}
    (hls : ¬Has type ls) (hss : Has type (mediaLines ss)) (htype : type ≠ 'm') :
    countMedia (takeField type (ls ++ mediaLines ss)).2 < ss.length := by
  cases ss with
  | nil =>
    obtain ⟨l, hl, -⟩ := hss
    exact absurd hl List.not_mem_nil
  | cons s ss =>
    have hrest : Has type (s.lines ++ mediaLines ss) := by
      obtain ⟨l, hl, hl'⟩ := hss
      rcases List.mem_cons.mp (show l ∈ ('m', s.m) :: (s.lines ++ mediaLines ss) from hl) with rfl | hl
      · exact absurd hl'.symm htype
      · exact ⟨l, hl, hl'⟩
    obtain ⟨first, e, rest, heq, -, hfind⟩ := findLine_eq_some hrest
    have hwhole : findLine type (ls ++ mediaLines (s :: ss)) = some (e, rest) := by
      rw [findLine_append hls]
      show findLine type (('m', s.m) :: (s.lines ++ mediaLines ss)) = _
      rw [findLine, if_neg fun h => htype h.symm, hfind]
    have hsuffix : rest <:+ s.lines ++ mediaLines ss := by
      rw [heq]
      exact ⟨first ++ [(type, e)], by simp⟩
    have hle := countMedia_suffix hsuffix
    have hall := countMedia_mediaLines (s :: ss)
    have hcount : countMedia (mediaLines (s :: ss)) = countMedia (s.lines ++ mediaLines ss) + 1 :=
      List.countP_cons_of_pos (by simp)
    have htake : (takeField type (ls ++ mediaLines (s :: ss))).2 = rest := by
      unfold takeField
      rw [hwhole]
    rw [htake]
    omega

/-! ## The session -/

/-- A media description passes by one line of type m at least. -/
theorem length_takeMedia_le (n : ℕ) (ls : List SdpLine) :
    (takeMedia n ls).length ≤ countMedia ls := by
  induction n generalizing ls with
  | zero => exact Nat.zero_le _
  | succ n ih =>
    rw [takeMedia]
    cases h : findLine 'm' ls with
    | none => exact Nat.zero_le _
    | some p =>
      have hsuffix := countMedia_suffix (findLine_suffix h)
      have hone : countMedia (('m', p.1) :: p.2) = countMedia p.2 + 1 :=
        List.countP_cons_of_pos (by simp)
      have hcut : (cutLines p.2).2 <:+ p.2 := by
        cases p.2 with
        | nil => exact List.suffix_rfl
        | cons l rest => exact (List.dropWhile_suffix _).trans (List.suffix_cons l rest)
      have hle := countMedia_suffix hcut
      have hih := ih (cutLines p.2).2
      rw [List.length_cons]
      omega

theorem takeAttributes_append {ls more : List SdpLine} (h : ∀ l ∈ more.head?, l.1 ≠ 'a') :
    takeAttributes (ls ++ more) = ((takeAttributes ls).1, (takeAttributes ls).2 ++ more) := by
  induction ls with
  | nil =>
    cases more with
    | nil => rfl
    | cons l more =>
      have hl : l.1 ≠ 'a' := h l rfl
      show takeAttributes (l :: more) = ([], l :: more)
      rw [takeAttributes, if_neg hl]
  | cons l ls ih =>
    rw [List.cons_append, takeAttributes, takeAttributes]
    by_cases hl : l.1 = 'a'
    · rw [if_pos hl, if_pos hl, ih]
    · rw [if_neg hl, if_neg hl, List.cons_append]

/-- What is looked for in the session is there, or it is in no media section. -/
structure Contained (session : List SdpLine) (ss : List MediaSection) : Prop where
  i : Has 'i' session ∨ ∀ s ∈ ss, ¬Has 'i' s.lines
  c : Has 'c' session ∨ ∀ s ∈ ss, ¬Has 'c' s.lines
  b : ∀ s ∈ ss, ¬Has 'b' s.lines
  k : Has 'k' session ∨ ∀ s ∈ ss, ¬Has 'k' s.lines

section Session

variable {session : List SdpLine} (hsession : InOrder session) (ss : List MediaSection)

include hsession

theorem has_afterS {type : Char} (h : rank 's' < rank type) :
    Has type (afterS session) ↔ Has type session := by
  have hv := hsession.suffix (takeField_suffix 'v' session)
  have ho := hv.suffix (takeField_suffix 'o' _)
  unfold afterS
  rw [has_takeField ho h, has_takeField hv (lt_trans (by decide) h),
    has_takeField hsession (lt_trans (by decide) h)]

theorem has_afterP {type : Char} (h : rank 'p' < rank type) :
    Has type (afterP session) ↔ Has type session := by
  have hs := hsession.suffix (afterS_suffix session)
  have hi := hs.suffix (afterI_suffix session)
  have hu := hi.suffix (takeField_suffix 'u' _)
  have he := hu.suffix (takeField_suffix 'e' _)
  unfold afterP
  rw [has_takeField he h, has_takeField hu (lt_trans (by decide) h),
    has_takeField hi (lt_trans (by decide) h)]
  unfold afterI
  rw [has_takeField hs (lt_trans (by decide) h), has_afterS hsession (lt_trans (by decide) h)]

theorem has_afterZ {type : Char} (h : rank 'z' < rank type) :
    Has type (afterZ session) ↔ Has type session := by
  have hp := hsession.suffix
    ((afterP_suffix session).trans ((afterI_suffix session).trans (afterS_suffix session)))
  have hc := hp.suffix (afterC_suffix session)
  have hb := hc.suffix (afterB_suffix session)
  have ht := hb.suffix (takeFields_suffix 't' (afterB session).length _)
  unfold afterZ
  rw [has_takeField ht h, has_takeFields hb (lt_trans (by decide) h)]
  unfold afterB
  rw [has_takeFields hc (lt_trans (by decide) h)]
  unfold afterC
  rw [has_takeField hp (lt_trans (by decide) h), has_afterP hsession (lt_trans (by decide) h)]

omit hsession in
theorem not_has_mediaLines {t : Char} (ht : t ∉ ['m', 'i', 'c', 'b', 'k', 'a']) :
    ¬Has t (mediaLines ss) :=
  not_has_of_types (types_mediaLines ss) ht

omit hsession in
theorem not_has_of_sections {type : Char} (htype : type ≠ 'm')
    (hall : ∀ s ∈ ss, ¬Has type s.lines) : ¬Has type (mediaLines ss) := by
  rw [has_mediaLines htype]
  rintro ⟨s, hs, hs'⟩
  exact hall s hs hs'

omit hsession in
theorem afterS_append : afterS (session ++ mediaLines ss) = afterS session ++ mediaLines ss := by
  unfold afterS
  simp only [takeField_append (.inr (not_has_mediaLines ss (t := 'v') (by decide))),
    takeField_append (.inr (not_has_mediaLines ss (t := 'o') (by decide))),
    takeField_append (.inr (not_has_mediaLines ss (t := 's') (by decide)))]

theorem takeField_i (hi : Has 'i' session ∨ ∀ s ∈ ss, ¬Has 'i' s.lines) :
    takeField 'i' (afterS session ++ mediaLines ss) =
      ((takeField 'i' (afterS session)).1, (takeField 'i' (afterS session)).2 ++ mediaLines ss) :=
  takeField_append (hi.imp (has_afterS hsession (by decide)).mpr
    (not_has_of_sections ss (by decide)))

theorem takeField_c (hc : Has 'c' session ∨ ∀ s ∈ ss, ¬Has 'c' s.lines) :
    takeField 'c' (afterP session ++ mediaLines ss) =
      ((takeField 'c' (afterP session)).1, (takeField 'c' (afterP session)).2 ++ mediaLines ss) :=
  takeField_append (hc.imp (has_afterP hsession (by decide)).mpr
    (not_has_of_sections ss (by decide)))

theorem takeField_k (hk : Has 'k' session ∨ ∀ s ∈ ss, ¬Has 'k' s.lines) :
    takeField 'k' (afterZ session ++ mediaLines ss) =
      ((takeField 'k' (afterZ session)).1, (takeField 'k' (afterZ session)).2 ++ mediaLines ss) :=
  takeField_append (hk.imp (has_afterZ hsession (by decide)).mpr
    (not_has_of_sections ss (by decide)))

omit hsession in
theorem takeFields_b (hb : ∀ s ∈ ss, ¬Has 'b' s.lines) :
    takeFields 'b' (afterC session ++ mediaLines ss).length (afterC session ++ mediaLines ss) =
      ((takeFields 'b' (afterC session).length (afterC session)).1,
        afterB session ++ mediaLines ss) :=
  takeFields_append (not_has_of_sections ss (by decide) hb)

theorem afterP_append (hi : Has 'i' session ∨ ∀ s ∈ ss, ¬Has 'i' s.lines) :
    afterP (session ++ mediaLines ss) = afterP session ++ mediaLines ss := by
  unfold afterP afterI
  simp only [afterS_append, takeField_i hsession ss hi,
    takeField_append (.inr (not_has_mediaLines ss (t := 'u') (by decide))),
    takeField_append (.inr (not_has_mediaLines ss (t := 'e') (by decide))),
    takeField_append (.inr (not_has_mediaLines ss (t := 'p') (by decide)))]

theorem afterC_append (hi : Has 'i' session ∨ ∀ s ∈ ss, ¬Has 'i' s.lines)
    (hc : Has 'c' session ∨ ∀ s ∈ ss, ¬Has 'c' s.lines) :
    afterC (session ++ mediaLines ss) = afterC session ++ mediaLines ss := by
  unfold afterC
  rw [afterP_append hsession ss hi, takeField_c hsession ss hc]

theorem afterZ_append (hi : Has 'i' session ∨ ∀ s ∈ ss, ¬Has 'i' s.lines)
    (hc : Has 'c' session ∨ ∀ s ∈ ss, ¬Has 'c' s.lines) (hb : ∀ s ∈ ss, ¬Has 'b' s.lines) :
    afterZ (session ++ mediaLines ss) = afterZ session ++ mediaLines ss := by
  have hC := afterC_append hsession ss hi hc
  have hB : afterB (session ++ mediaLines ss) = afterB session ++ mediaLines ss := by
    show (takeFields 'b' (afterC (session ++ mediaLines ss)).length
      (afterC (session ++ mediaLines ss))).2 = _
    rw [hC, takeFields_b ss hb]
  unfold afterZ
  rw [hB, takeFields_append (not_has_mediaLines ss (t := 't') (by decide)),
    takeField_append (.inr (not_has_mediaLines ss (t := 'z') (by decide)))]

/-- **The session is parsed as if there were no media sections**, and then the media sections. -/
theorem ofLines_append (h : Contained session ss) :
    afterA (session ++ mediaLines ss) = afterA session ++ mediaLines ss ∧
      { ofLines (session ++ mediaLines ss) with media := [] } =
        { ofLines session with media := [] } := by
  have hi := takeField_i hsession ss h.i
  have hc := takeField_c hsession ss h.c
  have hk := takeField_k hsession ss h.k
  have hb := @takeFields_b session ss h.b
  have ht := @takeFields_append 't' (afterB session) _ (not_has_mediaLines ss (t := 't') (by decide))
  have ha := @takeAttributes_append (afterK session) (mediaLines ss) (by
    cases ss with
    | nil => exact nofun
    | cons s ss =>
      intro l hl
      rw [← Option.some.inj (show some ('m', s.m) = some l from hl)]
      show 'm' ≠ 'a'
      decide)
  unfold afterA ofLines
  unfold afterK afterZ afterB afterC afterP afterI afterS at *
  simp only [takeField_append (.inr (not_has_mediaLines ss (t := 'v') (by decide))),
    takeField_append (.inr (not_has_mediaLines ss (t := 'o') (by decide))),
    takeField_append (.inr (not_has_mediaLines ss (t := 's') (by decide))), hi,
    takeField_append (.inr (not_has_mediaLines ss (t := 'u') (by decide))),
    takeField_append (.inr (not_has_mediaLines ss (t := 'e') (by decide))),
    takeField_append (.inr (not_has_mediaLines ss (t := 'p') (by decide))), hc, hb, ht,
    takeField_append (.inr (not_has_mediaLines ss (t := 'z') (by decide))), hk, ha, and_self]

omit hsession in
/-- A rest of the lines that does not have all the media sections has fewer lines of type m. -/
theorem countMedia_lt_of_not_has {type : Char} {ls rest : List SdpLine}
    (hrest : rest <:+ ls ++ mediaLines ss) (hss : Has type (mediaLines ss)) (hnot : ¬Has type rest) :
    countMedia rest < ss.length := by
  rcases List.suffix_or_suffix_of_suffix hrest (List.suffix_append ls (mediaLines ss)) with h | h
  · cases ss with
    | nil =>
      obtain ⟨l, hl, -⟩ := hss
      exact absurd hl List.not_mem_nil
    | cons s ss =>
      rcases List.suffix_cons_iff.mp (show rest <:+ ('m', s.m) :: (s.lines ++ mediaLines ss) from h)
        with rfl | h
      · exact absurd hss hnot
      · have hle := countMedia_suffix h
        have hall := countMedia_mediaLines (s :: ss)
        have hcount : countMedia (mediaLines (s :: ss)) =
            countMedia (s.lines ++ mediaLines ss) + 1 := List.countP_cons_of_pos (by simp)
        omega
  · obtain ⟨l, hl, hl'⟩ := hss
    exact absurd ⟨l, h.subset hl, hl'⟩ hnot

/-- **If a line of a media section is taken for a line of the session, a media description is
missing.** -/
theorem length_media_lt (h : ¬Contained session ss) :
    (ofLines (session ++ mediaLines ss)).media.length < ss.length := by
  generalize hls : session ++ mediaLines ss = ls
  have hmedia := length_takeMedia_le (render (afterA ls)).length (afterA ls)
  rw [← media_ofLines] at hmedia
  have hA := countMedia_suffix (afterA_suffix ls)
  have hK := countMedia_suffix (afterK_suffix ls)
  have hZ := countMedia_suffix (afterZ_suffix ls)
  have hB := countMedia_suffix (afterB_suffix ls)
  have hC := countMedia_suffix (afterC_suffix ls)
  have hP := countMedia_suffix (afterP_suffix ls)
  have hhas {type : Char} (htype : type ≠ 'm') (hnot : ¬∀ s ∈ ss, ¬Has type s.lines) :
      Has type (mediaLines ss) := by
    rw [has_mediaLines htype]
    push Not at hnot
    exact hnot
  by_cases hi : Has 'i' session ∨ ∀ s ∈ ss, ¬Has 'i' s.lines
  · by_cases hc : Has 'c' session ∨ ∀ s ∈ ss, ¬Has 'c' s.lines
    · by_cases hb : ∀ s ∈ ss, ¬Has 'b' s.lines
      · -- a line of type k
        have hk : ¬(Has 'k' session ∨ ∀ s ∈ ss, ¬Has 'k' s.lines) := fun hk => h ⟨hi, hc, hb, hk⟩
        rw [not_or] at hk
        have hlt := @countMedia_takeField_lt _ (afterZ session) ss
          (fun hsome => hk.1 ((has_afterZ hsession (by decide)).mp hsome))
          (hhas (by decide) hk.2) (by decide)
        have hwhere : afterZ ls = afterZ session ++ mediaLines ss := by
          rw [← hls, afterZ_append hsession ss hi hc hb]
        have hafter : countMedia (afterK ls) < ss.length := by
          unfold afterK
          rw [hwhere]
          exact hlt
        omega
      · have hwhere : afterC ls = afterC session ++ mediaLines ss := by
          rw [← hls, afterC_append hsession ss hi hc]
        have hlt : countMedia (afterB ls) < ss.length := by
          have hnone : ¬Has 'b' (afterB ls) := (takeFields_fst 'b' (afterC ls)).2
          have hsuffix := afterB_suffix ls
          rw [hwhere] at hsuffix
          exact countMedia_lt_of_not_has ss hsuffix (hhas (by decide) hb) hnone
        omega
    · rw [not_or] at hc
      have hlt := @countMedia_takeField_lt _ (afterP session) ss
        (fun hsome => hc.1 ((has_afterP hsession (by decide)).mp hsome))
        (hhas (by decide) hc.2) (by decide)
      have hwhere : afterP ls = afterP session ++ mediaLines ss := by
        rw [← hls, afterP_append hsession ss hi]
      have hafter : countMedia (afterC ls) < ss.length := by
        unfold afterC
        rw [hwhere]
        exact hlt
      omega
  · rw [not_or] at hi
    have hlt := @countMedia_takeField_lt _ (afterS session) ss
      (fun hsome => hi.1 ((has_afterS hsession (by decide)).mp hsome))
      (hhas (by decide) hi.2) (by decide)
    have hwhere : afterS ls = afterS session ++ mediaLines ss := by
      rw [← hls, afterS_append]
    have hafter : countMedia (afterI ls) < ss.length := by
      unfold afterI
      rw [hwhere]
      exact hlt
    omega

end Session

/-! ## The media sections -/

/-- The media description of a section. -/
def describe (s : MediaSection) : MediaDescriptor where
  m := fieldOf s.m
  c := (fieldsOf 'c' s.lines).head?
  av := fieldsOf 'a' s.lines

/-- What the media sections are parsed to: a section without a line of its own takes the next one. -/
def merge : List MediaSection → List MediaDescriptor
  | [] => []
  | [s] => [describe s]
  | s :: s' :: ss =>
    if s.lines = [] then { describe s' with m := fieldOf s.m } :: merge ss
    else describe s :: merge (s' :: ss)

theorem head_fieldsOf (type : Char) (ls : List SdpLine) :
    (takeField type ls).1 = (fieldsOf type ls).head? := by
  unfold takeField
  by_cases hls : Has type ls
  · obtain ⟨first, e, rest, rfl, hfirst, hfind⟩ := findLine_eq_some hls
    have hfilter : first.filter (·.1 = type) = [] :=
      List.filter_eq_nil_iff.mpr fun l hl => by
        simpa using fun htype => hfirst ⟨l, hl, htype⟩
    unfold fieldsOf
    rw [hfind, List.filter_append, hfilter, List.nil_append, List.filter_cons_of_pos (by simp)]
    rfl
  · have hfilter : ls.filter (·.1 = type) = [] :=
      List.filter_eq_nil_iff.mpr fun l hl => by
        simpa using fun htype => hls ⟨l, hl, htype⟩
    unfold fieldsOf
    rw [findLine_eq_none hls, hfilter]
    rfl

/-- The fields of a type, behind a line of another one. -/
theorem fieldsOf_cons_of_ne {type : Char} {l : SdpLine} (hl : l.1 ≠ type) (ls : List SdpLine) :
    fieldsOf type (l :: ls) = fieldsOf type ls := by
  unfold fieldsOf
  rw [List.filter_cons_of_neg (by simpa using hl)]

/-- The lines of a section, in their order. -/
theorem mediaOfLines_eq (m : SdpField 'm') {ls : List SdpLine} (hls : InOrder ls) :
    mediaOfLines m ls =
      { m := m, c := (fieldsOf 'c' ls).head?, av := fieldsOf 'a' ls } := by
  have hafter : fieldsOf 'a' (takeField 'c' ls).2 = fieldsOf 'a' ls := by
    unfold fieldsOf
    rw [filter_takeField hls (by decide)]
  unfold mediaOfLines
  dsimp only
  rw [(takeFields_fst 'a' _).1, hafter, head_fieldsOf]

/-- A line of type m among them makes no difference. -/
theorem mediaOfLines_cons (m : SdpField 'm') (e : Entry) {ls : List SdpLine} (hls : InOrder ls) :
    mediaOfLines m (('m', e) :: ls) =
      { m := m, c := (fieldsOf 'c' ls).head?, av := fieldsOf 'a' ls } := by
  have hc : ('m', e).1 ≠ 'c' := (by decide : 'm' ≠ 'c')
  have ha : ('m', e).1 ≠ 'a' := (by decide : 'm' ≠ 'a')
  have hafter : fieldsOf 'a' (takeField 'c' (('m', e) :: ls)).2 = fieldsOf 'a' ls := by
    have hcons : findLine 'c' (('m', e) :: ls) = findLine 'c' ls := if_neg hc
    have hrest := congrArg (List.map fun l : SdpLine => (fieldOf l.2 : SdpField 'a'))
      (@filter_takeField ls hls 'c' 'a' (by decide))
    unfold takeField at hrest ⊢
    rw [hcons]
    cases hfind : findLine 'c' ls with
    | none => exact fieldsOf_cons_of_ne ha ls
    | some p =>
      rw [hfind] at hrest
      exact hrest
  unfold mediaOfLines
  dsimp only
  rw [(takeFields_fst 'a' _).1, hafter, head_fieldsOf, fieldsOf_cons_of_ne hc]

theorem not_has_m (s : MediaSection) : ¬Has 'm' s.lines := not_has_of_types s.types (by decide)

/-- A section goes on to the next one. -/
theorem cutLines_section {l : SdpLine} {ls : List SdpLine} (h : ¬Has 'm' ls)
    (ss : List MediaSection) :
    cutLines (l :: (ls ++ mediaLines ss)) = (l :: ls, mediaLines ss) := by
  have hpos : ∀ x ∈ ls, (x.1 ≠ 'm' : Bool) = true := fun x hx => by
    simpa using fun heq => h ⟨x, hx, heq⟩
  have hnone : (mediaLines ss).takeWhile (·.1 ≠ 'm') = [] ∧
      (mediaLines ss).dropWhile (·.1 ≠ 'm') = mediaLines ss := by
    cases ss with
    | nil => exact ⟨rfl, rfl⟩
    | cons s ss => exact ⟨rfl, rfl⟩
  rw [cutLines, List.takeWhile_append_of_pos hpos, List.dropWhile_append_of_pos hpos, hnone.1,
    hnone.2, List.append_nil]

/-- **The media sections are parsed one by one**, but for the sections without a line. -/
theorem takeMedia_sections {n : ℕ} {ss : List MediaSection} (hn : ss.length ≤ n) :
    takeMedia n (mediaLines ss) = merge ss := by
  induction hlen : ss.length using Nat.strong_induction_on generalizing n ss with
  | _ k ih =>
    cases ss with
    | nil =>
      cases n with
      | zero => rfl
      | succ n => rfl
    | cons s ss =>
      rw [List.length_cons] at hn hlen
      obtain ⟨n, rfl⟩ : ∃ n', n = n' + 1 := ⟨n - 1, by omega⟩
      have hfind : findLine 'm' (mediaLines (s :: ss)) = some (s.m, s.lines ++ mediaLines ss) := rfl
      rw [takeMedia, hfind]
      dsimp only
      cases hlines : s.lines with
      | cons l ls =>
        have hls : ¬Has 'm' ls := by
          rintro ⟨x, hx, hx'⟩
          refine not_has_m s ⟨x, ?_, hx'⟩
          rw [hlines]
          exact List.mem_cons_of_mem l hx
        have hmerge : merge (s :: ss) = describe s :: merge ss := by
          cases ss with
          | nil => rfl
          | cons s' ss => rw [merge, if_neg (by rw [hlines]; exact List.cons_ne_nil _ _)]
        rw [List.cons_append, cutLines_section hls, ← hlines, mediaOfLines_eq _ s.inOrder, hmerge]
        dsimp only
        rw [ih ss.length (by omega) (by omega) rfl]
        rfl
      | nil =>
        cases ss with
        | nil =>
          have hnone : takeMedia n [] = [] := by
            cases n with
            | zero => rfl
            | succ n => rfl
          show mediaOfLines _ [] :: takeMedia n [] = [describe s]
          rw [hnone, mediaOfLines_eq _ List.Pairwise.nil]
          unfold describe
          rw [hlines]
        | cons s' ss =>
          rw [List.length_cons] at hn hlen
          show mediaOfLines _ (cutLines (('m', s'.m) :: (s'.lines ++ mediaLines ss))).1 ::
            takeMedia n (cutLines (('m', s'.m) :: (s'.lines ++ mediaLines ss))).2 = _
          rw [cutLines_section (not_has_m s'), merge, if_pos hlines]
          dsimp only
          rw [ih ss.length (by omega) (by omega) rfl, mediaOfLines_cons _ _ s'.inOrder]
          rfl

/-- A session has no media descriptions. -/
theorem takeMedia_of_not_has {n : ℕ} {ls : List SdpLine} (h : ¬Has 'm' ls) : takeMedia n ls = [] := by
  cases n with
  | zero => rfl
  | succ n => rw [takeMedia, findLine_eq_none h]

/-- Lines of another type in front of the media sections are passed by. -/
theorem takeMedia_append {n : ℕ} {ls : List SdpLine} (h : ¬Has 'm' ls) {ss : List MediaSection}
    (hn : ss.length ≤ n) : takeMedia n (ls ++ mediaLines ss) = merge ss := by
  cases n with
  | zero =>
    rw [List.length_eq_zero_iff.mp (Nat.le_zero.mp hn)]
    rfl
  | succ n =>
    rw [← takeMedia_sections hn, takeMedia, takeMedia, findLine_append h]

/-- A section without a line of its own leaves one media description less. -/
theorem length_merge_le (ss : List MediaSection) : (merge ss).length ≤ ss.length := by
  induction ss using merge.induct with
  | case1 => exact le_rfl
  | case2 s => exact le_rfl
  | case3 s s' ss hs ih =>
    rw [merge, if_pos hs, List.length_cons, List.length_cons, List.length_cons]
    omega
  | case4 s s' ss hs ih =>
    rw [merge, if_neg hs, List.length_cons, List.length_cons]
    omega

/-- **Every section but the last one has a line of its own, or a media description is missing.** -/
theorem lines_ne_nil_of_length {ss : List MediaSection} (h : (merge ss).length = ss.length) :
    ∀ s ∈ ss.dropLast, s.lines ≠ [] := by
  induction ss using merge.induct with
  | case1 => exact fun s hs => absurd hs List.not_mem_nil
  | case2 s => exact fun s hs => absurd hs List.not_mem_nil
  | case3 s s' ss hs ih =>
    have hle := length_merge_le ss
    rw [merge, if_pos hs, List.length_cons, List.length_cons, List.length_cons] at h
    omega
  | case4 s s' ss hs ih =>
    rw [merge, if_neg hs, List.length_cons, List.length_cons] at h
    rw [List.dropLast_cons_cons]
    exact List.forall_mem_cons.mpr ⟨hs, ih (by omega)⟩

theorem merge_eq_map {ss : List MediaSection} (h : ∀ s ∈ ss.dropLast, s.lines ≠ []) :
    merge ss = ss.map describe := by
  induction ss using merge.induct with
  | case1 => rfl
  | case2 s => rfl
  | case3 s s' ss hs ih =>
    rw [List.dropLast_cons_cons] at h
    exact absurd hs (h s (List.mem_cons_self ..))
  | case4 s s' ss hs ih =>
    rw [List.dropLast_cons_cons] at h
    rw [merge, if_neg hs, List.map_cons, ih (List.forall_mem_cons.mp h).2]

end SdpParser

/-! ## The text -/

/-- Messages that differ in nothing but the media descriptions. -/
theorem eq_with_media {m m' : SdpMessage}
    (h : { m with media := [] } = { m' with media := [] }) : m = { m' with media := m.media } := by
  cases m
  cases m'
  simp only [SdpMessage.mk.injEq] at h ⊢
  tauto

namespace SdpText

variable (d : SdpText)

theorem typed_session : Typed d.session := by
  intro l hl
  have hall : ∀ c ∈ ['v', 'o', 's', 'i', 'u', 'e', 'p', 'c', 'b', 't', 'r', 'z', 'k', 'a'],
      SipParser.isCRLF c = false := by decide
  exact hall _ (d.types l hl)

theorem typed : Typed (d.session ++ mediaLines d.media) := by
  intro l hl
  rcases List.mem_append.mp hl with hl | hl
  · exact d.typed_session l hl
  · have hall : ∀ c ∈ ['m', 'i', 'c', 'b', 'k', 'a'], SipParser.isCRLF c = false := by decide
    exact hall _ (types_mediaLines d.media l hl)

theorem not_has_m : ¬Has 'm' d.session := not_has_of_types d.types (by decide)

/-- A text without media sections gives no media descriptions. -/
theorem media_session : (SdpMessage.ofText (render d.session)).media = [] := by
  rw [ofText_render d.typed_session, media_ofLines]
  have hsuffix := afterA_suffix_self d.session
  refine takeMedia_of_not_has fun ⟨l, hl, hl'⟩ => ?_
  exact d.not_has_m ⟨l, hsuffix.subset hl, hl'⟩

/-- **If no line of a media section is taken for the session**, the session is parsed as if there
were no media sections, and the media sections are parsed one by one. -/
theorem ofText_text (h : Contained d.session d.media) :
    SdpMessage.ofText d.text =
      { SdpMessage.ofText (render d.session) with media := merge d.media } := by
  obtain ⟨hwhere, hsame⟩ := ofLines_append d.inOrder d.media h
  have hsuffix := afterA_suffix_self d.session
  have hnone : ¬Has 'm' (afterA d.session) := fun ⟨l, hl, hl'⟩ =>
    d.not_has_m ⟨l, hsuffix.subset hl, hl'⟩
  have hmedia : (ofLines (d.session ++ mediaLines d.media)).media = merge d.media := by
    rw [media_ofLines, hwhere]
    refine takeMedia_append hnone ?_
    have hle := length_le_render (afterA d.session ++ mediaLines d.media)
    have hcount : countMedia (mediaLines d.media) ≤ (mediaLines d.media).length :=
      List.countP_le_length
    rw [countMedia_mediaLines] at hcount
    rw [List.length_append] at hle
    omega
  show SdpMessage.ofText (render (d.session ++ mediaLines d.media)) = _
  rw [ofText_render d.typed, ofText_render d.typed_session, ← hmedia]
  exact eq_with_media hsame

end SdpText

end SoftPhone
