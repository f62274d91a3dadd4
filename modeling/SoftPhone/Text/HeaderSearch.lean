import Mathlib.Data.List.DropRight
import SoftPhone.Text.Lines
import SoftPhone.Text.Search

/-!
# A header that is looked for by its name

`SipParser.getHeader(hname)` looks for the name at the position of the parser, letter for letter,
and else behind a CR or LF, ignoring case.  It does not look at what is behind the name, and then
takes what follows the next colon, if this is before the end of the header, or if there is none.

* `isSome_getHeader_iff`: what it takes for a header (`Passes`), at the first place of the name
  (`Place`).
* `found_iff`: it finds a header if and only if there is a header line of that name, exactly for
  the texts where the first place is such a line, or no harm is done (`Fits`).
-/

namespace SoftPhone
namespace HeaderSearch

open SipParser
open TextSearch

/-! ## The functions -/

/-- `indexOfHeader(hname)`. -/
def indexOfHeader (str : Text) (index : ℕ) (hname : Text) : ℕ :=
  if index ≤ str.length ∧ hname <+: str.drop index then index
  else
    -- `goToIgnoreCase(target)`
    let i := indexOfAnyIgnoreCase str index ['\n' :: hname, '\r' :: hname]
    let pos := if i < 0 then str.length else i.toNat
    if pos < str.length then pos + 1 else pos

/-- `getHeader(hname)`: the header, and the position behind it. -/
def getHeader (str : Text) (index : ℕ) (hname : Text) : Option (Header × ℕ) :=
  let pos := indexOfHeader str index hname
  if pos < str.length then
    let pos := min (pos + hname.length) str.length
    let first := indexOf str ':' pos + 1
    let last := pos + (spanEOH (str.drop pos)).1.length
    if last < first then none
    else some (⟨hname, trim ((str.take last).drop first.toNat)⟩, last)
  else none

/-! ## Header lines -/

/-- What stands in front of the colon of a line, without the white space behind it. -/
def nameOf (line : Text) : Text := (line.takeWhile (· != ':')).rdropWhile isWSP

/-- The text begins with a header line of that whole name, up to upper and lower case. -/
def IsHeaderLine (hname rest : Text) : Prop :=
  ':' ∈ rest ∧ (∀ c ∈ nameOf rest, isCRLF c = false) ∧ fold (nameOf rest) = fold hname

/-- The header section from its first line on: what is left of the text at the begin of each header
line, up to the blank line. -/
def sectionLines (s : Text) : List Text :=
  if _ : s = [] ∨ s.head?.any isCRLF = true then [] else s :: sectionLines (nextLine s)
termination_by s.length
decreasing_by exact length_nextLine_lt fun hs => ‹¬_› (Or.inl hs)

/-- There is a header line of that whole name in the header section. -/
def HasHeader (hname s : Text) : Prop := ∃ rest ∈ sectionLines s, IsHeaderLine hname rest

/-! ## Places of a name -/

/-- A CR or LF with the name behind it, up to upper and lower case, or as much of it as the text
still has. -/
def BreakAt (hname s : Text) (j : ℕ) : Prop :=
  ∃ c rest, s.drop j = c :: rest ∧ isCRLF c = true ∧
    (fold hname <+: fold rest ∨ fold rest <+: fold hname)

/-- **The first place of the name**: the text begins with it, or it is behind the first break. -/
def Place (hname s : Text) (i : ℕ) : Prop :=
  if hname <+: s then i = 0 else ∃ j, i = j + 1 ∧ BreakAt hname s j ∧ ∀ k < j, ¬BreakAt hname s k

/-- **What passes for a header**: a colon follows the name within the header, or none at all. -/
def Passes (hname rest : Text) : Prop :=
  rest ≠ [] ∧
    (':' ∈ (spanEOH (rest.drop hname.length)).1 ∨ ':' ∉ rest.drop hname.length)

/-- The texts where the search is right.  Either the name has no place, and the first line is no
header line of that name (in another case).  Or its first place is a header line of that name in the
header section.  Or it is not, and then it passes for one if and only if there is one elsewhere. -/
def Fits (hname s : Text) : Prop :=
  ((∀ i, ¬Place hname s i) ∧ ¬(s ∈ sectionLines s ∧ IsHeaderLine hname s)) ∨
    (∃ i, Place hname s i ∧ s.drop i ∈ sectionLines s ∧ IsHeaderLine hname (s.drop i)) ∨
    ∃ i, Place hname s i ∧ ¬(s.drop i ∈ sectionLines s ∧ IsHeaderLine hname (s.drop i)) ∧
      (Passes hname (s.drop i) ↔ HasHeader hname s)

/-! ## What passes for a header -/

theorem indexOf_of_mem {str : Text} {c : Char} {start : ℕ} (h : c ∈ str.drop start) :
    indexOf str c start = (start + (str.drop start).idxOf c : ℕ) := by
  have hidx : (str.drop start).idxOf? c = some ((str.drop start).idxOf c) := by
    refine List.idxOf?_eq_some_iff.mpr ⟨List.idxOf_lt_length_of_mem h, List.getElem_idxOf _, ?_⟩
    intro j hj hc
    exact beq_eq_false_iff_ne.mp (List.not_of_lt_findIdx hj) hc
  rw [indexOf, hidx]
  rfl

/-- The colon is before the end of the header, or there is none. -/
theorem colon_le_iff {str : Text} {start : ℕ} :
    indexOf str ':' start + 1 ≤ (start + (spanEOH (str.drop start)).1.length : ℕ) ↔
      ':' ∈ (spanEOH (str.drop start)).1 ∨ ':' ∉ str.drop start := by
  by_cases hmem : ':' ∈ str.drop start
  · have hidx := congrArg (List.idxOf ':') (spanEOH_append_self (str.drop start))
    rw [List.idxOf_append] at hidx
    rw [indexOf_of_mem hmem, or_iff_left (not_not_intro hmem)]
    by_cases hbefore : ':' ∈ (spanEOH (str.drop start)).1
    · have hlt := List.idxOf_lt_length_of_mem hbefore
      rw [if_pos hbefore] at hidx
      exact iff_of_true (by omega) hbefore
    · rw [if_neg hbefore] at hidx
      exact iff_of_false (by omega) hbefore
  · rw [indexOf_of_not_mem hmem]
    exact iff_of_true (by omega) (.inr hmem)

/-- What is taken for a header at a position. -/
theorem passes_iff {str hname : Text} {pos : ℕ} (hpos : pos < str.length) :
    Passes hname (str.drop pos) ↔
      indexOf str ':' (min (pos + hname.length) str.length) + 1 ≤
        (min (pos + hname.length) str.length +
          (spanEOH (str.drop (min (pos + hname.length) str.length))).1.length : ℕ) := by
  have hne : str.drop pos ≠ [] := by
    rw [ne_eq, List.drop_eq_nil_iff]
    omega
  have hdrop : str.drop (min (pos + hname.length) str.length) =
      (str.drop pos).drop hname.length := by
    rw [List.drop_drop]
    rcases Nat.le_total (pos + hname.length) str.length with hle | hge
    · rw [Nat.min_eq_left hle]
    · rw [Nat.min_eq_right hge, List.drop_length, List.drop_eq_nil_of_le hge]
  rw [colon_le_iff, hdrop, Passes]
  exact and_iff_right hne

theorem isSome_getHeader_of_lt {str hname : Text} {index : ℕ}
    (hpos : indexOfHeader str index hname < str.length) :
    (getHeader str index hname).isSome = true ↔
      Passes hname (str.drop (indexOfHeader str index hname)) := by
  rw [passes_iff hpos, getHeader, if_pos hpos]
  dsimp only
  split
  · next hlt => exact iff_of_false Bool.false_ne_true (Int.not_le.mpr hlt)
  · next hle => exact iff_of_true rfl (Int.not_lt.mp hle)

theorem getHeader_of_le {str hname : Text} {index : ℕ}
    (hpos : str.length ≤ indexOfHeader str index hname) : getHeader str index hname = none := by
  rw [getHeader, if_neg (Nat.not_lt.mpr hpos)]

/-! ## The first place -/

/-- The end of a line has no other case. -/
theorem eq_of_toLower {c d : Char} (hd : isCRLF d = true) : d.toLower = c.toLower ↔ c = d := by
  have hsmall : d.toNat < 32 ∧ d.toLower = d := by
    rw [isCRLF, Bool.or_eq_true, beq_iff_eq, beq_iff_eq] at hd
    rcases hd with rfl | rfl <;> decide
  constructor
  · intro h
    have hnat := toNat_toLower c
    rw [← h, hsmall.2] at hnat
    split at hnat
    · omega
    · exact (Char.toNat_inj.mp hnat).symm
  · rintro rfl
    rfl

theorem fold_cons_prefix {c d : Char} {s t : Text} :
    (fold (c :: s) <+: fold (d :: t)) ↔ c.toLower = d.toLower ∧ fold s <+: fold t := by
  rw [fold, fold, List.map_cons, List.map_cons, List.cons_prefix_cons, fold, fold]

/-- The end of a line with the name behind it, as a pattern. -/
theorem agree_break_iff {c d : Char} {hname rest : Text} (hd : isCRLF d = true) :
    agree (d :: hname) (c :: rest) = true ↔
      c = d ∧ (fold hname <+: fold rest ∨ fold rest <+: fold hname) := by
  have hsymm : c.toLower = d.toLower ↔ c = d := eq_comm.trans (eq_of_toLower hd)
  rw [agree_iff_fold, fold_cons_prefix, fold_cons_prefix, eq_of_toLower hd, hsymm, ← and_or_left]

/-- A break is where one of the patterns is, or is cut off. -/
theorem breakAt_iff {hname s : Text} {j : ℕ} (hj : j < s.length) :
    BreakAt hname s j ↔ ∃ p ∈ ['\n' :: hname, '\r' :: hname], agree p (s.drop j) = true := by
  have hpair {q : Text → Prop} :
      (∃ p ∈ ['\n' :: hname, '\r' :: hname], q p) ↔ q ('\n' :: hname) ∨ q ('\r' :: hname) := by
    simp
  obtain ⟨c, rest, hdrop⟩ : ∃ c rest, s.drop j = c :: rest :=
    ⟨s[j], s.drop (j + 1), List.drop_eq_getElem_cons hj⟩
  have hbreak : isCRLF c = true ↔ c = '\n' ∨ c = '\r' := by
    rw [isCRLF, Bool.or_eq_true, beq_iff_eq, beq_iff_eq]
    exact or_comm
  rw [hpair, hdrop, agree_break_iff rfl, agree_break_iff rfl, ← or_and_right, ← hbreak]
  constructor
  · rintro ⟨c', rest', heq, hbegins⟩
    obtain ⟨rfl, rfl⟩ := List.cons.inj (hdrop.symm.trans heq)
    exact hbegins
  · exact fun hbegins => ⟨c, rest, hdrop, hbegins⟩

theorem BreakAt.lt_length {hname s : Text} {j : ℕ} (h : BreakAt hname s j) : j < s.length := by
  obtain ⟨c, rest, hdrop, -⟩ := h
  by_contra hj
  rw [List.drop_eq_nil_of_le (Nat.not_lt.mp hj)] at hdrop
  nomatch hdrop

/-- There is one first place. -/
theorem Place.unique {hname s : Text} {i i' : ℕ} (h : Place hname s i) (h' : Place hname s i') :
    i = i' := by
  unfold Place at h h'
  split at h
  · rw [if_pos ‹_›] at h'
    exact h.trans h'.symm
  · rw [if_neg ‹_›] at h'
    obtain ⟨j, rfl, hbreak, hfirst⟩ := h
    obtain ⟨j', rfl, hbreak', hfirst'⟩ := h'
    have hle : ¬j' < j := fun hlt => hfirst j' hlt hbreak'
    have hge : ¬j < j' := fun hlt => hfirst' j hlt hbreak
    omega

/-- Where there is a break, there is a first place. -/
theorem exists_place_of_breakAt {hname s : Text} {j : ℕ} (h : BreakAt hname s j) :
    ∃ i, Place hname s i := by
  by_cases hstart : hname <+: s
  · exact ⟨0, (if_pos hstart).mpr rfl⟩
  · induction j using Nat.strong_induction_on with
    | _ j ih =>
      by_cases hfirst : ∃ k < j, BreakAt hname s k
      · obtain ⟨k, hk, hbreak⟩ := hfirst
        exact ih k hk hbreak
      · refine ⟨j + 1, (if_neg hstart).mpr ⟨j, rfl, h, fun k hk hbreak => ?_⟩⟩
        exact hfirst ⟨k, hk, hbreak⟩

/-- **`indexOfHeader` returns the first place, or a position at the end.** -/
theorem indexOfHeader_spec (str : Text) {index : ℕ} (hindex : index < str.length) (hname : Text) :
    (∃ i, Place hname (str.drop index) i ∧ indexOfHeader str index hname = index + i) ∨
      (∀ i, ¬Place hname (str.drop index) i) ∧ indexOfHeader str index hname = str.length := by
  rw [indexOfHeader]
  by_cases hstart : hname <+: str.drop index
  · rw [if_pos ⟨hindex.le, hstart⟩]
    exact .inl ⟨0, (if_pos hstart).mpr rfl, rfl⟩
  · rw [if_neg fun h => hstart h.2]
    have hbreak {i : ℕ} (hi : i < (str.drop index).length) :
        (['\n' :: hname, '\r' :: hname].any fun p => agree p ((str.drop index).drop i)) = true ↔
          BreakAt hname (str.drop index) i :=
      List.any_eq_true.trans (breakAt_iff hi).symm
    rcases search_spec (fun rest => ['\n' :: hname, '\r' :: hname].any fun p => agree p rest)
      (str.drop index) index with ⟨hnone, hall⟩ | ⟨i, hi, hsome, hfound, hbefore⟩
    · refine .inr ⟨fun i hplace => ?_, ?_⟩
      · obtain ⟨j, -, hbreakj, -⟩ := (if_neg hstart).mp hplace
        have htrue := (hbreak hbreakj.lt_length).mpr hbreakj
        exact Bool.false_ne_true ((hall j hbreakj.lt_length).symm.trans htrue)
      · rw [indexOfAnyIgnoreCase, hnone]
        dsimp only
        rw [if_pos (show (-1 : ℤ) < 0 by omega), if_neg (Nat.lt_irrefl _)]
    · refine .inl ⟨i + 1, (if_neg hstart).mpr ⟨i, rfl, (hbreak hi).mp hfound, ?_⟩, ?_⟩
      · intro k hk hbreakk
        have htrue := (hbreak hbreakk.lt_length).mpr hbreakk
        exact Bool.false_ne_true ((hbefore k hk).symm.trans htrue)
      · rw [List.length_drop] at hi
        rw [indexOfAnyIgnoreCase, hsome]
        dsimp only
        rw [if_neg (Int.not_lt.mpr (Int.natCast_nonneg (index + i))), Int.toNat_natCast,
          if_pos (by omega), Nat.add_assoc]

/-- **What is found**: what passes for a header at the first place. -/
theorem isSome_getHeader_iff {str hname : Text} {index : ℕ} :
    (getHeader str index hname).isSome = true ↔
      ∃ i, Place hname (str.drop index) i ∧ Passes hname ((str.drop index).drop i) := by
  rcases Nat.lt_or_ge index str.length with hindex | hindex
  · rcases indexOfHeader_spec str hindex hname with ⟨i, hplace, hpos⟩ | ⟨hnone, hpos⟩
    · have hiff : (getHeader str index hname).isSome = true ↔
          Passes hname ((str.drop index).drop i) := by
        rw [List.drop_drop, ← hpos]
        rcases Nat.lt_or_ge (indexOfHeader str index hname) str.length with hlt | hge
        · exact isSome_getHeader_of_lt hlt
        · rw [getHeader_of_le hge]
          exact iff_of_false Bool.false_ne_true fun h => h.1 (List.drop_eq_nil_of_le hge)
      rw [hiff]
      constructor
      · exact fun hpasses => ⟨i, hplace, hpasses⟩
      · rintro ⟨i', hplace', hpasses⟩
        rwa [hplace.unique hplace']
    · rw [getHeader_of_le hpos.ge]
      exact iff_of_false Bool.false_ne_true fun ⟨i, hplace, _⟩ => hnone i hplace
  · -- behind the end there is nothing to find
    have hnil : str.drop index = [] := List.drop_eq_nil_of_le hindex
    have hpos : str.length ≤ indexOfHeader str index hname := by
      rw [indexOfHeader]
      split
      · exact hindex
      · rw [indexOfAnyIgnoreCase, hnil, search]
        exact (if_neg (Nat.lt_irrefl _)).ge
    rw [getHeader_of_le hpos, hnil]
    refine iff_of_false Bool.false_ne_true ?_
    rintro ⟨i, -, hpasses⟩
    exact hpasses.1 List.drop_nil

/-! ## Header lines and places -/

theorem nameOf_append {rest : Text} (h : ':' ∈ rest) :
    ∃ between after, rest = nameOf rest ++ (between ++ ':' :: after) ∧
      ∀ c ∈ between, isWSP c = true := by
  obtain ⟨after, hafter⟩ := goTo_of_mem h
  refine ⟨(rest.takeWhile (· != ':')).rtakeWhile isWSP, after, ?_, fun c => List.mem_rtakeWhile_imp⟩
  have hsplit := List.rdropWhile_append_rtakeWhile (p := isWSP) (l := rest.takeWhile (· != ':'))
  rw [← List.append_assoc, nameOf, hsplit, ← hafter, goTo, List.takeWhile_append_dropWhile]

/-- The header of a line reaches to its colon. -/
theorem colon_mem_spanEOH {between after : Text} (h : ∀ c ∈ between, isWSP c = true) :
    ':' ∈ (spanEOH (between ++ ':' :: after)).1 := by
  induction between with
  | nil =>
    rw [List.nil_append, spanEOH, if_neg fun hcrlf => absurd hcrlf.1 (by decide)]
    exact List.mem_cons_self
  | cons c between ih =>
    obtain ⟨hc, hbetween⟩ := List.forall_mem_cons.mp h
    have hcrlf : ¬isCRLF c = true := by
      rw [isWSP, Bool.or_eq_true, beq_iff_eq, beq_iff_eq] at hc
      rcases hc with rfl | rfl <;> decide
    rw [List.cons_append, spanEOH, if_neg fun hend => hcrlf hend.1]
    exact List.mem_cons_of_mem c (ih hbetween)

/-- **A header line passes for a header**, and begins with the name. -/
theorem IsHeaderLine.passes {hname rest : Text} (h : IsHeaderLine hname rest) :
    Passes hname rest ∧ fold hname <+: fold rest := by
  obtain ⟨hcolon, -, hname'⟩ := h
  obtain ⟨between, after, hrest, hbetween⟩ := nameOf_append hcolon
  have hlen : (nameOf rest).length = hname.length := by
    rw [← length_fold, hname', length_fold]
  have hdrop : rest.drop hname.length = between ++ ':' :: after :=
    calc rest.drop hname.length
        = (nameOf rest ++ (between ++ ':' :: after)).drop (nameOf rest).length := by
          rw [← hrest, hlen]
      _ = between ++ ':' :: after := List.drop_left
  refine ⟨⟨List.ne_nil_of_mem hcolon, .inl ?_⟩, fold (between ++ ':' :: after), ?_⟩
  · rw [hdrop]
    exact colon_mem_spanEOH hbetween
  · rw [← hname', fold, fold, ← List.map_append, ← hrest, fold]

/-- The next line is behind the end of a line. -/
theorem exists_before_nextLine {s : Text} (hne : nextLine s ≠ []) :
    ∃ c, c :: nextLine s <:+ s ∧ isCRLF c = true := by
  have hsuffix := spanEOH_suffix s
  rw [nextLine_eq] at hne ⊢
  rcases spanEOH_rest s with hnil | ⟨c, rest, hrest, hc, -⟩
  · rw [hnil] at hne
    exact absurd rfl hne
  · rw [hrest] at hsuffix ⊢
    unfold skipEOL
    split
    · next s' heq =>
      rw [heq] at hsuffix
      exact ⟨'\n', (List.suffix_cons _ _).trans hsuffix, rfl⟩
    · next heq =>
      obtain ⟨rfl, rfl⟩ := List.cons.inj heq
      exact ⟨c, hsuffix, hc⟩
    · next heq => nomatch heq

/-- The begin of the text, or the end of a line in front. -/
theorem mem_sectionLines {s rest : Text} (h : rest ∈ sectionLines s) :
    rest = s ∨ ∃ c, c :: rest <:+ s ∧ isCRLF c = true := by
  induction s using sectionLines.induct with
  | case1 s hend =>
    rw [sectionLines, dif_pos hend] at h
    nomatch h
  | case2 s hline ih =>
    rw [sectionLines, dif_neg hline] at h
    rcases List.mem_cons.mp h with rfl | h
    · exact .inl rfl
    · rcases ih h with rfl | ⟨c, hsuffix, hc⟩
      · refine .inr (exists_before_nextLine fun hnil => ?_)
        rw [hnil, sectionLines, dif_pos (.inl rfl)] at h
        nomatch h
      · exact .inr ⟨c, hsuffix.trans (nextLine_suffix s), hc⟩

/-- A header line that is not the first one has a break in front. -/
theorem IsHeaderLine.exists_place {hname s rest : Text} (h : IsHeaderLine hname rest)
    (hmem : rest ∈ sectionLines s) (hne : rest ≠ s) : ∃ i, Place hname s i := by
  rcases mem_sectionLines hmem with heq | ⟨c, hsuffix, hc⟩
  · exact absurd heq hne
  · have hdrop := List.suffix_iff_eq_drop.mp hsuffix
    exact exists_place_of_breakAt ⟨c, rest, hdrop.symm, hc, .inl h.passes.2⟩

/-! ## The search for a header -/

/-- **A header is found if and only if there is a header line of that name**, where the text
fits. -/
theorem found_iff (str hname : Text) (index : ℕ) :
    ((getHeader str index hname).isSome = true ↔ HasHeader hname (str.drop index)) ↔
      Fits hname (str.drop index) := by
  rw [isSome_getHeader_iff]
  obtain ⟨s, hs⟩ : ∃ s, s = str.drop index := ⟨_, rfl⟩
  rw [← hs]
  by_cases hplace : ∃ i, Place hname s i
  · obtain ⟨i, hi⟩ := hplace
    have hpasses : (∃ i, Place hname s i ∧ Passes hname (s.drop i)) ↔ Passes hname (s.drop i) := by
      constructor
      · rintro ⟨i', hi', hpasses⟩
        rwa [hi.unique hi']
      · exact fun hpasses => ⟨i, hi, hpasses⟩
    rw [hpasses]
    constructor
    · intro h
      by_cases hline : s.drop i ∈ sectionLines s ∧ IsHeaderLine hname (s.drop i)
      · exact .inr (.inl ⟨i, hi, hline⟩)
      · exact .inr (.inr ⟨i, hi, hline, h⟩)
    · rintro (⟨hnone, -⟩ | ⟨i', hi', hmem, hline⟩ | ⟨i', hi', -, h⟩)
      · exact absurd hi (hnone i)
      · rw [hi.unique hi']
        exact iff_of_true hline.passes.1 ⟨_, hmem, hline⟩
      · rwa [hi.unique hi']
  · have hfirst : HasHeader hname s ↔ s ∈ sectionLines s ∧ IsHeaderLine hname s := by
      constructor
      · rintro ⟨rest, hmem, hline⟩
        by_cases heq : rest = s
        · rw [heq] at hmem hline
          exact ⟨hmem, hline⟩
        · exact absurd (hline.exists_place hmem heq) hplace
      · exact fun ⟨hmem, hline⟩ => ⟨s, hmem, hline⟩
    have hnone : ¬∃ i, Place hname s i ∧ Passes hname (s.drop i) :=
      fun ⟨i, hi, _⟩ => hplace ⟨i, hi⟩
    rw [hfirst, iff_false_left hnone]
    constructor
    · exact fun h => .inl ⟨fun i hi => hplace ⟨i, hi⟩, h⟩
    · rintro (⟨-, h⟩ | ⟨i, hi, -⟩ | ⟨i, hi, -⟩)
      · exact h
      · exact absurd ⟨i, hi⟩ hplace
      · exact absurd ⟨i, hi⟩ hplace

/-- **The search ignoring case**: where it is exact, for one pattern and for several, and where a
header is found if and only if there is one. -/
theorem ignoreCase_exact_iff (str : Text) (index : ℕ) (s : Text) (ss : List Text) (hname : Text) :
    ((startsWithIgnoreCase str index s = true ↔ OccursAt s str index) ↔ ¬CutOffAt s str index) ∧
      ((startsWithAnyIgnoreCase str index ss = true ↔ ∃ s ∈ ss, OccursAt s str index) ↔
        ((∃ s ∈ ss, CutOffAt s str index) → ∃ s ∈ ss, OccursAt s str index)) ∧
      (Reports [s] str index (indexOfIgnoreCase str index s) ↔ Uncut [s] str index) ∧
      (Reports ss str index (indexOfAnyIgnoreCase str index ss) ↔ Uncut ss str index) ∧
      (((getHeader str index hname).isSome = true ↔ HasHeader hname (str.drop index)) ↔
        Fits hname (str.drop index)) := by
  refine ⟨startsWith_exact_iff, startsWithAny_exact_iff, ?_, reports_iff str index ss,
    found_iff str hname index⟩
  rw [indexOfIgnoreCase_eq]
  exact reports_iff str index [s]

/-- The end of a text is taken for the pattern, and a longer name for the name of a header. -/
theorem ignoreCase_not_exact :
    startsWithIgnoreCase "Fr".toList 0 "From".toList = true ∧
      ¬OccursAt "From".toList "Fr".toList 0 ∧
      indexOfIgnoreCase "a Fr".toList 0 "from".toList = 2 ∧
      ¬Reports ["from".toList] "a Fr".toList 0 2 ∧
      getHeader "Fromage: x".toList 0 "From".toList = some (⟨"From".toList, "x".toList⟩, 10) ∧
      ¬HasHeader "From".toList "Fromage: x".toList := by
  have hlines : sectionLines "Fromage: x".toList = ["Fromage: x".toList] := by
    have hnext : nextLine "Fromage: x".toList = [] := by decide
    rw [sectionLines, dif_neg (by decide), hnext, sectionLines, dif_pos (.inl rfl)]
  refine ⟨by decide, ?_, by decide, ?_, by decide, ?_⟩
  · rw [OccursAt]
    decide
  · rintro (⟨hnone, -⟩ | ⟨i, hi, -, ⟨s, hs, hoccurs⟩, -⟩)
    · exact absurd hnone (by decide)
    · obtain rfl := List.mem_singleton.mp hs
      obtain rfl : i = 2 := by omega
      rw [OccursAt] at hoccurs
      revert hoccurs
      decide
  · rintro ⟨rest, hmem, -, -, hname⟩
    rw [hlines] at hmem
    obtain rfl := List.mem_singleton.mp hmem
    revert hname
    decide

end HeaderSearch
end SoftPhone
