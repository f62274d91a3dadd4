import SoftPhone.Sdp.SdpMessage
import SoftPhone.Text.RoundTrip

/-!
# The lines of a session description

A text of lines is parsed line by line: the next field of a type is the first line of this type
(`parseSdpField_render`), and a media description goes on to the next line of type m, or to the one
behind it if there is none in between (`cutMedia_render`).  So what a text of lines is parsed to is
a function of the lines (`ofText_render`).
-/

namespace SoftPhone

open SipParser

/-- A value that stands on one line, and how the line ends. -/
structure Entry where
  value : Text
  crlf : Bool := true
  plain : ∀ c ∈ value, isCRLF c = false

/-- A line: a type and a value. -/
abbrev SdpLine : Type := Char × Entry

namespace SdpParser

/-- The end of the line. -/
def Entry.eol (e : Entry) : Text := if e.crlf then ['\r', '\n'] else ['\n']

/-- The text of a line. -/
def lineText (l : SdpLine) : Text := l.1 :: '=' :: (l.2.value ++ Entry.eol l.2)

/-- The text of some lines. -/
def render (ls : List SdpLine) : Text := ls.flatMap lineText

/-- The field of a value. -/
def fieldOf {type : Char} (e : Entry) : SdpField type := ⟨trim e.value⟩

/-- The types are no ends of lines. -/
def Typed (ls : List SdpLine) : Prop := ∀ l ∈ ls, isCRLF l.1 = false

theorem Typed.tail {l : SdpLine} {ls : List SdpLine} (h : Typed (l :: ls)) : Typed ls :=
  fun x hx => h x (List.mem_cons_of_mem l hx)

/-! ## The parser, on lines -/

/-- The first line of a type, and what follows it. -/
def findLine (type : Char) : List SdpLine → Option (Entry × List SdpLine)
  | [] => none
  | l :: ls => if l.1 = type then some (l.2, ls) else findLine type ls

/-- `parseSdpField(type)`, on lines. -/
def takeField (type : Char) (ls : List SdpLine) : Option (SdpField type) × List SdpLine :=
  match findLine type ls with
  | none => (none, ls)
  | some (e, rest) => (some (fieldOf e), rest)

/-- The loop that parses fields of a type, on lines. -/
def takeFields (type : Char) : ℕ → List SdpLine → List (SdpField type) × List SdpLine
  | 0, ls => ([], ls)
  | n + 1, ls =>
    match findLine type ls with
    | none => ([], ls)
    | some (e, rest) => (fieldOf e :: (takeFields type n rest).1, (takeFields type n rest).2)

/-- The loop that parses attributes as long as the next line is one, on lines. -/
def takeAttributes : List SdpLine → List (SdpField 'a') × List SdpLine
  | [] => ([], [])
  | l :: ls =>
    if l.1 = 'a' then (fieldOf l.2 :: (takeAttributes ls).1, (takeAttributes ls).2) else ([], l :: ls)

/-- The lines up to the next one of type m, but at least one, and what is left. -/
def cutLines : List SdpLine → List SdpLine × List SdpLine
  | [] => ([], [])
  | l :: ls => (l :: ls.takeWhile (·.1 ≠ 'm'), ls.dropWhile (·.1 ≠ 'm'))

/-- What follows the media field, on lines. -/
def mediaOfLines (m : SdpField 'm') (ls : List SdpLine) : MediaDescriptor :=
  let c := takeField 'c' ls
  { m := m, c := c.1, av := (takeFields 'a' c.2.length c.2).1 }

/-- The loop that parses media descriptions, on lines. -/
def takeMedia : ℕ → List SdpLine → List MediaDescriptor
  | 0, _ => []
  | n + 1, ls =>
    match findLine 'm' ls with
    | none => []
    | some (e, rest) =>
      mediaOfLines (fieldOf e) (cutLines rest).1 :: takeMedia n (cutLines rest).2

/-! ## The text of the lines -/

@[simp] theorem render_nil : render [] = [] := rfl

@[simp] theorem render_cons (l : SdpLine) (ls : List SdpLine) :
    render (l :: ls) = lineText l ++ render ls := List.flatMap_cons

@[simp] theorem render_append (ls ls' : List SdpLine) :
    render (ls ++ ls') = render ls ++ render ls' := List.flatMap_append

/-- The text begins with the type of the first line. -/
theorem startsField_render (type : Char) (ls : List SdpLine) :
    startsField type (render ls) = (ls.head?.map fun l => l.1 == type).getD false := by
  cases ls with
  | nil => rfl
  | cons l ls => rfl

/-- There is no field within a line. -/
theorem afterField_plain {type : Char} {a s : Text} (ha : ∀ c ∈ a, c ≠ '\n') :
    afterField type (a ++ s) = afterField type s := by
  induction a with
  | nil => rfl
  | cons c a ih =>
    obtain ⟨hc, ha⟩ := List.forall_mem_cons.mp ha
    rw [List.cons_append, afterField, if_neg (fun h => hc h.1), ih ha]

theorem ne_lf_of_plain {s : Text} (hs : ∀ c ∈ s, isCRLF c = false) : ∀ c ∈ s, c ≠ '\n' := by
  rintro c hc rfl
  exact absurd (hs '\n' hc) (by decide)

/-- Behind a line, the next field of a type is looked for among the other lines. -/
theorem afterField_line {type : Char} {l : SdpLine} (hl : isCRLF l.1 = false)
    (ls : List SdpLine) :
    afterField type (lineText l ++ render ls) =
      if startsField type (render ls) then some ((render ls).drop 2)
      else afterField type (render ls) := by
  have hplain : ∀ c ∈ l.1 :: '=' :: l.2.value, c ≠ '\n' := by
    refine ne_lf_of_plain (List.forall_mem_cons.mpr ⟨hl, List.forall_mem_cons.mpr ⟨rfl, ?_⟩⟩)
    exact l.2.plain
  have hlf : afterField type ('\n' :: render ls) =
      if startsField type (render ls) then some ((render ls).drop 2)
      else afterField type (render ls) := by
    rw [afterField]
    by_cases h : startsField type (render ls) = true
    · rw [if_pos ⟨rfl, h⟩, if_pos h]
    · rw [if_neg fun hand => h hand.2, if_neg h]
  have hsplit : lineText l ++ render ls =
      (l.1 :: '=' :: l.2.value) ++ (Entry.eol l.2 ++ render ls) := by
    unfold lineText
    simp
  rw [hsplit, afterField_plain hplain, ← hlf]
  unfold Entry.eol
  by_cases hcrlf : l.2.crlf = true
  · rw [if_pos hcrlf]
    show afterField type ('\r' :: '\n' :: render ls) = _
    rw [afterField, if_neg (by simp)]
  · rw [if_neg hcrlf]
    rfl

/-- The value of a line, and the next line. -/
theorem value_line (l : SdpLine) (s : Text) :
    ((lineText l ++ s).drop 2).takeWhile (!isCRLF ·) = l.2.value ∧
      goToNextLine ((lineText l ++ s).drop 2) = s := by
  have hdrop : (lineText l ++ s).drop 2 = l.2.value ++ (Entry.eol l.2 ++ s) := by
    unfold lineText
    simp
  have hvalue : ∀ c ∈ l.2.value, (!isCRLF c) = true := fun c hc => by
    rw [l.2.plain c hc]
    rfl
  have heol : (Entry.eol l.2 ++ s).takeWhile (!isCRLF ·) = [] ∧
      (Entry.eol l.2 ++ s).dropWhile (!isCRLF ·) = Entry.eol l.2 ++ s ∧
      skipEOL (Entry.eol l.2 ++ s) = s := by
    unfold Entry.eol
    by_cases hcrlf : l.2.crlf = true
    · rw [if_pos hcrlf]
      exact ⟨rfl, rfl, rfl⟩
    · rw [if_neg hcrlf]
      exact ⟨rfl, rfl, rfl⟩
  rw [hdrop]
  refine ⟨?_, ?_⟩
  · rw [List.takeWhile_append_of_pos hvalue, heol.1, List.append_nil]
  · unfold goToNextLine
    rw [List.dropWhile_append_of_pos hvalue, heol.2.1, heol.2.2]

/-- **The next field of a type is the first line of this type.** -/
theorem parseSdpField_render (type : Char) {ls : List SdpLine} (hls : Typed ls) :
    parseSdpField type (render ls) = ((takeField type ls).1, render (takeField type ls).2) := by
  have hfind : (if startsField type (render ls) then some ((render ls).drop 2)
        else afterField type (render ls)) =
      (findLine type ls).map fun p => (lineText (type, p.1) ++ render p.2).drop 2 := by
    induction ls with
    | nil => rfl
    | cons l ls ih =>
      by_cases htype : l.1 = type
      · have hstarts : startsField type (render (l :: ls)) = true := by
          rw [startsField_render]
          simpa using htype
        rw [if_pos hstarts, findLine, if_pos htype]
        subst htype
        rfl
      · have hstarts : ¬startsField type (render (l :: ls)) = true := by
          rw [startsField_render]
          simpa using htype
        rw [if_neg hstarts, findLine, if_neg htype, render_cons,
          afterField_line (hls l (List.mem_cons_self ..)), ih hls.tail]
  unfold parseSdpField takeField
  rw [hfind]
  cases findLine type ls with
  | none => rfl
  | some p =>
    obtain ⟨hvalue, hnext⟩ := value_line (type, p.1) (render p.2)
    dsimp only [Option.map_some]
    rw [hvalue, hnext]
    rfl

theorem findLine_suffix {type : Char} {ls rest : List SdpLine} {e : Entry}
    (h : findLine type ls = some (e, rest)) : (type, e) :: rest <:+ ls := by
  induction ls with
  | nil => exact absurd h (by simp [findLine])
  | cons l ls ih =>
    unfold findLine at h
    split at h
    · rename_i htype
      obtain ⟨rfl, rfl⟩ := Prod.mk.inj (Option.some.inj h)
      subst htype
      exact List.suffix_rfl
    · exact (ih h).trans (List.suffix_cons l ls)

theorem Typed.suffix {ls ls' : List SdpLine} (h : Typed ls) (hs : ls' <:+ ls) : Typed ls' :=
  fun l hl => h l (hs.subset hl)

theorem Typed.findLine {type : Char} {ls rest : List SdpLine} {e : Entry} (hls : Typed ls)
    (h : findLine type ls = some (e, rest)) : Typed rest :=
  hls.suffix ((List.suffix_cons _ _).trans (findLine_suffix h))

theorem Typed.takeField {ls : List SdpLine} (hls : Typed ls) (type : Char) :
    Typed (takeField type ls).2 := by
  unfold SdpParser.takeField
  cases h : SdpParser.findLine type ls with
  | none => exact hls
  | some p => exact hls.findLine h

theorem parseSdpFields_render (type : Char) (n : ℕ) {ls : List SdpLine} (hls : Typed ls) :
    parseSdpFields type n (render ls) =
      ((takeFields type n ls).1, render (takeFields type n ls).2) := by
  induction n generalizing ls with
  | zero => rfl
  | succ n ih =>
    rw [parseSdpFields, parseSdpField_render type hls, takeFields, takeField]
    cases h : findLine type ls with
    | none => rfl
    | some p =>
      dsimp only
      rw [ih (hls.findLine h)]

theorem Typed.takeFields {ls : List SdpLine} (hls : Typed ls) (type : Char) :
    Typed (takeFields type ls.length ls).2 := by
  generalize ls.length = n
  induction n generalizing ls with
  | zero => exact hls
  | succ n ih =>
    rw [SdpParser.takeFields]
    cases h : SdpParser.findLine type ls with
    | none => exact hls
    | some p => exact ih (hls.findLine h)

/-- A line is not nothing. -/
theorem length_le_render (ls : List SdpLine) : ls.length ≤ (render ls).length := by
  induction ls with
  | nil => exact le_rfl
  | cons l ls ih =>
    rw [render_cons, List.length_append, List.length_cons]
    unfold lineText
    rw [List.length_cons]
    omega

/-- More rounds than there are lines make no difference. -/
theorem takeFields_of_le (type : Char) {n : ℕ} {ls : List SdpLine} (hn : ls.length ≤ n) :
    takeFields type n ls = takeFields type ls.length ls := by
  induction hlen : ls.length using Nat.strong_induction_on generalizing n ls with
  | _ k ih =>
    cases hfind : findLine type ls with
    | none =>
      have hnone (m : ℕ) : takeFields type m ls = ([], ls) := by
        cases m with
        | zero => rfl
        | succ m => rw [takeFields, hfind]
      rw [hnone, hnone]
    | some p =>
      have hlt := (findLine_suffix hfind).length_le
      rw [List.length_cons] at hlt
      obtain ⟨n, rfl⟩ : ∃ n', n = n' + 1 := ⟨n - 1, by omega⟩
      obtain ⟨k, rfl⟩ : ∃ k', k = k' + 1 := ⟨k - 1, by omega⟩
      rw [takeFields, takeFields, hfind]
      dsimp only
      rw [ih p.2.length (by omega) (n := n) (by omega) rfl,
        ih p.2.length (by omega) (n := k) (by omega) rfl]

theorem takeFields_render (type : Char) (ls : List SdpLine) :
    takeFields type (render ls).length ls = takeFields type ls.length ls :=
  takeFields_of_le type (length_le_render ls)

theorem parseAttributes_render {n : ℕ} {ls : List SdpLine} (hls : Typed ls) (hn : ls.length ≤ n) :
    parseAttributes n (render ls) = ((takeAttributes ls).1, render (takeAttributes ls).2) := by
  induction ls generalizing n with
  | nil =>
    cases n with
    | zero => rfl
    | succ n => rfl
  | cons l ls ih =>
    obtain ⟨n, rfl⟩ : ∃ n', n = n' + 1 := ⟨n - 1, by rw [List.length_cons] at hn; omega⟩
    rw [List.length_cons] at hn
    rw [parseAttributes, startsField_render, takeAttributes]
    by_cases htype : l.1 = 'a'
    · rw [if_pos (by simpa using htype), if_pos htype, parseSdpField_render 'a' hls, takeField,
        findLine, if_pos htype]
      dsimp only
      rw [ih hls.tail (by omega)]
    · rw [if_neg (by simpa using htype), if_neg htype]

/-! ## Media descriptions -/

theorem head_render (ls : List SdpLine) : (render ls).head? = ls.head?.map Prod.fst := by
  cases ls with
  | nil => rfl
  | cons l ls => rfl

/-- Within a line, nothing is cut. -/
theorem cutMedia_plain {a s : Text} (ha : ∀ c ∈ a, c ≠ '\n') :
    cutMedia (a ++ s) = (a ++ (cutMedia s).1, (cutMedia s).2) := by
  induction a with
  | nil => rfl
  | cons c a ih =>
    obtain ⟨hc, ha⟩ := List.forall_mem_cons.mp ha
    rw [List.cons_append, cutMedia, if_neg (fun h => hc h.1), ih ha]
    rfl

/-- A line is within the section, and the section ends if the next line has type m. -/
theorem cutMedia_line {l : SdpLine} (hl : isCRLF l.1 = false) (ls : List SdpLine) :
    cutMedia (lineText l ++ render ls) =
      if ls.head?.map Prod.fst = some 'm' then (lineText l, render ls)
      else (lineText l ++ (cutMedia (render ls)).1, (cutMedia (render ls)).2) := by
  have hplain : ∀ c ∈ l.1 :: '=' :: l.2.value, c ≠ '\n' := by
    refine ne_lf_of_plain (List.forall_mem_cons.mpr ⟨hl, List.forall_mem_cons.mpr ⟨rfl, ?_⟩⟩)
    exact l.2.plain
  have hlf : cutMedia ('\n' :: render ls) =
      if ls.head?.map Prod.fst = some 'm' then (['\n'], render ls)
      else ('\n' :: (cutMedia (render ls)).1, (cutMedia (render ls)).2) := by
    rw [cutMedia, head_render]
    by_cases h : ls.head?.map Prod.fst = some 'm'
    · rw [if_pos ⟨rfl, h⟩, if_pos h]
    · rw [if_neg fun hand => h hand.2, if_neg h]
  have hsplit : lineText l ++ render ls =
      (l.1 :: '=' :: l.2.value) ++ (Entry.eol l.2 ++ render ls) := by
    unfold lineText
    simp
  have heol : cutMedia (Entry.eol l.2 ++ render ls) =
      if ls.head?.map Prod.fst = some 'm' then (Entry.eol l.2, render ls)
      else (Entry.eol l.2 ++ (cutMedia (render ls)).1, (cutMedia (render ls)).2) := by
    unfold Entry.eol
    by_cases hcrlf : l.2.crlf = true
    · rw [if_pos hcrlf]
      show cutMedia ('\r' :: '\n' :: render ls) = _
      rw [cutMedia, if_neg (by simp), hlf]
      split <;> rfl
    · rw [if_neg hcrlf]
      exact hlf
  rw [hsplit, cutMedia_plain hplain, heol]
  split
  · rfl
  · unfold lineText
    simp

/-- **A section goes on to the next line of type m**, but it has one line at least. -/
theorem cutMedia_render {ls : List SdpLine} (hls : Typed ls) :
    cutMedia (render ls) = (render (cutLines ls).1, render (cutLines ls).2) := by
  induction ls with
  | nil => rfl
  | cons l ls ih =>
    rw [render_cons, cutMedia_line (hls l (List.mem_cons_self ..)), cutLines]
    cases ls with
    | nil =>
      rw [if_neg (by simp)]
      rfl
    | cons l' ls =>
      by_cases hm : l'.1 = 'm'
      · rw [if_pos (by simpa using hm), List.takeWhile_cons_of_neg (by simpa using hm),
          List.dropWhile_cons_of_neg (by simpa using hm)]
        simp
      · rw [if_neg (by simpa using hm), ih hls.tail, cutLines,
          List.takeWhile_cons_of_pos (by simpa using hm),
          List.dropWhile_cons_of_pos (by simpa using hm)]
        simp

theorem Typed.cutLines {ls : List SdpLine} (hls : Typed ls) :
    Typed (cutLines ls).1 ∧ Typed (cutLines ls).2 := by
  cases ls with
  | nil => exact ⟨hls, hls⟩
  | cons l ls =>
    refine ⟨fun x hx => ?_, fun x hx => ?_⟩
    · rcases List.mem_cons.mp hx with rfl | hx
      · exact hls x (List.mem_cons_self ..)
      · exact hls x (List.mem_cons_of_mem l (List.takeWhile_subset _ hx))
    · exact hls x (List.mem_cons_of_mem l ((List.dropWhile_suffix _).subset hx))

theorem mediaDescriptor_render (m : SdpField 'm') {ls : List SdpLine} (hls : Typed ls) :
    mediaDescriptor m (render ls) = mediaOfLines m ls := by
  unfold mediaDescriptor mediaOfLines
  rw [parseSdpField_render 'c' hls]
  dsimp only
  rw [parseSdpFields_render 'a' _ (hls.takeField 'c'), takeFields_render]

theorem parseMediaDescriptors_render (n : ℕ) {ls : List SdpLine} (hls : Typed ls) :
    parseMediaDescriptors n (render ls) = takeMedia n ls := by
  induction n generalizing ls with
  | zero => rfl
  | succ n ih =>
    rw [parseMediaDescriptors, parseMediaDescriptor, parseSdpField_render 'm' hls, takeField,
      takeMedia]
    cases h : findLine 'm' ls with
    | none => rfl
    | some p =>
      have hrest := hls.findLine h
      obtain ⟨hfirst, hsecond⟩ := hrest.cutLines
      dsimp only
      rw [cutMedia_render hrest]
      dsimp only
      rw [mediaDescriptor_render _ hfirst, ih hsecond]

/-- `SdpMessage(String)`, on lines. -/
def ofLines (ls : List SdpLine) : SdpMessage :=
  let v := takeField 'v' ls
  let o := takeField 'o' v.2
  let s := takeField 's' o.2
  let i := takeField 'i' s.2
  let u := takeField 'u' i.2
  let e := takeField 'e' u.2
  let p := takeField 'p' e.2
  let c := takeField 'c' p.2
  let b := takeFields 'b' c.2.length c.2
  let t := takeFields 't' b.2.length b.2
  let z := takeField 'z' t.2
  let k := takeField 'k' z.2
  let a := takeAttributes k.2
  { v := v.1.getD ⟨"0".toList⟩
    o := o.1.getD ⟨"unknown".toList⟩
    s := s.1.getD ⟨"-".toList⟩
    i := i.1
    u := u.1
    e := e.1
    p := p.1
    c := c.1.getD ⟨"IN IP4 0.0.0.0".toList⟩
    bv := b.1
    tv := t.1.map fun t => { t := t }
    z := z.1
    k := k.1
    av := a.1
    media := takeMedia (render a.2).length a.2 }

theorem Typed.takeAttributes {ls : List SdpLine} (hls : Typed ls) :
    Typed (takeAttributes ls).2 := by
  induction ls with
  | nil => exact hls
  | cons l ls ih =>
    rw [SdpParser.takeAttributes]
    split
    · exact ih hls.tail
    · exact hls

/-- **A text of lines is parsed line by line.** -/
theorem ofText_render {ls : List SdpLine} (hls : Typed ls) :
    SdpMessage.ofText (render ls) = ofLines ls := by
  have hv := hls.takeField 'v'
  have ho := hv.takeField 'o'
  have hs := ho.takeField 's'
  have hi := hs.takeField 'i'
  have hu := hi.takeField 'u'
  have he := hu.takeField 'e'
  have hp := he.takeField 'p'
  have hc := hp.takeField 'c'
  have hb := hc.takeFields 'b'
  have ht := hb.takeFields 't'
  have hz := ht.takeField 'z'
  have hk := hz.takeField 'k'
  have ha := hk.takeAttributes
  unfold SdpMessage.ofText ofLines
  simp only [parseSdpField_render _ hls, parseSdpField_render _ hv, parseSdpField_render _ ho,
    parseSdpField_render _ hs, parseSdpField_render _ hi, parseSdpField_render _ hu,
    parseSdpField_render _ he, parseSdpField_render _ hp, parseSdpFields_render _ _ hc,
    takeFields_render, parseSdpFields_render _ _ hb, parseSdpField_render _ ht,
    parseSdpField_render _ hz, parseAttributes_render hk (length_le_render _),
    parseMediaDescriptors_render _ ha]

end SdpParser

end SoftPhone
