import SoftPhone.Text.Lines

/-!
# The headers of a section, one after another

`indexOfEOH` looks for the end of a line, and goes on behind it as long as the next line begins with
white space.  `goToNextHeader` and `getHeader` take a step to the line behind the header.

* `indexOfEOH_eq`: the loop finds the end of the first header (`spanEOH`).
* `HeaderField.spanEOH_text`: this is the end of a header with its continuation lines.
* `passOver_eq`: the steps pass over all of a text.
* `HeaderSection.partition`: the steps pass over a header section header by header.
-/

namespace SoftPhone

namespace SipParser

/-! ## The methods -/

theorem length_goToNextLine_lt {s : Text} (hs : s ≠ []) : (goToNextLine s).length < s.length := by
  have hle := List.length_dropWhile_le (!isCRLF ·) s
  rw [goToNextLine]
  by_cases hnil : s.dropWhile (!isCRLF ·) = []
  · rw [hnil]
    exact List.length_pos_iff.mpr hs
  · exact (length_skipEOL_lt hnil).trans_le hle

/-- `indexOfEOH()`, counted from the position of the parser; `par` is the second parser, at the end of a
line. -/
def indexOfEOH (s : Text) : ℕ :=
  let par := s.dropWhile (!isCRLF ·)
  if par = [] then s.length
  else
    let next := goToNextLine par
    if next.head?.any isWSP = true then s.length - next.length + indexOfEOH next
    else s.length - par.length
termination_by s.length
decreasing_by
  rename_i hpar _
  exact (length_goToNextLine_lt hpar).trans_le (List.length_dropWhile_le (!isCRLF ·) s)

/-- `goToNextHeader()`. -/
def goToNextHeader (s : Text) : Text := goToNextLine (s.drop (indexOfEOH s))

/-- What `n` calls of `goToNextHeader` pass over, each as long as there is more, and what is left. -/
def passOver : ℕ → Text → List Text × Text
  | 0, s => ([], s)
  | n + 1, s =>
    if s = [] then ([], [])
    else
      let next := goToNextHeader s
      (s.take (s.length - next.length) :: (passOver n next).1, (passOver n next).2)

/-- What `n` calls of `getHeader` return, null or not, and what is left. -/
def readEach : ℕ → Text → List (Option Header) × Text
  | 0, s => ([], s)
  | n + 1, s =>
    let next := getHeader s
    (next.1 :: (readEach n next.2).1, (readEach n next.2).2)

/-! ## The end of a header -/

theorem folds_eq (s : Text) : folds s = (skipEOL s).head?.any isWSP := by
  rw [folds]
  cases skipEOL s with
  | nil => rfl
  | cons c s => rfl

/-- A character that is followed by a continuation line. -/
theorem spanEOH_cons_of_folds {c : Char} {s : Text} (hfolds : folds (c :: s) = true) :
    spanEOH (c :: s) = (c :: (spanEOH s).1, (spanEOH s).2) := by
  have hnot : ¬(isCRLF c = true ∧ folds (c :: s) = false) := fun h => by
    rw [hfolds] at h
    exact Bool.noConfusion h.2
  rw [spanEOH, if_neg hnot]

/-- At the end of a line that is followed by a continuation line, the header goes on behind it. -/
theorem spanEOH_of_folds {c : Char} {s : Text} (hfolds : folds (c :: s) = true) :
    ∃ eol, c :: s = eol ++ skipEOL (c :: s) ∧
      spanEOH (c :: s) =
        (eol ++ (spanEOH (skipEOL (c :: s))).1, (spanEOH (skipEOL (c :: s))).2) := by
  by_cases hcrlf : c = '\r' ∧ ∃ t, s = '\n' :: t
  · obtain ⟨rfl, t, rfl⟩ := hcrlf
    have hlf : folds ('\n' :: t) = true := hfolds
    refine ⟨['\r', '\n'], rfl, ?_⟩
    rw [spanEOH_cons_of_folds hfolds, spanEOH_cons_of_folds hlf]
    rfl
  · rw [skipEOL_cons hcrlf]
    exact ⟨[c], rfl, spanEOH_cons_of_folds hfolds⟩

/-- **The loop finds the end of the header.** -/
theorem indexOfEOH_eq (s : Text) : indexOfEOH s = (spanEOH s).1.length := by
  induction hlen : s.length using Nat.strong_induction_on generalizing s with
  | _ k ih =>
    have hplain : ∀ c ∈ s.takeWhile (!isCRLF ·), isCRLF c = false := fun c hc => by
      simpa using List.mem_takeWhile_imp hc
    have hspan := spanEOH_plain_append hplain (s.dropWhile (!isCRLF ·))
    rw [List.takeWhile_append_dropWhile] at hspan
    have hsum : (s.takeWhile (!isCRLF ·)).length + (s.dropWhile (!isCRLF ·)).length = s.length := by
      rw [← List.length_append, List.takeWhile_append_dropWhile]
    rw [indexOfEOH, hspan, List.length_append]
    cases hpar : s.dropWhile (!isCRLF ·) with
    | nil =>
      rw [hpar] at hsum
      exact hsum.symm
    | cons c par =>
      have hc : isCRLF c = true := by
        have hhead := List.head?_dropWhile_not (!isCRLF ·) s
        rw [hpar] at hhead
        simpa using hhead
      have hnext : goToNextLine (c :: par) = skipEOL (c :: par) := goToNextLine_of_isCRLF hc
      have hlt := length_skipEOL_lt (List.cons_ne_nil c par)
      rw [hpar] at hsum
      rw [if_neg (List.cons_ne_nil c par), hnext]
      dsimp only
      rw [← folds_eq]
      by_cases hfolds : folds (c :: par) = true
      · obtain ⟨eol, heol, hgoes⟩ := spanEOH_of_folds hfolds
        have hlength := congrArg List.length heol
        rw [List.length_append] at hlength
        rw [if_pos hfolds, ih _ (by omega) _ rfl, hgoes, List.length_append]
        omega
      · have hstop : spanEOH (c :: par) = ([], c :: par) := by
          rw [spanEOH, if_pos ⟨hc, Bool.eq_false_iff.mpr hfolds⟩]
        rw [if_neg hfolds, hstop, List.length_nil]
        omega

/-- The position behind a header. -/
theorem goToNextHeader_eq (s : Text) : goToNextHeader s = nextLine s := by
  have hdrop : s.drop (spanEOH s).1.length = (spanEOH s).2 := by
    have happend := congrArg (List.drop (spanEOH s).1.length) (spanEOH_append_self s)
    rw [List.drop_left] at happend
    exact happend.symm
  rw [goToNextHeader, indexOfEOH_eq, hdrop, nextLine]

/-- **A step goes forward**, and `getHeader` takes the same one. -/
theorem goToNextHeader_spec {s : Text} (hs : s ≠ []) :
    (getHeader s).2 = goToNextHeader s ∧ goToNextHeader s <:+ s ∧
      (goToNextHeader s).length < s.length := by
  rw [goToNextHeader_eq, getHeader_eq hs]
  exact ⟨rfl, nextLine_suffix s, length_nextLine_lt hs⟩

/-- What a step passes over, and what is left. -/
theorem take_append_goToNextHeader (s : Text) :
    s.take (s.length - (goToNextHeader s).length) ++ goToNextHeader s = s := by
  obtain ⟨slice, hslice⟩ : goToNextHeader s <:+ s := by
    rw [goToNextHeader_eq]
    exact nextLine_suffix s
  have hlength := congrArg List.length hslice
  rw [List.length_append] at hlength
  have htake : s.take (s.length - (goToNextHeader s).length) = slice := by
    rw [← hlength, Nat.add_sub_cancel]
    conv_lhs => rw [← hslice]
    exact List.take_left
  rw [htake, hslice]

/-- **The steps pass over all of a text.** -/
theorem passOver_eq {n : ℕ} {s : Text} (hn : s.length ≤ n) :
    (passOver n s).1.flatten = s ∧ (passOver n s).2 = [] := by
  induction n generalizing s with
  | zero =>
    obtain rfl := List.eq_nil_of_length_eq_zero (Nat.le_zero.mp hn)
    exact ⟨rfl, rfl⟩
  | succ n ih =>
    rw [passOver]
    by_cases hs : s = []
    · rw [if_pos hs, hs]
      exact ⟨rfl, rfl⟩
    · obtain ⟨-, -, hlt⟩ := goToNextHeader_spec hs
      obtain ⟨hflatten, hleft⟩ := ih (s := goToNextHeader s) (by omega)
      rw [if_neg hs]
      refine ⟨?_, hleft⟩
      rw [List.flatten_cons, hflatten, take_append_goToNextHeader]

/-- A step over a known slice. -/
theorem passOver_append {n : ℕ} {slice rest : Text} (hne : slice ≠ [])
    (hnext : nextLine (slice ++ rest) = rest) :
    passOver (n + 1) (slice ++ rest) = (slice :: (passOver n rest).1, (passOver n rest).2) := by
  have hlength : (slice ++ rest).length - rest.length = slice.length := by
    rw [List.length_append, Nat.add_sub_cancel]
  rw [passOver, if_neg (List.append_ne_nil_of_left_ne_nil hne rest)]
  dsimp only
  rw [goToNextHeader_eq, hnext, hlength, List.take_left]

theorem readEach_append {n : ℕ} {slice rest : Text} (hne : slice ≠ [])
    (hnext : nextLine (slice ++ rest) = rest) :
    readEach (n + 1) (slice ++ rest) =
      ((getHeader (slice ++ rest)).1 :: (readEach n rest).1, (readEach n rest).2) := by
  have hleft : (getHeader (slice ++ rest)).2 = rest := by
    rw [getHeader_eq (List.append_ne_nil_of_left_ne_nil hne rest), hnext]
  rw [readEach, hleft]

/-! ## Headers with continuation lines -/

/-- The end of a line. -/
inductive Eol where
  | crlf
  | lf
  deriving DecidableEq, Repr

/-- The characters of it. -/
def Eol.text : Eol → Text
  | .crlf => ['\r', '\n']
  | .lf => ['\n']

/-- A continuation line: the end of the line before it, white space, and what follows on the line. -/
structure FoldedLine where
  eol : Eol
  space : Char
  rest : Text
  isWSP_space : isWSP space = true
  line : ∀ c ∈ rest, isCRLF c = false

/-- The text of it. -/
def FoldedLine.text (l : FoldedLine) : Text := l.eol.text ++ l.space :: l.rest

/-- A header: its first line, which is not empty and does not begin with white space, and its
continuation lines. -/
structure HeaderField where
  first : Text
  folded : List FoldedLine
  begins : ∃ c s, first = c :: s ∧ isWSP c = false
  line : ∀ c ∈ first, isCRLF c = false

namespace HeaderField

/-- The text of a header, without the end of its last line. -/
def text (h : HeaderField) : Text := h.first ++ h.folded.flatMap FoldedLine.text

/-- What `getHeader` makes of it: null if there is no colon. -/
def header (h : HeaderField) : Option Header :=
  if hasColon h.text then some (headerOf h.text) else none

theorem text_ne_nil (h : HeaderField) : h.text ≠ [] := by
  obtain ⟨c, s, hfirst, -⟩ := h.begins
  rw [text, hfirst]
  exact List.cons_ne_nil _ _

end HeaderField

/-- A text that begins with the end of a line with no continuation line behind it, or is empty. -/
def Ends (s : Text) : Prop := spanEOH s = ([], s)

theorem ends_nil : Ends [] := rfl

theorem Eol.folds_text (e : Eol) (s : Text) :
    ∃ c t, e.text ++ s = c :: t ∧ isCRLF c = true ∧ folds (c :: t) = s.head?.any isWSP := by
  cases e with
  | crlf => exact ⟨'\r', '\n' :: s, rfl, rfl, folds_eq _⟩
  | lf => exact ⟨'\n', s, rfl, rfl, folds_eq _⟩

theorem Eol.ends (e : Eol) {s : Text} (hs : s.head?.any isWSP = false) : Ends (e.text ++ s) := by
  obtain ⟨c, t, htext, hc, hfolds⟩ := e.folds_text s
  rw [Ends, htext, spanEOH, if_pos ⟨hc, hfolds.trans hs⟩]

/-- The end of a line in front of a continuation line. -/
theorem Eol.spanEOH_text (e : Eol) {s : Text} (hs : s.head?.any isWSP = true) :
    spanEOH (e.text ++ s) = (e.text ++ (spanEOH s).1, (spanEOH s).2) := by
  have hlf : folds ('\n' :: s) = true := (folds_eq _).trans hs
  have hspan := spanEOH_cons_of_folds hlf
  cases e with
  | crlf =>
    have hcrlf : folds ('\r' :: '\n' :: s) = true := (folds_eq _).trans hs
    show spanEOH ('\r' :: '\n' :: s) = _
    rw [spanEOH_cons_of_folds hcrlf, hspan]
    rfl
  | lf => exact hspan

theorem goToNextLine_eol (e : Eol) (s : Text) : goToNextLine (e.text ++ s) = s := by
  cases e with
  | crlf => rfl
  | lf => rfl

theorem isCRLF_of_isWSP {c : Char} (h : isWSP c = true) : isCRLF c = false := by
  rw [isWSP, Bool.or_eq_true, beq_iff_eq, beq_iff_eq] at h
  rcases h with rfl | rfl
  · decide
  · decide

/-- A continuation line belongs to the header. -/
theorem FoldedLine.spanEOH_text (l : FoldedLine) (s : Text) :
    spanEOH (l.text ++ s) = (l.text ++ (spanEOH s).1, (spanEOH s).2) := by
  have hplain : ∀ c ∈ l.space :: l.rest, isCRLF c = false :=
    List.forall_mem_cons.mpr ⟨isCRLF_of_isWSP l.isWSP_space, l.line⟩
  have hspace : (l.space :: l.rest ++ s).head?.any isWSP = true := l.isWSP_space
  rw [FoldedLine.text, List.append_assoc, l.eol.spanEOH_text hspace, spanEOH_plain_append hplain,
    List.append_assoc]

/-- **The end of a header with its continuation lines.** -/
theorem HeaderField.spanEOH_text (h : HeaderField) {s : Text} (hs : Ends s) :
    spanEOH (h.text ++ s) = (h.text, s) := by
  have hfolded : spanEOH (h.folded.flatMap FoldedLine.text ++ s) =
      (h.folded.flatMap FoldedLine.text, s) := by
    induction h.folded with
    | nil => exact hs
    | cons l ls ih =>
      rw [List.flatMap_cons, List.append_assoc, l.spanEOH_text, ih]
  rw [HeaderField.text, List.append_assoc, spanEOH_plain_append h.line, hfolded]

/-- A header is passed over with the end of its last line. -/
theorem HeaderField.nextLine_text (h : HeaderField) (e : Eol) {s : Text}
    (hs : s.head?.any isWSP = false) : nextLine (h.text ++ e.text ++ s) = s := by
  rw [nextLine, List.append_assoc, h.spanEOH_text (e.ends hs)]
  exact goToNextLine_eol e s

theorem HeaderField.nextLine_last (h : HeaderField) : nextLine (h.text ++ []) = [] := by
  rw [nextLine, h.spanEOH_text ends_nil]
  rfl

theorem HeaderField.getHeader_text (h : HeaderField) {s : Text} (hs : Ends s) :
    (getHeader (h.text ++ s)).1 = h.header := by
  rw [getHeader_eq (List.append_ne_nil_of_left_ne_nil h.text_ne_nil s), h.spanEOH_text hs]
  rfl

/-- A header does not begin with white space. -/
theorem HeaderField.head_text (h : HeaderField) (s : Text) :
    (h.text ++ s).head?.any isWSP = false := by
  obtain ⟨c, t, hfirst, hc⟩ := h.begins
  rw [HeaderField.text, hfirst]
  exact hc

/-! ## Header sections -/

/-- A header section: headers that end with the end of a line, and maybe a last one that ends with the
text. -/
structure HeaderSection where
  ended : List (HeaderField × Eol)
  last : Option HeaderField

namespace HeaderSection

/-- The headers. -/
def fields (sec : HeaderSection) : List HeaderField := sec.ended.map Prod.fst ++ sec.last.toList

/-- The part of the text for each header. -/
def slices (sec : HeaderSection) : List Text :=
  (sec.ended.map fun p => p.1.text ++ p.2.text) ++ sec.last.toList.map HeaderField.text

/-- The text. -/
def text (sec : HeaderSection) : Text :=
  (sec.ended.flatMap fun p => p.1.text ++ p.2.text) ++ sec.last.toList.flatMap HeaderField.text

theorem flatten_slices (sec : HeaderSection) : sec.slices.flatten = sec.text := by
  rw [slices, text, List.flatten_append, ← List.flatMap_def, ← List.flatMap_def]

/-- What may follow: no continuation line of the last header, and nothing behind one that ends with the
text. -/
structure EndsBefore (sec : HeaderSection) (rest : Text) : Prop where
  begins : rest.head?.any isWSP = false
  nothing : sec.last ≠ none → rest = []

/-- What follows the first headers does not begin with white space. -/
theorem EndsBefore.head {sec : HeaderSection} {rest : Text} (h : sec.EndsBefore rest) :
    (sec.text ++ rest).head?.any isWSP = false := by
  obtain ⟨ended, last⟩ := sec
  cases ended with
  | nil =>
    cases last with
    | none => exact h.begins
    | some field =>
      show (field.text ++ [] ++ rest).head?.any isWSP = false
      rw [List.append_assoc]
      exact field.head_text _
  | cons p ended =>
    show (p.1.text ++ p.2.text ++ _ ++ _ ++ rest).head?.any isWSP = false
    rw [List.append_assoc, List.append_assoc, List.append_assoc]
    exact p.1.head_text _

/-- **The steps pass over the headers, one by one**, and `getHeader` returns them. -/
theorem passOver_text {sec : HeaderSection} {rest : Text} (h : sec.EndsBefore rest) :
    passOver sec.fields.length (sec.text ++ rest) = (sec.slices, rest) ∧
      readEach sec.fields.length (sec.text ++ rest) =
        (sec.fields.map HeaderField.header, rest) := by
  obtain ⟨ended, last⟩ := sec
  induction ended with
  | nil =>
    cases last with
    | none => exact ⟨rfl, rfl⟩
    | some field =>
      obtain rfl := h.nothing (Option.some_ne_none field)
      have htext : text ⟨[], some field⟩ = field.text := List.append_nil _
      have hnext := field.nextLine_last
      rw [htext]
      refine ⟨passOver_append field.text_ne_nil hnext, ?_⟩
      exact (readEach_append field.text_ne_nil hnext).trans
        (congrArg (fun h => ([h], [])) (field.getHeader_text ends_nil))
  | cons p ended ih =>
    have hrest : EndsBefore ⟨ended, last⟩ rest := ⟨h.begins, h.nothing⟩
    obtain ⟨hpass, hread⟩ := ih hrest
    have htext : text ⟨p :: ended, last⟩ ++ rest =
        p.1.text ++ p.2.text ++ (text ⟨ended, last⟩ ++ rest) := by
      rw [text, text, List.flatMap_cons]
      simp only [List.append_assoc]
    have hne : p.1.text ++ p.2.text ≠ [] :=
      List.append_ne_nil_of_left_ne_nil p.1.text_ne_nil _
    have hnext := p.1.nextLine_text p.2 hrest.head
    have hheader : (getHeader (p.1.text ++ p.2.text ++ (text ⟨ended, last⟩ ++ rest))).1 =
        p.1.header := by
      rw [List.append_assoc]
      exact p.1.getHeader_text (p.2.ends hrest.head)
    have hcount : (fields ⟨p :: ended, last⟩).length = (fields ⟨ended, last⟩).length + 1 := rfl
    rw [hcount, htext, passOver_append hne hnext, readEach_append hne hnext, hpass, hread, hheader]
    exact ⟨rfl, rfl⟩

/-- What is behind a header section: a blank line without white space behind it, or nothing. -/
def Blank (rest : Text) : Prop :=
  rest = [] ∨ ∃ (e : Eol) (body : Text), rest = e.text ++ body ∧ body.head?.any isWSP = false

/-- At a blank line `getHeader` returns null. -/
theorem getHeader_blank {rest : Text} (h : Blank rest) : (getHeader rest).1 = none := by
  rcases h with rfl | ⟨e, body, rfl, hbody⟩
  · rfl
  · have hne : e.text ++ body ≠ [] := by
      cases e with
      | crlf => exact List.cons_ne_nil _ _
      | lf => exact List.cons_ne_nil _ _
    have hends : spanEOH (e.text ++ body) = ([], e.text ++ body) := e.ends hbody
    rw [getHeader_eq hne, hends]
    rfl

/-- **Header iteration partitions the header section.**  As many calls as there are headers pass over
one header each, with its continuation lines and the end of its last line, and leave what follows the
section; there `getHeader` returns null.  In any text each call goes forward, and so the calls end with
the text. -/
theorem partition (sec : HeaderSection) (rest : Text) (h : sec.EndsBefore rest) :
    passOver sec.fields.length (sec.text ++ rest) = (sec.slices, rest) ∧
      sec.slices.flatten = sec.text ∧
      readEach sec.fields.length (sec.text ++ rest) = (sec.fields.map HeaderField.header, rest) ∧
      (Blank rest → (getHeader rest).1 = none) ∧
      (∀ s : Text, s ≠ [] → (getHeader s).2 = goToNextHeader s ∧ goToNextHeader s <:+ s ∧
        (goToNextHeader s).length < s.length) ∧
      ∀ s : Text, (passOver s.length s).1.flatten = s ∧ (passOver s.length s).2 = [] :=
  ⟨(passOver_text h).1, sec.flatten_slices, (passOver_text h).2, getHeader_blank,
    fun _ hs => goToNextHeader_spec hs, fun _ => passOver_eq le_rfl⟩

/-- A header that is folded, with LF, and one that ends with CR LF, before the blank line. -/
def twoHeaders : HeaderSection :=
  ⟨[(⟨"To:".toList, [⟨.lf, '\t', "b".toList, rfl, by decide⟩], ⟨_, _, rfl, rfl⟩, by decide⟩, .lf),
    (⟨"Via: a".toList, [], ⟨_, _, rfl, rfl⟩, by decide⟩, .crlf)], none⟩

theorem partition_twoHeaders :
    passOver 2 "To:\n\tb\nVia: a\r\n\r\n".toList =
      (["To:\n\tb\n".toList, "Via: a\r\n".toList], "\r\n".toList) :=
  (partition twoHeaders "\r\n".toList ⟨rfl, fun h => absurd rfl h⟩).1

end HeaderSection

end SipParser
end SoftPhone
