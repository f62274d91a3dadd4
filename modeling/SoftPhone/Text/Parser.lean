import Mathlib.Data.Int.Notation
import Mathlib.Data.List.Basic
import Mathlib.Data.List.TakeWhile
import Mathlib.Data.Nat.Notation
import Mathlib.Tactic.Common

/-!
# Classes `Parser` and `SipParser`

A parser is a string with a position in it.  Most methods only look ahead, so a parser is
what is left of the string; a method that also reads what it skips returns both parts.

`getString` and `getWord` skip what separates tokens and read one token.  The `...SkippingQuoted`
methods do not stop inside of double quotes.  `spanEOH` is what `indexOfEOH` is used for: the
text of a header, with the lines that it is folded into.
-/

namespace SoftPhone

/-- A string of the source. -/
abbrev Text := List Char

-- the characters of a text are checked one by one, and not all that there are
instance (priority := 2000) decidableForallMem {p : Char → Prop} [DecidablePred p] (s : Text) :
    Decidable (∀ c ∈ s, p c) := List.decidableBAll p s

instance (priority := 2000) decidableForallMemOption {p : Char → Prop} [DecidablePred p]
    (o : Option Char) : Decidable (∀ c ∈ o, p c) := Option.decidableForallMem o

/-! ## Runs -/

section Runs

variable {α : Type*} {p : α → Bool}

/-- A run that ends where it has to. -/
theorem takeWhile_run {a b : List α} (ha : ∀ c ∈ a, p c = true) (hb : ∀ c ∈ b.head?, p c = false) :
    (a ++ b).takeWhile p = a ∧ (a ++ b).dropWhile p = b := by
  have hnone : b.takeWhile p = [] ∧ b.dropWhile p = b := by
    cases b with
    | nil => exact ⟨rfl, rfl⟩
    | cons c b =>
      have hc := hb c rfl
      simp [hc]
  rw [List.takeWhile_append_of_pos ha, List.dropWhile_append_of_pos ha, hnone.1, hnone.2,
    List.append_nil]
  exact ⟨rfl, rfl⟩

theorem head_dropWhile {s : List α} : ∀ c ∈ (s.dropWhile p).head?, p c = false := by
  intro c hc
  have h := List.head?_dropWhile_not p s
  rw [Option.mem_def.mp hc] at h
  exact h

/-- A run of other characters. -/
theorem bne_of_not_mem [DecidableEq α] {c : α} {a : List α} (h : c ∉ a) :
    ∀ d ∈ a, (d != c) = true := by
  intro d hd
  rw [bne_iff_ne]
  rintro rfl
  exact h hd

end Runs

namespace SipParser

/-! ## Characters -/

/-- `isChar`: a visible ASCII character. -/
def isChar (c : Char) : Bool := ' ' < c && c ≤ '~'

/-- `isCRLF`. -/
def isCRLF (c : Char) : Bool := c == '\r' || c == '\n'

/-- `isWSP`: space or tab. -/
def isWSP (c : Char) : Bool := c == ' ' || c == '\t'

/-- `SipParser.isSeparator`. -/
def isSeparator (c : Char) : Bool :=
  [' ', '\t', '\r', '\n', '(', ')', '<', '>', ',', ';', '\\', '"', '/', '[', ']', '?', '=',
    '\x7b', '\x7d'].contains c

/-- `SipParser.param_separators`. -/
def isParamSeparator (c : Char) : Bool := [' ', '=', ';', ',', '\n', '\r'].contains c

/-- `SipParser.uri_separators`. -/
def isUriSeparator (c : Char) : Bool := [' ', '>', '\n', '\r'].contains c

/-- `String.trim`. -/
def trim (s : Text) : Text :=
  ((s.dropWhile (· ≤ ' ')).reverse.dropWhile (· ≤ ' ')).reverse

/-- `String.equalsIgnoreCase`, for ASCII. -/
def equalsIgnoreCase (s t : Text) : Bool := s.map Char.toLower == t.map Char.toLower

/-- Digits only. -/
def parseDigits (s : Text) : Option ℤ :=
  if s ≠ [] ∧ s.all Char.isDigit then some (Nat.ofDigitChars 10 s 0) else none

/-- Digits with an optional sign. -/
def parseSigned : Text → Option ℤ
  | '-' :: s => (parseDigits s).map (- ·)
  | '+' :: s => parseDigits s
  | s => parseDigits s

/-- `Integer.parseInt`: the number is in the range of an `int`. -/
def parseInt (s : Text) : Option ℤ :=
  (parseSigned s).filter fun n => -2147483648 ≤ n && n ≤ 2147483647

/-- `String.valueOf`, of a number. -/
def valueOf (n : ℤ) : Text := (toString n).toList

/-! ## Tokens -/

/-- `skipWSP`: skips spaces, not tabs. -/
def skipWSP (s : Text) : Text := s.dropWhile (· == ' ')

/-- `goTo(c)`. -/
def goTo (c : Char) (s : Text) : Text := s.dropWhile (· != c)

/-- `getString()`: a token of visible characters, and what is left. -/
def getString (s : Text) : Text × Text :=
  let s := s.dropWhile (!isChar ·)
  (s.takeWhile isChar, s.dropWhile isChar)

/-- `getInt()`. -/
def getInt (s : Text) : Option ℤ := parseInt (getString s).1

/-- `getWord(param_separators)`. -/
def getWord (s : Text) : Text × Text :=
  let s := s.dropWhile isParamSeparator
  (s.takeWhile (!isParamSeparator ·), s.dropWhile (!isParamSeparator ·))

/-- `getWord(separators)`, and what is left. -/
def getWordOf (separator : Char → Bool) (s : Text) : Text × Text :=
  let s := s.dropWhile separator
  (s.takeWhile (!separator ·), s.dropWhile (!separator ·))

/-- `getStringUnquoted`. -/
def getStringUnquoted (s : Text) : Text :=
  match s.dropWhile (!isChar ·) with
  | '"' :: s => if '"' ∈ s then s.takeWhile (· != '"') else (getString ('"' :: s)).1
  | s => (getString s).1

/-- What `goToSkippingQuoted(c)` skips, and what is left. -/
def spanSkippingQuoted (c : Char) : Bool → Text → Text × Text
  | _, [] => ([], [])
  | inside, a :: s =>
    if a = c ∧ inside = false then ([], a :: s)
    else
      let p := spanSkippingQuoted c (if a = '"' then !inside else inside) s
      (a :: p.1, p.2)

/-- `goToSkippingQuoted(c)`. -/
def goToSkippingQuoted (c : Char) (s : Text) : Text := (spanSkippingQuoted c false s).2

/-- The token of `getWordSkippingQuoted(param_separators)`, from its first character on. -/
def wordSkippingQuoted : Bool → Text → Text
  | _, [] => []
  | inside, a :: s =>
    if isParamSeparator a ∧ inside = false then []
    else a :: wordSkippingQuoted (if a = '"' then !inside else inside) s

/-- `getWordSkippingQuoted(param_separators)`. -/
def getWordSkippingQuoted (s : Text) : Text :=
  wordSkippingQuoted false (s.dropWhile isParamSeparator)

/-! ## Lines -/

/-- The end of line that `goToNextLine` skips. -/
def skipEOL : Text → Text
  | '\r' :: '\n' :: s => s
  | _ :: s => s
  | [] => []

/-- `goToNextLine`. -/
def goToNextLine (s : Text) : Text := skipEOL (s.dropWhile (!isCRLF ·))

/-- The next line goes on with the header. -/
def folds (s : Text) : Bool :=
  match skipEOL s with
  | c :: _ => isWSP c
  | [] => false

/-- The text up to `indexOfEOH`, and what is left. -/
def spanEOH : Text → Text × Text
  | [] => ([], [])
  | c :: s =>
    if isCRLF c ∧ folds (c :: s) = false then ([], c :: s)
    else
      let p := spanEOH s
      (c :: p.1, p.2)

/-! ## Lemmas -/

@[simp] theorem trim_nil : trim [] = [] := rfl

/-- A text that begins and ends with a visible character is not trimmed. -/
theorem trim_eq_self {s : Text} (hhead : ∀ c ∈ s.head?, ¬c ≤ ' ')
    (hlast : ∀ c ∈ s.getLast?, ¬c ≤ ' ') : trim s = s := by
  have hkeep {s : Text} (h : ∀ c ∈ s.head?, ¬c ≤ ' ') : s.dropWhile (· ≤ ' ') = s := by
    cases s with
    | nil => rfl
    | cons c s => exact List.dropWhile_cons_of_neg (by simpa using h c rfl)
  rw [trim, hkeep hhead, hkeep, List.reverse_reverse]
  rw [List.head?_reverse]
  exact hlast

theorem valueOf_eq (n : ℤ) : valueOf n =
    if 0 ≤ n then Nat.toDigits 10 n.toNat else '-' :: Nat.toDigits 10 (-n).toNat := by
  unfold valueOf
  rw [Int.toString_eq_repr, Int.repr_eq_if]
  split
  · exact Nat.toList_repr
  · rw [String.toList_append, Nat.toList_repr]
    rfl

theorem isDigit_valueOf {n : ℤ} (hn : 0 ≤ n) {c : Char} (h : c ∈ valueOf n) :
    c.isDigit = true := by
  rw [valueOf_eq, if_pos hn] at h
  exact Nat.isDigit_of_mem_toDigits (by decide) (by decide) h

theorem valueOf_ne_nil (n : ℤ) : valueOf n ≠ [] := by
  rw [valueOf_eq]
  split
  · exact Nat.toDigits_ne_nil
  · exact List.cons_ne_nil _ _

theorem isChar_of_isDigit {c : Char} (h : c.isDigit = true) : isChar c = true := by
  unfold Char.isDigit at h
  unfold isChar
  simp only [Bool.and_eq_true, decide_eq_true_eq, ge_iff_le, Char.lt_def, Char.le_def,
    UInt32.lt_iff_toNat_lt, UInt32.le_iff_toNat_le] at h ⊢
  exact ⟨lt_of_lt_of_le (by decide) h.1, le_trans h.2 (by decide)⟩

theorem isChar_valueOf {n : ℤ} {c : Char} (h : c ∈ valueOf n) : isChar c = true := by
  by_cases hn : 0 ≤ n
  · exact isChar_of_isDigit (isDigit_valueOf hn h)
  · rw [valueOf_eq, if_neg hn] at h
    rcases List.mem_cons.mp h with rfl | h
    · decide
    · exact isChar_of_isDigit (Nat.isDigit_of_mem_toDigits (by decide) (by decide) h)

theorem parseDigits_toDigits (k : ℕ) : parseDigits (Nat.toDigits 10 k) = some (k : ℤ) := by
  unfold parseDigits
  rw [if_pos ⟨Nat.toDigits_ne_nil, List.all_eq_true.mpr fun c hc =>
    Nat.isDigit_of_mem_toDigits (by decide) (by decide) hc⟩, Nat.ofDigitChars_ten_toDigits]

theorem parseSigned_of_isDigit {s : Text} (hs : ∀ c ∈ s, c.isDigit = true) :
    parseSigned s = parseDigits s := by
  unfold parseSigned
  split
  · have hminus := hs '-' (List.mem_cons_self ..)
    cases hminus
  · have hplus := hs '+' (List.mem_cons_self ..)
    cases hplus
  · rfl

theorem parseSigned_valueOf (n : ℤ) : parseSigned (valueOf n) = some n := by
  by_cases hn : 0 ≤ n
  · rw [parseSigned_of_isDigit fun c => isDigit_valueOf hn, valueOf_eq, if_pos hn,
      parseDigits_toDigits, Int.toNat_of_nonneg hn]
  · rw [valueOf_eq, if_neg hn]
    show (parseDigits _).map _ = _
    rw [parseDigits_toDigits, Option.map_some, Int.toNat_of_nonneg (by omega), Int.neg_neg]

/-- A number of type `int` that was written is read again. -/
theorem parseInt_valueOf {n : ℤ} (hn : -2147483648 ≤ n ∧ n ≤ 2147483647) :
    parseInt (valueOf n) = some n := by
  unfold parseInt
  rw [parseSigned_valueOf, Option.filter_some, if_pos]
  simpa using hn

theorem valueOf_injective {m n : ℤ} (h : valueOf m = valueOf n) : m = n := by
  have hm := parseSigned_valueOf m
  rw [h, parseSigned_valueOf] at hm
  exact (Option.some.inj hm).symm

/-- What `parseInt` returns is in the range of an `int`. -/
theorem range_parseInt {s : Text} {n : ℤ} (h : parseInt s = some n) :
    -2147483648 ≤ n ∧ n ≤ 2147483647 := by
  unfold parseInt at h
  have hrange := (Option.filter_eq_some_iff.mp h).2
  simpa using hrange

/-- A token is a run of visible characters. -/
theorem isChar_of_mem_getString {s : Text} {c : Char} (h : c ∈ (getString s).1) :
    isChar c = true := by
  exact List.mem_takeWhile_imp h

/-- A token that stands in front is read as it is. -/
theorem getString_append {t s : Text} (ht : ∀ c ∈ t, isChar c = true)
    (hs : ∀ c ∈ s.head?, isChar c = false) (hne : t ≠ []) : getString (t ++ s) = (t, s) := by
  have hdrop : (t ++ s).dropWhile (!isChar ·) = t ++ s := by
    obtain _ | ⟨c, t⟩ := t
    · exact absurd rfl hne
    · have hc := ht c (List.mem_cons_self ..)
      simp [hc]
  show (List.takeWhile _ (List.dropWhile _ _), List.dropWhile _ (List.dropWhile _ _)) = _
  rw [hdrop, (takeWhile_run ht hs).1, (takeWhile_run ht hs).2]

/-- A space in front of a token is skipped. -/
theorem getString_space (s : Text) : getString (' ' :: s) = getString s := by
  have hspace : isChar ' ' = false := by decide
  show (List.takeWhile _ (List.dropWhile _ _), List.dropWhile _ (List.dropWhile _ _)) = _
  rw [List.dropWhile_cons_of_pos (by rw [hspace]; rfl)]
  rfl

/-- A word, and what stands behind it. -/
theorem getString_blank {word : Text} (hword : ∀ c ∈ word, isChar c = true) (hne : word ≠ [])
    (u : Text) : getString (word ++ ' ' :: u) = (word, ' ' :: u) :=
  getString_append hword (by simp [isChar]) hne

/-- A word without separators that stands in front is read as it is. -/
theorem getWordOf_append {separator : Char → Bool} {w s : Text} (hne : w ≠ [])
    (hw : ∀ c ∈ w, separator c = false) (hs : ∀ c ∈ s.head?, separator c = true) :
    getWordOf separator (w ++ s) = (w, s) := by
  have hdrop : (w ++ s).dropWhile separator = w ++ s := by
    obtain _ | ⟨c, w⟩ := w
    · exact absurd rfl hne
    · have hc := hw c (List.mem_cons_self ..)
      simp [hc]
  have hrun := takeWhile_run (p := (!separator ·)) (fun c hc => by rw [hw c hc]; rfl)
    (fun c hc => by rw [hs c hc]; rfl) (a := w) (b := s)
  show (List.takeWhile _ (List.dropWhile _ _), List.dropWhile _ (List.dropWhile _ _)) = _
  rw [hdrop, hrun.1, hrun.2]

/-- A separator in front is skipped. -/
theorem getWordOf_cons {separator : Char → Bool} {c : Char} (hc : separator c = true) (s : Text) :
    getWordOf separator (c :: s) = getWordOf separator s := by
  show (List.takeWhile _ (List.dropWhile _ _), List.dropWhile _ (List.dropWhile _ _)) = _
  rw [List.dropWhile_cons_of_pos hc]
  rfl

/-- A text in quotes is read without them. -/
theorem getStringUnquoted_quoted {s : Text} (hs : '"' ∉ s) :
    getStringUnquoted ('"' :: (s ++ ['"'])) = s := by
  have hmem : '"' ∈ s ++ ['"'] := List.mem_append_right _ List.mem_cons_self
  have hrun := takeWhile_run (p := (· != '"')) (a := s) (b := ['"']) (bne_of_not_mem hs)
    fun d hd => by rw [← Option.some.inj hd]; rfl
  rw [getStringUnquoted, List.dropWhile_cons_of_neg (by decide)]
  show (if '"' ∈ s ++ ['"'] then _ else _) = _
  rw [if_pos hmem, hrun.1]

/-! ## What is left -/

/-- The end of a line is one character, unless it is CR LF. -/
theorem skipEOL_cons {c : Char} {s : Text} (h : ¬(c = '\r' ∧ ∃ t, s = '\n' :: t)) :
    skipEOL (c :: s) = s := by
  unfold skipEOL
  split
  · rename_i t heq
    exact absurd ⟨(List.cons.inj heq).1, t, (List.cons.inj heq).2⟩ h
  · rename_i heq
    exact (List.cons.inj heq).2.symm
  · rename_i heq
    exact absurd heq (List.cons_ne_nil _ _)

theorem skipEOL_singleton (c : Char) : skipEOL [c] = [] :=
  skipEOL_cons fun ⟨_, _, heq⟩ => List.cons_ne_nil _ _ heq.symm

theorem skipEOL_suffix (s : Text) : skipEOL s <:+ s := by
  unfold skipEOL
  split
  · exact ⟨['\r', '\n'], rfl⟩
  · exact List.suffix_cons _ _
  · exact List.suffix_rfl

theorem goToNextLine_suffix (s : Text) : goToNextLine s <:+ s :=
  (skipEOL_suffix _).trans (List.dropWhile_suffix _)

/-- A character that is there is found. -/
theorem goTo_of_mem {c : Char} {s : Text} (h : c ∈ s) : ∃ u, goTo c s = c :: u := by
  cases hs : goTo c s with
  | nil =>
    have hall := List.dropWhile_eq_nil_iff.mp hs c h
    exact absurd hall (by simp)
  | cons d u =>
    have hhead := head_dropWhile (p := (· != c)) (s := s) d (congrArg List.head? hs)
    obtain rfl : d = c := by simpa using hhead
    exact ⟨u, rfl⟩

theorem goTo_of_not_mem {c : Char} {s : Text} (h : c ∉ s) : goTo c s = [] :=
  List.dropWhile_eq_nil_iff.mpr (bne_of_not_mem h)

/-- The first one is found. -/
theorem goTo_append {c : Char} {a : Text} (ha : c ∉ a) (b : Text) : goTo c (a ++ c :: b) = c :: b :=
  (takeWhile_run (b := c :: b) (bne_of_not_mem ha) (by simp)).2

/-! ## Words behind one another -/

/-- A space ends a token. -/
theorem not_isChar_space (s : Text) : ∀ c ∈ (' ' :: s).head?, isChar c = false := by
  intro c hc
  rw [← Option.some.inj hc]
  decide

/-- Words with a space in front of each. -/
theorem not_isChar_words (ws : List Text) :
    ∀ c ∈ (ws.flatMap (' ' :: ·)).head?, isChar c = false := by
  cases ws with
  | nil => exact nofun
  | cons w ws => exact not_isChar_space _

/-- There are at most as many words as characters. -/
theorem length_le_flatMap_cons (c : Char) (ws : List Text) :
    ws.length ≤ (ws.flatMap (c :: ·)).length := by
  induction ws with
  | nil => exact le_rfl
  | cons w ws ih =>
    rw [List.flatMap_cons, List.length_append, List.length_cons, List.length_cons]
    omega

end SipParser
end SoftPhone
