import Mathlib.Data.List.Infix
import SoftPhone.Text.Parameters
import SoftPhone.Text.Quoted

/-!
# The parameters of a header, one by one

`segments` divides the text behind the first semicolon into the parameters that `getParameter`
and `hasParameter` go through: each has a name and a tail, up to the next semicolon that is not
in quotes.  The two methods are functions of this list (`anyParameter_eq`, `findParameter_eq`).

`setParameter` adds a segment, or makes the last one longer if a quote is open there
(`segments_append`).  `removeParameter` removes the first segment of the name, but only if it
does not find the name behind a semicolon in quotes before (`Clear`, `cut_eq`).
-/

namespace SoftPhone

open SipParser

namespace ParametricHeader

/-! ## One segment -/

/-- A parameter: its name, and what stands between the name and the next semicolon. -/
structure Segment where
  name : Text
  tail : Text
  deriving DecidableEq, Repr

/-- The text begins with separators, a name and a tail; then it ends, or a semicolon follows. -/
structure First (gap name tail rest : Text) : Prop where
  separators : ∀ c ∈ gap, isParamSeparator c = true
  word : ∀ c ∈ name, isParamSeparator c = false
  ne_nil : name ≠ []
  stop : ∀ c ∈ (tail ++ rest).head?, isParamSeparator c = true
  skips : Skips ';' false tail
  next : rest = [] ∨ endsInside false tail = false ∧ ∃ u, rest = ';' :: u

theorem isParamSeparator_semi : isParamSeparator ';' = true := by decide

theorem getWord_append {gap name rest : Text} (hgap : ∀ c ∈ gap, isParamSeparator c = true)
    (hname : ∀ c ∈ name, isParamSeparator c = false) (hne : name ≠ [])
    (hrest : ∀ c ∈ rest.head?, isParamSeparator c = true) :
    getWord (gap ++ (name ++ rest)) = (name, rest) := by
  have hhead : ∀ c ∈ (name ++ rest).head?, isParamSeparator c = false := by
    intro c hc
    cases name with
    | nil => exact absurd rfl hne
    | cons a name =>
      rw [← Option.some.inj hc]
      exact hname a (List.mem_cons_self ..)
  unfold getWord
  rw [(takeWhile_run hgap hhead).2]
  obtain ⟨htake, hdrop⟩ := takeWhile_run (p := (!isParamSeparator ·)) (a := name) (b := rest)
    (fun c hc => by simp [hname c hc]) (fun c hc => by simp [hrest c hc])
  exact Prod.ext htake hdrop

/-- A text is made of separators only, or a name is read. -/
theorem getWord_eq (s : Text) :
    (∀ c ∈ s, isParamSeparator c = true) ∧ getWord s = ([], []) ∨
      ∃ gap name rest, s = gap ++ (name ++ rest) ∧ (∀ c ∈ gap, isParamSeparator c = true) ∧
        (∀ c ∈ name, isParamSeparator c = false) ∧ name ≠ [] ∧
        (∀ c ∈ rest.head?, isParamSeparator c = true) ∧ getWord s = (name, rest) := by
  by_cases hall : ∀ c ∈ s, isParamSeparator c = true
  · left
    refine ⟨hall, ?_⟩
    unfold getWord
    rw [List.dropWhile_eq_nil_iff.mpr hall]
    rfl
  · right
    have hsplit : s = s.takeWhile isParamSeparator ++
        ((s.dropWhile isParamSeparator).takeWhile (!isParamSeparator ·) ++
          (s.dropWhile isParamSeparator).dropWhile (!isParamSeparator ·)) := by
      rw [List.takeWhile_append_dropWhile, List.takeWhile_append_dropWhile]
    refine ⟨_, _, _, hsplit, fun c hc => List.mem_takeWhile_imp hc, fun c hc => ?_, ?_, fun c hc => ?_,
      rfl⟩
    · have h := List.mem_takeWhile_imp hc
      simpa using h
    · intro hnil
      have hd : s.dropWhile isParamSeparator ≠ [] := fun h => hall (List.dropWhile_eq_nil_iff.mp h)
      cases hs : s.dropWhile isParamSeparator with
      | nil => exact hd hs
      | cons a t =>
        rw [hs] at hnil
        have ha := head_dropWhile (p := isParamSeparator) (s := s) a (by rw [hs]; rfl)
        simp [ha] at hnil
    · have h := head_dropWhile (p := (!isParamSeparator ·)) c hc
      simpa using h

/-- **A text is made of separators only, or begins with a segment.** -/
theorem exists_first (s : Text) :
    (∀ c ∈ s, isParamSeparator c = true) ∨
      ∃ gap name tail rest, s = gap ++ (name ++ (tail ++ rest)) ∧ First gap name tail rest := by
  rcases getWord_eq s with ⟨hall, -⟩ | ⟨gap, name, y, hs, hgap, hname, hne, hstop, -⟩
  · exact .inl hall
  · obtain ⟨happend, hskips, hnext⟩ := span_eq ';' false y
    refine .inr ⟨gap, name, _, _, ?_, hgap, hname, hne, ?_, hskips, hnext⟩
    · rw [happend]
      exact hs
    · rw [happend]
      exact hstop

theorem First.getWord {gap name tail rest : Text} (h : First gap name tail rest) :
    SipParser.getWord (gap ++ (name ++ (tail ++ rest))) = (name, tail ++ rest) :=
  getWord_append h.separators h.word h.ne_nil h.stop

theorem First.span {gap name tail rest : Text} (h : First gap name tail rest) :
    spanSkippingQuoted ';' false (tail ++ rest) = (tail, rest) :=
  span_append h.skips h.next

/-- What follows the segment is shorter. -/
theorem First.length_lt {gap name tail rest : Text} (h : First gap name tail rest) :
    rest.tail.length < (gap ++ (name ++ (tail ++ rest))).length := by
  have hpos : 0 < name.length := List.length_pos_iff.mpr h.ne_nil
  rw [List.length_append, List.length_append, List.length_append, List.length_tail]
  omega

/-- Another text may follow the segment. -/
theorem First.replace {gap name tail rest : Text} (h : First gap name tail rest) {u : Text}
    (hrest : rest ≠ []) : First gap name tail (';' :: u) := by
  obtain hnil | ⟨hends, v, rfl⟩ := h.next
  · exact absurd hnil hrest
  · refine ⟨h.separators, h.word, h.ne_nil, ?_, h.skips, .inr ⟨hends, u, rfl⟩⟩
    intro c hc
    refine h.stop c ?_
    cases tail with
    | nil => exact hc
    | cons a tail => exact hc

/-- Nothing may follow the segment. -/
theorem First.last {gap name tail rest : Text} (h : First gap name tail rest) :
    First gap name tail [] := by
  refine ⟨h.separators, h.word, h.ne_nil, ?_, h.skips, .inl rfl⟩
  intro c hc
  refine h.stop c ?_
  cases tail with
  | nil => exact absurd hc (by simp)
  | cons a tail => exact hc

/-! ## All segments -/

/-- The segments of a text; `n` is at least its length. -/
def segmentsFuel : ℕ → Text → List Segment
  | 0, _ => []
  | n + 1, s =>
    let p := SipParser.getWord s
    if p.1 = [] then []
    else
      let q := spanSkippingQuoted ';' false p.2
      ⟨p.1, q.1⟩ :: segmentsFuel n q.2.tail

/-- The segments of a text. -/
def segments (s : Text) : List Segment := segmentsFuel s.length s

theorem segmentsFuel_of_separators {s : Text} (hs : ∀ c ∈ s, isParamSeparator c = true) (n : ℕ) :
    segmentsFuel n s = [] := by
  cases n with
  | zero => rfl
  | succ n =>
    unfold segmentsFuel SipParser.getWord
    rw [List.dropWhile_eq_nil_iff.mpr hs]
    rfl

theorem segmentsFuel_first {gap name tail rest : Text} (h : First gap name tail rest) (n : ℕ) :
    segmentsFuel (n + 1) (gap ++ (name ++ (tail ++ rest))) =
      ⟨name, tail⟩ :: segmentsFuel n rest.tail := by
  simp only [segmentsFuel, h.getWord, h.ne_nil, if_false, h.span]

theorem segmentsFuel_eq {n : ℕ} {s : Text} (hn : s.length ≤ n) :
    segmentsFuel n s = segments s := by
  induction hk : s.length using Nat.strong_induction_on generalizing s n with
  | _ k ih =>
    rcases exists_first s with hs | ⟨gap, name, tail, rest, rfl, h⟩
    · rw [segments, segmentsFuel_of_separators hs, segmentsFuel_of_separators hs]
    · have hlt := h.length_lt
      obtain ⟨m, rfl⟩ : ∃ m, n = m + 1 := ⟨n - 1, by omega⟩
      obtain ⟨l, hl⟩ : ∃ l, (gap ++ (name ++ (tail ++ rest))).length = l + 1 := ⟨k - 1, by omega⟩
      rw [segments, hl, segmentsFuel_first h, segmentsFuel_first h]
      rw [ih _ (by omega) (n := m) (by omega) rfl, ih _ (by omega) (n := l) (by omega) rfl]

theorem segments_of_separators {s : Text} (hs : ∀ c ∈ s, isParamSeparator c = true) :
    segments s = [] := segmentsFuel_of_separators hs _

theorem segments_first {gap name tail rest : Text} (h : First gap name tail rest) :
    segments (gap ++ (name ++ (tail ++ rest))) = ⟨name, tail⟩ :: segments rest.tail := by
  have hlt := h.length_lt
  rw [← segmentsFuel_eq (Nat.le_succ _), segmentsFuel_first h, segmentsFuel_eq (by omega)]

theorem getWord_append_separators {gap : Text} (hgap : ∀ c ∈ gap, isParamSeparator c = true)
    (s : Text) : SipParser.getWord (gap ++ s) = SipParser.getWord s := by
  unfold SipParser.getWord
  rw [List.dropWhile_append_of_pos hgap]

/-- Separators in front do not matter. -/
theorem segments_append_separators {gap : Text} (hgap : ∀ c ∈ gap, isParamSeparator c = true)
    (s : Text) : segments (gap ++ s) = segments s := by
  have hfuel (n : ℕ) : segmentsFuel n (gap ++ s) = segmentsFuel n s := by
    cases n with
    | zero => rfl
    | succ n => simp only [segmentsFuel, getWord_append_separators hgap]
  have hle : s.length ≤ (gap ++ s).length := by
    rw [List.length_append]
    omega
  rw [← segmentsFuel_eq hle, ← hfuel]
  rfl

theorem getWord_of_separators {s : Text} (hs : ∀ c ∈ s, isParamSeparator c = true) :
    SipParser.getWord s = ([], []) := by
  unfold SipParser.getWord
  rw [List.dropWhile_eq_nil_iff.mpr hs]
  rfl

theorem First.ne_nil_text {gap name tail rest : Text} (h : First gap name tail rest) :
    gap ++ (name ++ (tail ++ rest)) ≠ [] := by
  have hlt := h.length_lt
  intro hnil
  rw [hnil] at hlt
  exact absurd hlt (by simp)

/-! ## `hasParameter` and `getParameter` -/

theorem anyParameter_nil (pname : Text) (n : ℕ) : anyParameter pname n [] = false := by
  cases n with
  | zero => rfl
  | succ n => simp only [anyParameter, if_true]

/-- **`hasParameter` looks for the name in the list of the segments.** -/
theorem anyParameter_eq {pname : Text} (hp : pname ≠ []) {n : ℕ} {s : Text} (hn : s.length ≤ n) :
    anyParameter pname n s = (segments s).any (·.name == pname) := by
  induction hk : s.length using Nat.strong_induction_on generalizing s n with
  | _ k ih =>
    rcases exists_first s with hs | ⟨gap, name, tail, rest, rfl, h⟩
    · rw [segments_of_separators hs, List.any_nil]
      cases n with
      | zero => rfl
      | succ n =>
        simp only [anyParameter, getWord_of_separators hs]
        have hnil : goToSkippingQuoted ';' [] = [] := rfl
        rw [hnil, List.tail_nil, anyParameter_nil]
        cases hempty : ([] == pname) with
        | true => exact absurd (eq_of_beq hempty).symm hp
        | false => simp
    · have hlt := h.length_lt
      obtain ⟨m, rfl⟩ : ∃ m, n = m + 1 := ⟨n - 1, by omega⟩
      have hrest : goToSkippingQuoted ';' (tail ++ rest) = rest := congrArg Prod.snd h.span
      simp only [anyParameter, h.ne_nil_text, if_false, h.getWord, hrest]
      rw [segments_first h, List.any_cons, ih _ (by omega) (n := m) (by omega) rfl]

/-- The value that stands in the tail of a parameter, when it is a token. -/
def ownValue (tail : Text) : Option Text :=
  match skipWSP tail with
  | [] => none
  | c :: t =>
    if c = '=' then
      let w := getWordSkippingQuoted t
      if w = [] ∨ '"' ∈ w then none else some w
    else none

theorem wordSkippingQuoted_append {d rest : Text} (hd : '"' ∉ wordSkippingQuoted false d)
    (hrest : ∀ c ∈ rest.head?, isParamSeparator c = true) :
    wordSkippingQuoted false (d ++ rest) = wordSkippingQuoted false d := by
  induction d with
  | nil =>
    cases rest with
    | nil => rfl
    | cons c rest =>
      show wordSkippingQuoted false (c :: rest) = []
      rw [wordSkippingQuoted, if_pos ⟨hrest c rfl, rfl⟩]
  | cons a d ih =>
    rw [List.cons_append, wordSkippingQuoted, wordSkippingQuoted]
    rw [wordSkippingQuoted] at hd
    by_cases ha : isParamSeparator a = true ∧ false = false
    · rw [if_pos ha, if_pos ha]
    · rw [if_neg ha] at hd ⊢
      rw [List.mem_cons, not_or] at hd
      rw [if_neg ha, if_neg (Ne.symm hd.1)]
      rw [if_neg (Ne.symm hd.1)] at hd
      rw [ih hd.2]

theorem getWordSkippingQuoted_append {t rest : Text} (ht : getWordSkippingQuoted t ≠ [])
    (hquote : '"' ∉ getWordSkippingQuoted t)
    (hrest : ∀ c ∈ rest.head?, isParamSeparator c = true) :
    getWordSkippingQuoted (t ++ rest) = getWordSkippingQuoted t := by
  unfold getWordSkippingQuoted at ht hquote ⊢
  have hd : t.dropWhile isParamSeparator ≠ [] := by
    intro hnil
    rw [hnil] at ht
    exact ht rfl
  rw [List.dropWhile_append, if_neg (by simpa [List.isEmpty_iff] using hd),
    wordSkippingQuoted_append hquote hrest]

/-- The value is read from a tail, whatever follows it. -/
theorem skipWSP_of_ownValue {tail b : Text} (h : ownValue tail = some b) :
    ∃ t, skipWSP tail = '=' :: t ∧ getWordSkippingQuoted t = b ∧ b ≠ [] ∧ '"' ∉ b := by
  unfold ownValue at h
  split at h
  · exact absurd h (by simp)
  · rename_i c t hskip
    by_cases hc : c = '='
    · rw [if_pos hc] at h
      by_cases hw : getWordSkippingQuoted t = [] ∨ '"' ∈ getWordSkippingQuoted t
      · exact absurd h (by simp [hw])
      · rw [not_or] at hw
        have hb : getWordSkippingQuoted t = b := by simpa [hw] using h
        rw [← hb]
        exact ⟨t, by rw [hskip, hc], rfl, hw.1, hw.2⟩
    · rw [if_neg hc] at h
      exact absurd h (by simp)

theorem skipWSP_append {tail t rest : Text} {c : Char} (h : skipWSP tail = c :: t) :
    skipWSP (tail ++ rest) = c :: (t ++ rest) := by
  unfold skipWSP at h ⊢
  rw [List.dropWhile_append, h]
  rfl

theorem ownValue_append {tail rest b : Text} (h : ownValue tail = some b)
    (hrest : ∀ c ∈ rest.head?, isParamSeparator c = true) : ownValue (tail ++ rest) = some b := by
  obtain ⟨t, hskip, hb, hne, hquote⟩ := skipWSP_of_ownValue h
  have hword : getWordSkippingQuoted (t ++ rest) = b := by
    rw [getWordSkippingQuoted_append (by rw [hb]; exact hne) (by rw [hb]; exact hquote) hrest, hb]
  unfold ownValue
  rw [skipWSP_append hskip]
  simp [hword, hne, hquote]

/-- A token has no separators. -/
theorem not_separator_of_mem {d : Text} (hd : '"' ∉ wordSkippingQuoted false d) :
    ∀ c ∈ wordSkippingQuoted false d, isParamSeparator c = false := by
  induction d with
  | nil => exact fun c hc => absurd hc (by simp [wordSkippingQuoted])
  | cons a d ih =>
    rw [wordSkippingQuoted] at hd ⊢
    by_cases ha : isParamSeparator a = true ∧ false = false
    · rw [if_pos ha]
      exact fun c hc => absurd hc (by simp)
    · rw [if_neg ha] at hd ⊢
      rw [List.mem_cons, not_or] at hd
      rw [if_neg (Ne.symm hd.1)] at hd ⊢
      intro c hc
      rcases List.mem_cons.mp hc with rfl | hc
      · simpa using ha
      · exact ih hd.2 c hc

theorem wordSkippingQuoted_token {b : Text} (hb : ∀ c ∈ b, isParamSeparator c = false)
    (hquote : '"' ∉ b) : wordSkippingQuoted false b = b := by
  induction b with
  | nil => rfl
  | cons a b ih =>
    rw [List.mem_cons, not_or] at hquote
    have ha := hb a (List.mem_cons_self ..)
    rw [wordSkippingQuoted, if_neg (by simp [ha]), if_neg (Ne.symm hquote.1),
      ih (fun c hc => hb c (List.mem_cons_of_mem _ hc)) hquote.2]

/-- A value is a token. -/
theorem token_of_ownValue {tail b : Text} (h : ownValue tail = some b) :
    (∀ c ∈ b, isParamSeparator c = false) ∧ b ≠ [] ∧ '"' ∉ b := by
  obtain ⟨t, -, rfl, hne, hquote⟩ := skipWSP_of_ownValue h
  exact ⟨not_separator_of_mem hquote, hne, hquote⟩

/-- A token behind `=` is a value. -/
theorem ownValue_token {b : Text} (hb : ∀ c ∈ b, isParamSeparator c = false) (hne : b ≠ [])
    (hquote : '"' ∉ b) : ownValue ('=' :: b) = some b := by
  have hskip : skipWSP ('=' :: b) = '=' :: b := rfl
  have hdrop : b.dropWhile isParamSeparator = b := by
    cases b with
    | nil => rfl
    | cons a b => rw [List.dropWhile_cons_of_neg (by simp [hb a (List.mem_cons_self ..)])]
  have hword : getWordSkippingQuoted b = b := by
    unfold getWordSkippingQuoted
    rw [hdrop, wordSkippingQuoted_token hb hquote]
  unfold ownValue
  rw [hskip]
  simp [hword, hne, hquote]

/-- The segment of a name. -/
def find (pname : Text) (l : List Segment) : Option Segment := l.find? (·.name == pname)

/-- The value that stands in the tail of a parameter. -/
def given (tail : Text) : Option Text :=
  match skipWSP tail with
  | [] => none
  | c :: t => if c = '=' then some (getWordSkippingQuoted t) else none

theorem given_of_ownValue {tail b : Text} (h : ownValue tail = some b) :
    given tail = some b ∧ b ≠ [] := by
  obtain ⟨t, hskip, hword, hne, -⟩ := skipWSP_of_ownValue h
  refine ⟨?_, hne⟩
  unfold given
  rw [hskip, ← hword]
  rfl

theorem wordSkippingQuoted_closed {d rest : Text} {inside : Bool}
    (hd : endsInside inside d = false) (hrest : ∀ c ∈ rest.head?, isParamSeparator c = true) :
    wordSkippingQuoted inside (d ++ rest) = wordSkippingQuoted inside d := by
  induction d generalizing inside with
  | nil =>
    obtain rfl : inside = false := hd
    cases rest with
    | nil => rfl
    | cons c rest =>
      show wordSkippingQuoted false (c :: rest) = []
      rw [wordSkippingQuoted, if_pos ⟨hrest c rfl, rfl⟩]
  | cons a d ih =>
    rw [endsInside_cons] at hd
    rw [List.cons_append, wordSkippingQuoted, wordSkippingQuoted, ih hd]

/-- A separator is not a quote. -/
theorem not_quote_of_separators {gap : Text} (hgap : ∀ c ∈ gap, isParamSeparator c = true) :
    '"' ∉ gap := fun h => absurd (hgap '"' h) (by decide)

/-- **A value that is not empty is read from its tail, whatever follows.** -/
theorem First.getWordSkippingQuoted {gap name tail rest t : Text} (h : First gap name tail rest)
    (hskip : skipWSP tail = '=' :: t) (hne : SipParser.getWordSkippingQuoted t ≠ []) :
    SipParser.getWordSkippingQuoted (t ++ rest) = SipParser.getWordSkippingQuoted t := by
  obtain hnil | ⟨hends, u, hu⟩ := h.next
  · rw [hnil, List.append_nil]
  · have hd : t.dropWhile isParamSeparator ≠ [] := by
      intro hnil
      unfold SipParser.getWordSkippingQuoted at hne
      rw [hnil] at hne
      exact hne rfl
    have hspaces : '"' ∉ tail.takeWhile (· == ' ') := by
      intro hmem
      have hspace := List.mem_takeWhile_imp hmem
      exact absurd hspace (by decide)
    have htail : tail = tail.takeWhile (· == ' ') ++ '=' :: t := by
      rw [← hskip]
      exact List.takeWhile_append_dropWhile.symm
    have hgap : '"' ∉ t.takeWhile isParamSeparator :=
      not_quote_of_separators fun c hc => List.mem_takeWhile_imp hc
    -- the quotes are those of the value
    have hclosed : SipParser.endsInside false (t.dropWhile isParamSeparator) = false := by
      rw [htail, endsInside_append, endsInside_of_not_mem hspaces, endsInside_cons,
        if_neg (by decide), ← List.takeWhile_append_dropWhile (p := isParamSeparator) (l := t),
        endsInside_append, endsInside_of_not_mem hgap] at hends
      exact hends
    unfold SipParser.getWordSkippingQuoted
    rw [List.dropWhile_append, if_neg (by simpa [List.isEmpty_iff] using hd)]
    refine wordSkippingQuoted_closed hclosed ?_
    intro c hc
    rw [hu] at hc
    rw [← Option.some.inj hc]
    exact isParamSeparator_semi

/-- **`getParameter` returns the value of the first segment of the name**, if it is not empty.  A
parameter without a value at the end of the text is an index out of range. -/
theorem findParameter_given {pname : Text} {n : ℕ} {s : Text} {a : Segment} (hn : s.length ≤ n)
    (ha : find pname (segments s) = some a) (hne : given a.tail ≠ some []) :
    findParameter pname n s = some (given a.tail) ∨ given a.tail = none ∧
      findParameter pname n s = none ∧ (segments s).getLast? = some a := by
  induction hk : s.length using Nat.strong_induction_on generalizing s n with
  | _ k ih =>
    rcases exists_first s with hs | ⟨gap, name, tail, rest, rfl, h⟩
    · rw [segments_of_separators hs] at ha
      exact absurd ha (by simp [find])
    · have hlt := h.length_lt
      obtain ⟨m, rfl⟩ : ∃ m, n = m + 1 := ⟨n - 1, by omega⟩
      have hrest : goToSkippingQuoted ';' (tail ++ rest) = rest := congrArg Prod.snd h.span
      rw [segments_first h] at ha ⊢
      unfold find at ha
      simp only [findParameter, h.ne_nil_text, if_false, h.getWord, hrest]
      by_cases hname : name = pname
      · rw [List.find?_cons_of_pos (by simpa using hname)] at ha
        obtain rfl := Option.some.inj ha
        rw [if_pos hname]
        cases hskip : skipWSP tail with
        | nil =>
          have hgiven : given tail = none := by
            unfold given
            rw [hskip]
          obtain hnil | ⟨-, u, hu⟩ := h.next
          · -- nothing follows
            right
            rw [hnil, List.append_nil, hskip]
            exact ⟨hgiven, rfl, rfl⟩
          · left
            have hsemi : skipWSP (tail ++ rest) = ';' :: u := by
              unfold skipWSP at hskip ⊢
              rw [List.dropWhile_append, hskip, hu]
              rfl
            rw [hsemi, hgiven]
            rfl
        | cons c t =>
          left
          rw [skipWSP_append hskip]
          by_cases hc : c = '='
          · subst hc
            have hgiven : given tail = some (SipParser.getWordSkippingQuoted t) := by
              unfold given
              rw [hskip]
              rfl
            rw [hgiven] at hne ⊢
            simp only [if_true]
            rw [h.getWordSkippingQuoted hskip fun hnil => hne (congrArg some hnil)]
          · have hgiven : given tail = none := by
              unfold given
              rw [hskip]
              exact if_neg hc
            simp only [hc, if_false, hgiven]
      · rw [List.find?_cons_of_neg (by simpa using hname)] at ha
        rw [if_neg hname]
        have hlast : (⟨name, tail⟩ :: segments rest.tail).getLast? = (segments rest.tail).getLast? := by
          cases hl : segments rest.tail with
          | nil =>
            rw [hl] at ha
            exact absurd ha (by simp)
          | cons b l => rfl
        rw [hlast]
        exact ih _ (by omega) (n := m) (by omega) ha rfl

/-- **`getParameter` returns the value of the first segment of the name**, when it is a token. -/
theorem findParameter_eq {pname b : Text} {n : ℕ} {s : Text} {a : Segment} (hn : s.length ≤ n)
    (ha : find pname (segments s) = some a) (hb : ownValue a.tail = some b) :
    findParameter pname n s = some (some b) := by
  obtain ⟨hgiven, hne⟩ := given_of_ownValue hb
  rcases findParameter_given hn ha (by rw [hgiven]; simpa using hne) with h | ⟨h, -⟩
  · rw [h, hgiven]
  · rw [hgiven] at h
    exact absurd h (by simp)

/-! ## `setParameter` adds a segment -/

/-- What `setParameter` adds: a name, and what stands behind it, without quotes and
semicolons. -/
structure Added (name tail : Text) : Prop where
  word : ∀ c ∈ name, isParamSeparator c = false
  ne_nil : name ≠ []
  stop : ∀ c ∈ tail.head?, isParamSeparator c = true
  semi : ';' ∉ tail
  quote : '"' ∉ name ++ tail

theorem Added.first {name tail : Text} (h : Added name tail) {gap : Text}
    (hgap : ∀ c ∈ gap, isParamSeparator c = true) : First gap name tail [] where
  separators := hgap
  word := h.word
  ne_nil := h.ne_nil
  stop := by
    rw [List.append_nil]
    exact h.stop
  skips := skips_of_not_mem h.semi false
  next := .inl rfl

theorem segments_added {name tail gap : Text} (h : Added name tail)
    (hgap : ∀ c ∈ gap, isParamSeparator c = true) :
    segments (gap ++ (name ++ tail)) = [⟨name, tail⟩] := by
  have hfirst := segments_first (h.first hgap)
  rw [List.append_nil] at hfirst
  rw [hfirst]
  rfl

theorem segments_added_nil {name tail : Text} (h : Added name tail) :
    segments (name ++ tail) = [⟨name, tail⟩] :=
  segments_added h (List.forall_mem_nil _)

/-- A segment was added, or the last one became longer. -/
def Extended (name tail : Text) (l l' : List Segment) : Prop :=
  l' = l ++ [⟨name, tail⟩] ∨
    ∃ l₀ a, l = l₀ ++ [a] ∧ l' = l₀ ++ [⟨a.name, a.tail ++ ';' :: (name ++ tail)⟩]

theorem Extended.cons {name tail : Text} {l l' : List Segment} (h : Extended name tail l l')
    (a : Segment) : Extended name tail (a :: l) (a :: l') := by
  rcases h with rfl | ⟨l₀, b, rfl, rfl⟩
  · exact .inl rfl
  · exact .inr ⟨a :: l₀, b, rfl, rfl⟩

theorem separators_append_semi {s : Text} (hs : ∀ c ∈ s, isParamSeparator c = true) :
    ∀ c ∈ s ++ [';'], isParamSeparator c = true := by
  intro c hc
  rcases List.mem_append.mp hc with hc | hc
  · exact hs c hc
  · rw [List.mem_singleton.mp hc]
    exact isParamSeparator_semi

/-- **A parameter is added behind the others**; it is lost in the last one if a quote is open
there. -/
theorem segments_append {name tail : Text} (h : Added name tail) (s : Text) :
    Extended name tail (segments s) (segments (s ++ ';' :: (name ++ tail))) := by
  induction hk : s.length using Nat.strong_induction_on generalizing s with
  | _ k ih =>
    rcases exists_first s with hs | ⟨gap, w, t, rest, rfl, hfirst⟩
    · have hgap := separators_append_semi hs
      left
      rw [segments_of_separators hs, List.append_cons s ';' (name ++ tail), segments_added h hgap]
      rfl
    · have hlt := hfirst.length_lt
      rw [segments_first hfirst]
      obtain hnil | ⟨hends, u, hu⟩ := hfirst.next
      · subst hnil
        have hassoc : gap ++ (w ++ (t ++ [])) ++ ';' :: (name ++ tail) =
            gap ++ (w ++ (t ++ ';' :: (name ++ tail))) := by simp
        rw [hassoc]
        cases hends : endsInside false t with
        | false =>
          -- the segment is closed, and the new one follows
          have hnext : First gap w t (';' :: (name ++ tail)) :=
            ⟨hfirst.separators, hfirst.word, hfirst.ne_nil, by
              intro c hc
              cases t with
              | nil =>
                rw [← Option.some.inj hc]
                exact isParamSeparator_semi
              | cons a t => exact hfirst.stop c hc, hfirst.skips, .inr ⟨hends, _, rfl⟩⟩
          left
          rw [segments_first hnext, List.tail_cons, segments_added_nil h]
          rfl
        | true =>
          -- the new parameter stands in the quotes
          have hin : Skips ';' true (';' :: (name ++ tail)) := by
            refine skips_cons.mpr ⟨by simp, ?_⟩
            refine skips_of_not_mem ?_ _
            rw [List.mem_append, not_or]
            refine ⟨fun hmem => ?_, h.semi⟩
            have hword := h.word ';' hmem
            rw [isParamSeparator_semi] at hword
            exact Bool.noConfusion hword
          have hlong : First gap w (t ++ ';' :: (name ++ tail)) [] :=
            ⟨hfirst.separators, hfirst.word, hfirst.ne_nil, by
              intro c hc
              cases t with
              | nil => exact absurd hends (by decide)
              | cons a t => exact hfirst.stop c hc, skips_append.mpr ⟨hfirst.skips, by rw [hends]; exact hin⟩,
              .inl rfl⟩
          right
          have hseg := segments_first hlong
          rw [List.append_nil] at hseg
          exact ⟨[], ⟨w, t⟩, rfl, hseg⟩
      · subst hu
        have hassoc : gap ++ (w ++ (t ++ ';' :: u)) ++ ';' :: (name ++ tail) =
            gap ++ (w ++ (t ++ ';' :: (u ++ ';' :: (name ++ tail)))) := by simp
        have hnext : First gap w t (';' :: (u ++ ';' :: (name ++ tail))) :=
          hfirst.replace (by simp)
        rw [hassoc, segments_first hnext, List.tail_cons, List.tail_cons]
        exact (ih _ (by rw [List.tail_cons] at hlt; omega) u rfl).cons ⟨w, t⟩

/-- A parameter of another name is still found, with the same value. -/
theorem Extended.find_ownValue {name tail pname b : Text} {l l' : List Segment} {a : Segment}
    (h : Extended name tail l l') (ha : find pname l = some a) (hb : ownValue a.tail = some b) :
    ∃ a', find pname l' = some a' ∧ ownValue a'.tail = some b := by
  unfold find at ha ⊢
  rcases h with rfl | ⟨l₀, c, rfl, rfl⟩
  · exact ⟨a, by rw [List.find?_append, ha]; rfl, hb⟩
  · rw [List.find?_append] at ha ⊢
    cases hl₀ : l₀.find? (·.name == pname) with
    | some a' =>
      rw [hl₀] at ha
      rw [← Option.some.inj ha] at hb
      exact ⟨a', rfl, hb⟩
    | none =>
      rw [hl₀, Option.none_or] at ha
      have hc := List.find?_some ha
      have hmem := List.mem_singleton.mp (List.mem_of_find?_eq_some ha)
      subst hmem
      refine ⟨⟨a.name, a.tail ++ ';' :: (name ++ tail)⟩, ?_, ownValue_append hb ?_⟩
      · rw [Option.none_or]
        simpa using hc
      · intro c hc
        rw [← Option.some.inj hc]
        exact isParamSeparator_semi

theorem Extended.any {name tail pname : Text} {l l' : List Segment} (h : Extended name tail l l')
    (hne : name ≠ pname) : l'.any (·.name == pname) = l.any (·.name == pname) := by
  rcases h with rfl | ⟨l₀, c, rfl, rfl⟩
  · simp [hne]
  · simp

/-! ## `removeParameter` removes a segment -/

/-- Behind no semicolon of the tail stands the name. -/
def clearTail (pname tail : Text) : Bool :=
  tail.tails.all fun t =>
    match t with
    | [] => true
    | c :: z => c != ';' || (SipParser.getWord z).1 != pname

/-- The name is not found behind a semicolon in quotes, up to the first segment of the name. -/
def clear (pname : Text) : List Segment → Bool
  | [] => true
  | a :: l => a.name == pname || clearTail pname a.tail && clear pname l

theorem clearTail_iff {pname tail : Text} :
    clearTail pname tail = true ↔
      ∀ z, ';' :: z <:+ tail → (SipParser.getWord z).1 ≠ pname := by
  unfold clearTail
  rw [List.all_eq_true]
  constructor
  · intro h z hz
    have hword := h _ ((List.mem_tails _ _).mpr hz)
    simpa using hword
  · intro h t ht
    cases t with
    | nil => rfl
    | cons c z =>
      by_cases hc : c = ';'
      · subst hc
        have hword := h z ((List.mem_tails _ _).mp ht)
        simpa using hword
      · simp [hc]

theorem length_getWord_le (s : Text) : (SipParser.getWord s).2.length ≤ s.length :=
  le_trans (List.length_dropWhile_le _ _) (List.length_dropWhile_le _ _)

theorem cutParameter_nil (pname : Text) (n : ℕ) (top : Text) :
    cutParameter pname n top [] = top := by
  cases n with
  | zero => exact List.append_nil top
  | succ n => simp only [cutParameter, if_true]

/-- More fuel does not matter. -/
theorem cutParameter_fuel (pname : Text) {n m : ℕ} {s : Text} (hn : s.length ≤ n)
    (hm : s.length ≤ m) (top : Text) :
    cutParameter pname n top s = cutParameter pname m top s := by
  induction n generalizing m s top with
  | zero =>
    rw [List.length_eq_zero_iff.mp (Nat.le_zero.mp hn), cutParameter_nil, cutParameter_nil]
  | succ n ih =>
    by_cases hs : s = []
    · rw [hs, cutParameter_nil, cutParameter_nil]
    · have hpos : 0 < s.length := List.length_pos_iff.mpr hs
      obtain ⟨k, rfl⟩ : ∃ k, m = k + 1 := ⟨m - 1, by omega⟩
      have hrest : (goTo ';' (SipParser.getWord s.tail).2).length ≤ s.length - 1 := by
        rw [← List.length_tail]
        exact le_trans (List.length_dropWhile_le _ _) (length_getWord_le _)
      simp only [cutParameter, hs, if_false]
      rw [ih (by omega) (m := k) (by omega)]

/-- The loop of `removeParameter` goes to the next semicolon, in quotes or not. -/
def cutFrom (pname : Text) (n : ℕ) (top y : Text) : Text :=
  cutParameter pname n (top ++ y.takeWhile (· != ';')) (goTo ';' y)

theorem cutParameter_of_ne {pname pre w y : Text} {n : ℕ}
    (hword : SipParser.getWord (pre ++ y) = (w, y)) (hne : w ≠ pname) (top : Text) :
    cutParameter pname (n + 1) top (';' :: (pre ++ y)) = cutFrom pname n (top ++ ';' :: pre) y := by
  have hsplit : ';' :: (pre ++ y) = (';' :: pre ++ y.takeWhile (· != ';')) ++ goTo ';' y := by
    rw [List.append_assoc]
    show _ = ';' :: pre ++ (List.takeWhile _ _ ++ List.dropWhile _ _)
    rw [List.takeWhile_append_dropWhile]
    rfl
  have htake : (';' :: (pre ++ y)).take ((';' :: (pre ++ y)).length - (goTo ';' y).length) =
      ';' :: pre ++ y.takeWhile (· != ';') := by
    rw [hsplit, List.length_append, Nat.add_sub_cancel, List.take_left]
  have hcons : ';' :: (pre ++ y) ≠ [] := List.cons_ne_nil _ _
  simp only [cutParameter, hcons, if_false, List.tail_cons, hword, hne]
  rw [htake]
  show cutParameter _ _ _ _ = cutParameter _ _ _ _
  simp

theorem cutParameter_of_eq {pname y x : Text} {n : ℕ} (hword : SipParser.getWord x = (pname, y))
    (top : Text) :
    cutParameter pname (n + 1) top (';' :: x) = top ++ goToSkippingQuoted ';' y := by
  have hcons : ';' :: x ≠ [] := List.cons_ne_nil _ _
  simp only [cutParameter, hcons, if_false, List.tail_cons, hword, if_true]

/-- A tail is passed, when the name does not stand behind one of its semicolons. -/
theorem cutFrom_pass {pname t rest : Text} (hclear : clearTail pname t = true)
    (hpname : pname ≠ []) (hrest : rest = [] ∨ ∃ u, rest = ';' :: u)
    (hz : rest ≠ [] → ∀ z, ';' :: z <:+ t → ∃ c ∈ z, isParamSeparator c = false) {n m : ℕ}
    (hn : (t ++ rest).length ≤ n) (hm : rest.length ≤ m) (top : Text) :
    cutFrom pname n top (t ++ rest) = cutParameter pname m (top ++ t) rest := by
  induction hk : t.length using Nat.strong_induction_on generalizing t n top with
  | _ k ih =>
    have hhead : ∀ c ∈ rest.head?, (c != ';') = false := by
      rintro c hc
      obtain rfl | ⟨u, rfl⟩ := hrest
      · exact absurd hc (by simp)
      · rw [← Option.some.inj hc]
        rfl
    by_cases hsemi : ';' ∈ t
    · obtain ⟨a, z, rfl, ha⟩ := List.eq_append_cons_of_mem hsemi
      have hrun : ∀ c ∈ a, (c != ';') = true := bne_of_not_mem ha
      have hassoc : a ++ ';' :: z ++ rest = a ++ ';' :: (z ++ rest) := by simp
      obtain ⟨htake, hdrop⟩ := takeWhile_run (b := ';' :: (z ++ rest)) hrun (by simp)
      rw [hassoc] at hn ⊢
      rw [List.length_append, List.length_cons, List.length_append] at hn
      rw [List.length_append, List.length_cons] at hk
      have hsuffix : ';' :: z <:+ a ++ ';' :: z := List.suffix_append _ _
      -- the word behind the semicolon stands in `z`
      obtain ⟨pre, w, z', hz', hword, hne⟩ : ∃ pre w z', z = pre ++ z' ∧
          SipParser.getWord (pre ++ (z' ++ rest)) = (w, z' ++ rest) ∧ w ≠ pname := by
        have hnot := clearTail_iff.mp hclear z hsuffix
        rcases getWord_eq z with ⟨hall, hempty⟩ | ⟨gap, w, y, hzy, hgap, hw, hwne, hstop, hget⟩
        · by_cases hnil : rest = []
          · refine ⟨z, [], [], by simp, ?_, Ne.symm hpname⟩
            rw [hnil, List.append_nil, List.append_nil]
            exact hempty
          · obtain ⟨c, hc, hsep⟩ := hz hnil z hsuffix
            rw [hall c hc] at hsep
            exact Bool.noConfusion hsep
        · refine ⟨gap ++ w, w, y, by rw [hzy, List.append_assoc], ?_, ?_⟩
          · rw [List.append_assoc]
            refine getWord_append hgap hw hwne ?_
            intro c hc
            cases y with
            | nil =>
              have hsemi' := hhead c hc
              rw [bne_eq_false_iff_eq] at hsemi'
              rw [hsemi']
              exact isParamSeparator_semi
            | cons b y => exact hstop c hc
          · rw [hget] at hnot
            exact hnot
      subst hz'
      rw [List.length_append] at hn hk
      obtain ⟨l, rfl⟩ : ∃ l, n = l + 1 := ⟨n - 1, by omega⟩
      have hsuffix' : z' <:+ a ++ ';' :: (pre ++ z') :=
        (List.suffix_append pre z').trans ((List.suffix_cons _ _).trans hsuffix)
      have hpass := ih z'.length (by omega) (t := z')
        (clearTail_iff.mpr fun u hu => clearTail_iff.mp hclear u (hu.trans hsuffix'))
        (fun hnil u hu => hz hnil u (hu.trans hsuffix')) (n := l)
        (by rw [List.length_append]; omega) (top ++ a ++ ';' :: pre) rfl
      unfold cutFrom
      rw [htake]
      show cutParameter _ _ _ (List.dropWhile _ _) = _
      rw [hdrop, List.append_assoc, cutParameter_of_ne hword hne, hpass]
      congr 1
      simp
    · have hrun : ∀ c ∈ t, (c != ';') = true := bne_of_not_mem hsemi
      obtain ⟨htake, hdrop⟩ := takeWhile_run hrun hhead
      unfold cutFrom
      rw [htake]
      show cutParameter _ _ _ (List.dropWhile _ _) = _
      rw [hdrop]
      refine cutParameter_fuel pname ?_ hm _
      rw [List.length_append] at hn
      omega

/-- In a closed tail, a semicolon is followed by a quote. -/
theorem exists_not_separator {t z : Text} (hskips : Skips ';' false t)
    (hends : endsInside false t = false) (hz : ';' :: z <:+ t) :
    ∃ c ∈ z, isParamSeparator c = false := by
  obtain ⟨a, rfl⟩ := hz
  have hin := (skips_cons.mp (skips_append.mp hskips).2).1
  rw [endsInside_append, endsInside_cons, if_neg (by decide)] at hends
  cases hinside : endsInside false a with
  | false => exact absurd ⟨rfl, hinside⟩ hin
  | true =>
    rw [hinside] at hends
    exact ⟨'"', mem_of_endsInside hends, by decide⟩

/-- Names have no quotes. -/
def Unquoted (l : List Segment) : Prop := ∀ a ∈ l, '"' ∉ a.name

instance : DecidablePred Unquoted := fun l => inferInstanceAs (Decidable (∀ a ∈ l, _))

/-- A quote is open behind the segment if it is open behind the tail. -/
theorem First.endsInside {gap name tail rest : Text} (h : First gap name tail rest)
    (hname : '"' ∉ name) :
    SipParser.endsInside false (';' :: (gap ++ (name ++ tail))) = SipParser.endsInside false tail := by
  rw [endsInside_cons, if_neg (by decide), endsInside_append, endsInside_append,
    endsInside_of_not_mem (not_quote_of_separators h.separators), endsInside_of_not_mem hname]

/-- **Behind a closed text, the segments of what is added follow.** -/
theorem segments_append_semi {s : Text} (hnames : Unquoted (segments s))
    (hclosed : SipParser.endsInside false s = false) (u : Text) :
    segments (s ++ ';' :: u) = segments s ++ segments u := by
  induction hk : s.length using Nat.strong_induction_on generalizing s with
  | _ k ih =>
    rcases exists_first s with hs | ⟨gap, w, t, rest, rfl, h⟩
    · have hgap := separators_append_semi hs
      rw [segments_of_separators hs, List.nil_append, List.append_cons]
      exact segments_append_separators hgap u
    · rw [segments_first h] at hnames ⊢
      have hlt := h.length_lt
      have hname : '"' ∉ w := hnames _ (List.mem_cons_self ..)
      have htail := h.endsInside hname
      rw [endsInside_cons, if_neg (by decide)] at htail
      have hsplit : gap ++ (w ++ (t ++ rest)) = gap ++ (w ++ t) ++ rest := by simp
      rw [hsplit, endsInside_append, htail] at hclosed
      obtain hnil | ⟨hends, v, hv⟩ := h.next
      · subst hnil
        have hnext : First gap w t (';' :: u) := by
          refine ⟨h.separators, h.word, h.ne_nil, ?_, h.skips, .inr ⟨hclosed, u, rfl⟩⟩
          intro c hc
          cases t with
          | nil =>
            rw [← Option.some.inj hc]
            exact isParamSeparator_semi
          | cons a t => exact h.stop c hc
        have hassoc : gap ++ (w ++ (t ++ [])) ++ ';' :: u = gap ++ (w ++ (t ++ ';' :: u)) := by simp
        rw [hassoc, segments_first hnext]
        rfl
      · subst hv
        rw [List.tail_cons] at hnames hlt ⊢
        rw [hends, endsInside_cons, if_neg (by decide)] at hclosed
        have hassoc : gap ++ (w ++ (t ++ ';' :: v)) ++ ';' :: u =
            gap ++ (w ++ (t ++ ';' :: (v ++ ';' :: u))) := by simp
        have hnext : First gap w t (';' :: (v ++ ';' :: u)) := h.replace (by simp)
        rw [hassoc, segments_first hnext, List.tail_cons,
          ih v.length (by omega) (fun a ha => hnames a (List.mem_cons_of_mem _ ha)) hclosed rfl]
        rfl

/-- **`removeParameter` removes the first segment of the name**, unless it finds the name behind a
semicolon in quotes.  What is left has no more commas and no more open quotes than before. -/
theorem cut_eq {pname : Text} (hp : pname ≠ []) {x : Text} (hclear : clear pname (segments x) = true)
    (hnames : Unquoted (segments x)) {n : ℕ} (hn : x.length < n) (top : Text) :
    ∃ out, cutParameter pname n top (';' :: x) = top ++ out ∧
      (out = [] ∨ ∃ u, out = ';' :: u) ∧
      segments out.tail = (segments x).eraseP (·.name == pname) ∧
      (Skips ',' false (';' :: x) → Skips ',' false out) ∧
      (endsInside false (';' :: x) = false → endsInside false out = false) := by
  induction hk : x.length using Nat.strong_induction_on generalizing x n top with
  | _ k ih =>
    obtain ⟨m, rfl⟩ : ∃ m, n = m + 1 := ⟨n - 1, by omega⟩
    rcases exists_first x with hs | ⟨gap, w, t, rest, rfl, h⟩
    · have hword : SipParser.getWord (x ++ []) = ([], []) := by
        rw [List.append_nil]
        exact getWord_of_separators hs
      refine ⟨';' :: x, ?_, .inr ⟨x, rfl⟩, ?_, id, id⟩
      · have hcut := cutParameter_of_ne (n := m) hword (Ne.symm hp) top
        rw [List.append_nil] at hcut
        rw [hcut, cutFrom]
        show cutParameter _ _ (_ ++ []) [] = _
        rw [cutParameter_nil, List.append_nil]
      · rw [List.tail_cons, segments_of_separators hs]
        rfl
    · rw [segments_first h] at hclear hnames ⊢
      have hlt := h.length_lt
      have hname : '"' ∉ w := hnames _ (List.mem_cons_self ..)
      have hclosed : rest ≠ [] → endsInside false (';' :: (gap ++ (w ++ t))) = false := by
        intro hnil
        rw [h.endsInside hname]
        exact (h.next.resolve_left hnil).1
      have htext : ';' :: (gap ++ (w ++ (t ++ rest))) = ';' :: (gap ++ (w ++ t)) ++ rest := by simp
      by_cases hw : w = pname
      · -- this segment is removed
        subst hw
        refine ⟨rest, ?_, ?_, ?_, ?_, ?_⟩
        · rw [cutParameter_of_eq h.getWord]
          show _ ++ (spanSkippingQuoted ';' false (t ++ rest)).2 = _
          rw [h.span]
        · exact h.next.imp id And.right
        · rw [List.eraseP_cons_of_pos (by simp)]
        · intro hcomma
          by_cases hnil : rest = []
          · rw [hnil]
            exact skips_nil _ _
          · rw [htext, skips_append, hclosed hnil] at hcomma
            exact hcomma.2
        · intro hends
          by_cases hnil : rest = []
          · rw [hnil]
            rfl
          · rw [htext, endsInside_append, hclosed hnil] at hends
            exact hends
      · -- this segment stays
        have hcleared : clearTail pname t = true ∧ clear pname (segments rest.tail) = true := by
          simpa [clear, hw] using hclear
        have hrest : rest = [] ∨ ∃ u, rest = ';' :: u := h.next.imp id And.right
        have hword : SipParser.getWord (gap ++ w ++ (t ++ rest)) = (w, t ++ rest) := by
          rw [List.append_assoc]
          exact h.getWord
        rw [List.length_append, List.length_append, List.length_append] at hn hk
        have hstep : cutParameter pname (m + 1) top (';' :: (gap ++ (w ++ (t ++ rest)))) =
            cutParameter pname m (top ++ ';' :: (gap ++ (w ++ t))) rest := by
          have hpass := cutFrom_pass hcleared.1 hp hrest
            (fun hnil z => exists_not_separator h.skips (h.next.resolve_left hnil).1)
            (n := m) (m := m) (by rw [List.length_append]; omega) (by omega)
            (top ++ ';' :: (gap ++ w))
          rw [← List.append_assoc gap, cutParameter_of_ne hword hw, hpass]
          congr 1
          simp
        obtain hnil | ⟨u, hu⟩ := hrest
        · subst hnil
          refine ⟨';' :: (gap ++ (w ++ (t ++ []))), ?_, .inr ⟨_, rfl⟩, ?_, id, id⟩
          · rw [hstep, cutParameter_nil, List.append_nil]
          · rw [List.tail_cons, segments_first h, List.eraseP_cons_of_neg (by simpa using hw)]
            rfl
        · subst hu
          rw [List.tail_cons] at hlt hcleared hnames
          rw [List.length_cons] at hn hk
          obtain ⟨out, hout, hstart, hsegments, hcommas, hends⟩ := ih u.length (by omega) (x := u)
            hcleared.2 (fun a ha => hnames a (List.mem_cons_of_mem _ ha)) (n := m) (by omega)
            (top ++ ';' :: (gap ++ (w ++ t))) rfl
          have hfirst : First gap w t out := by
            obtain rfl | ⟨v, rfl⟩ := hstart
            · exact h.last
            · exact h.replace (by simp)
          have hnew : ';' :: (gap ++ (w ++ (t ++ out))) = ';' :: (gap ++ (w ++ t)) ++ out := by simp
          refine ⟨';' :: (gap ++ (w ++ (t ++ out))), ?_, .inr ⟨_, rfl⟩, ?_, ?_, ?_⟩
          · rw [hstep, hout, hnew, List.append_assoc]
          · rw [List.tail_cons, List.tail_cons, segments_first hfirst, hsegments,
              List.eraseP_cons_of_neg (by simpa using hw)]
          · intro hcomma
            rw [htext, skips_append, hclosed (by simp)] at hcomma
            rw [hnew, skips_append, hclosed (by simp)]
            exact ⟨hcomma.1, hcommas hcomma.2⟩
          · intro hall
            rw [htext, endsInside_append, hclosed (by simp)] at hall
            rw [hnew, endsInside_append, hclosed (by simp)]
            exact hends hall

/-! ## The parameters of a name -/

/-- Of the elements that are looked for, the first one was removed. -/
theorem filter_eraseP_self {α : Type} (p : α → Bool) (l : List α) :
    (l.eraseP p).filter p = (l.filter p).tail := by
  induction l with
  | nil => rfl
  | cons a l ih =>
    by_cases ha : p a = true
    · rw [List.eraseP_cons_of_pos ha, List.filter_cons_of_pos ha, List.tail_cons]
    · rw [List.eraseP_cons_of_neg ha, List.filter_cons_of_neg ha, List.filter_cons_of_neg ha, ih]

/-- Of other elements, none was removed. -/
theorem filter_eraseP {α : Type} {p q : α → Bool} (h : ∀ a, p a = true → q a = false) (l : List α) :
    (l.eraseP p).filter q = l.filter q := by
  induction l with
  | nil => rfl
  | cons a l ih =>
    by_cases ha : p a = true
    · rw [List.eraseP_cons_of_pos ha, List.filter_cons_of_neg (by simp [h a ha])]
    · rw [List.eraseP_cons_of_neg ha, List.filter_cons, List.filter_cons, ih]

/-- The segments of a name. -/
def named (pname : Text) (l : List Segment) : List Segment := l.filter (·.name == pname)

theorem find_eq (pname : Text) (l : List Segment) : find pname l = (named pname l).head? :=
  List.head?_filter.symm

theorem any_eq (pname : Text) (l : List Segment) :
    l.any (·.name == pname) = (find pname l).isSome := List.isSome_find?.symm

theorem named_eraseP_self (pname : Text) (l : List Segment) :
    named pname (l.eraseP (·.name == pname)) = (named pname l).tail := filter_eraseP_self _ l

theorem named_eraseP {pname other : Text} (hne : pname ≠ other) (l : List Segment) :
    named other (l.eraseP (·.name == pname)) = named other l := by
  refine filter_eraseP (fun a ha => ?_) l
  rw [eq_of_beq ha]
  simpa using hne

theorem named_append_self (pname tail : Text) (l : List Segment) :
    named pname (l ++ [⟨pname, tail⟩]) = named pname l ++ [⟨pname, tail⟩] := by
  unfold named
  rw [List.filter_append, List.filter_cons_of_pos (by simp)]
  rfl

theorem named_append {pname other : Text} (hne : pname ≠ other) (tail : Text) (l : List Segment) :
    named other (l ++ [⟨pname, tail⟩]) = named other l := by
  unfold named
  rw [List.filter_append, List.filter_cons_of_neg (by simpa using hne)]
  exact List.append_nil _

/-! ## Other parameters -/

theorem mem_of_find {pname : Text} {l : List Segment} {a : Segment} (h : find pname l = some a) :
    a ∈ l ∧ a.name = pname :=
  ⟨List.mem_of_find?_eq_some h, by
    have hname := List.find?_some h
    simpa using hname⟩

theorem any_of_find {pname : Text} {l : List Segment} {a : Segment} (h : find pname l = some a) :
    l.any (·.name == pname) = true := by
  obtain ⟨hmem, hname⟩ := mem_of_find h
  exact List.any_eq_true.mpr ⟨a, hmem, by simpa using hname⟩

section Erase

variable {pname other : Text} (hne : pname ≠ other)

include hne

/-- A parameter of another name was removed. -/
theorem find_eraseP (l : List Segment) :
    find other (l.eraseP (·.name == pname)) = find other l := by
  rw [find_eq, find_eq, named_eraseP hne]

theorem any_eraseP (l : List Segment) :
    (l.eraseP (·.name == pname)).any (·.name == other) = l.any (·.name == other) := by
  rw [any_eq, any_eq, find_eraseP hne]

theorem clear_eraseP {l : List Segment} (hl : clear other l = true) :
    clear other (l.eraseP (·.name == pname)) = true := by
  induction l with
  | nil => rfl
  | cons a l ih =>
    by_cases ha : a.name = pname
    · have hother : (a.name == other) = false := by
        rw [ha]
        simpa using hne
      rw [List.eraseP_cons_of_pos (by simpa using ha)]
      rw [clear, hother, Bool.false_or, Bool.and_eq_true] at hl
      exact hl.2
    · rw [List.eraseP_cons_of_neg (by simpa using ha)]
      rw [clear, Bool.or_eq_true, Bool.and_eq_true] at hl ⊢
      exact hl.imp id fun h => ⟨h.1, ih h.2⟩

/-- The parameter that is added does not bring the other name in. -/
theorem clearTail_append {tail added : Text} (hadded : Added pname added)
    (htail : clearTail other tail = true) :
    clearTail other (tail ++ ';' :: (pname ++ added)) = true := by
  rw [clearTail_iff] at htail ⊢
  have hname (gap : Text) (hgap : ∀ c ∈ gap, isParamSeparator c = true) :
      SipParser.getWord (gap ++ (pname ++ added)) = (pname, added) :=
    getWord_append hgap hadded.word hadded.ne_nil hadded.stop
  rintro z ⟨a, ha⟩
  rcases List.append_eq_append_iff.mp ha.symm with ⟨c, hac, hc⟩ | ⟨c, htc, hc⟩
  · -- the semicolon is the one of the added parameter
    cases c with
    | nil =>
      rw [List.nil_append] at hc
      have hz := (List.cons.inj hc).2
      rw [← hz]
      have hword := hname [] (by simp)
      rw [List.nil_append] at hword
      rw [hword]
      exact hne
    | cons d c =>
      rw [List.cons_append] at hc
      have hz := (List.cons.inj hc).2
      have hmem : ';' ∈ pname ++ added := by
        rw [hz]
        exact List.mem_append_right _ (List.mem_cons_self ..)
      rcases List.mem_append.mp hmem with hmem | hmem
      · have hword := hadded.word ';' hmem
        rw [isParamSeparator_semi] at hword
        exact Bool.noConfusion hword
      · exact absurd hmem hadded.semi
  · cases c with
    | nil =>
      rw [List.nil_append] at hc
      have hz := (List.cons.inj hc).2
      rw [hz]
      have hword := hname [] (by simp)
      rw [List.nil_append] at hword
      rw [hword]
      exact hne
    | cons d c =>
      rw [List.cons_append] at hc
      obtain ⟨rfl, hz⟩ := List.cons.inj hc
      have hnot := htail c (htc ▸ List.suffix_append _ _)
      rw [hz]
      rcases getWord_eq c with ⟨hall, -⟩ | ⟨gap, w, y, hcy, hgap, hw, hwne, hstop, hget⟩
      · have hgap : ∀ b ∈ c ++ [';'], isParamSeparator b = true := by
          intro b hb
          rcases List.mem_append.mp hb with hb | hb
          · exact hall b hb
          · rw [List.mem_singleton.mp hb]
            exact isParamSeparator_semi
        have hword := hname _ hgap
        rw [← List.append_cons] at hword
        rw [hword]
        exact hne
      · rw [hget] at hnot
        have hhead : ∀ b ∈ (y ++ ';' :: (pname ++ added)).head?, isParamSeparator b = true := by
          intro b hb
          cases y with
          | nil =>
            rw [← Option.some.inj hb]
            exact isParamSeparator_semi
          | cons e y => exact hstop b hb
        have hword := getWord_append hgap hw hwne hhead
        rw [hcy, List.append_assoc, List.append_assoc, hword]
        exact hnot

theorem Extended.clear {added : Text} {l l' : List Segment} (hadded : Added pname added)
    (h : Extended pname added l l') (hl : ParametricHeader.clear other l = true) :
    ParametricHeader.clear other l' = true := by
  have hsemi : clearTail other added = true := by
    rw [clearTail_iff]
    rintro z ⟨a, ha⟩
    refine absurd ?_ hadded.semi
    rw [← ha]
    exact List.mem_append_right _ (List.mem_cons_self ..)
  rcases h with rfl | ⟨l₀, a, rfl, rfl⟩
  · induction l with
    | nil =>
      show (_ || (clearTail other added && true)) = true
      rw [hsemi]
      simp
    | cons a l ih =>
      rw [List.cons_append]
      rw [ParametricHeader.clear, Bool.or_eq_true, Bool.and_eq_true] at hl ⊢
      exact hl.imp id fun h => ⟨h.1, ih h.2⟩
  · induction l₀ with
    | nil =>
      rw [List.nil_append, ParametricHeader.clear, Bool.or_eq_true, Bool.and_eq_true] at hl ⊢
      exact hl.imp id fun h => ⟨clearTail_append hne hadded h.1, rfl⟩
    | cons b l₀ ih =>
      rw [List.cons_append, ParametricHeader.clear, Bool.or_eq_true, Bool.and_eq_true] at hl ⊢
      exact hl.imp id fun h => ⟨h.1, ih h.2⟩

end Erase

theorem Extended.unquoted {name added : Text} {l l' : List Segment} (hadded : Added name added)
    (h : Extended name added l l') (hl : Unquoted l) : Unquoted l' := by
  intro a ha
  rcases h with rfl | ⟨l₀, b, rfl, rfl⟩
  · rcases List.mem_append.mp ha with ha | ha
    · exact hl a ha
    · rw [List.mem_singleton.mp ha]
      exact fun hmem => hadded.quote (List.mem_append_left _ hmem)
  · rcases List.mem_append.mp ha with ha | ha
    · exact hl a (List.mem_append_left _ ha)
    · rw [List.mem_singleton.mp ha]
      exact hl b (List.mem_append_right _ (List.mem_singleton.mpr rfl))

end ParametricHeader
end SoftPhone
