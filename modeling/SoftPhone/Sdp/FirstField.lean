import SoftPhone.Sdp.SdpMessage

/-!
# `SdpParser.parseSdpField()`

The method skips lines until the second character is `=`, and then reads the field.  But it goes to
the next line feed, and not behind it: if the character behind the line feed is no `=`, it stays
there for ever.  It returns what it should if and only if it does not skip a line, or is at the last
one, or there is `=` behind the first line feed (`returns_iff`).
-/

namespace SoftPhone

open SipParser

namespace SdpParser

/-! ## The method -/

/-- The condition of the loop, where the position is in the text: there is a next character, and it
is no `=`. -/
def skips : Text → Bool
  | _ :: c :: _ => c != '='
  | _ => false

/-- `begin=str.indexOf("\n",begin)`, and the text from there on; `none` is -1. -/
def indexOfLF (s : Text) : Option Text :=
  match s.dropWhile (· != '\n') with
  | [] => none
  | c :: s => some (c :: s)

/-- The loop, for at most `n` times; the outer `none` says that it goes on. -/
def skipLoop : ℕ → Option Text → Option (Option Text)
  | _, none => some none
  | 0, some s => if skips s then none else some (some s)
  | n + 1, some s => if skips s then skipLoop n (indexOfLF s) else some (some s)

/-- What the method returns: null, or a field and what is left behind it; or it throws. -/
inductive FieldResult where
  | exception
  | null
  | field (type : Char) (value rest : Text)
  deriving DecidableEq, Repr

/-- What follows the loop. -/
def readField : Option Text → FieldResult
  | none => .null
  | some (type :: _ :: s) => .field type (trim (s.takeWhile (!isCRLF ·))) (goToNextLine s)
  | some _ => .exception

/-- `parseSdpField()`, with at most `n` times through the loop; `none` says that it goes on. -/
def parseFirstField (n : ℕ) (s : Text) : Option FieldResult := (skipLoop n (some s)).map readField

/-! ## What it should return -/

/-- The text begins with a field. -/
def IsField (s : Text) : Prop := ∃ c t, s = c :: '=' :: t

/-- No line from here on is a field. -/
def NoField (s : Text) : Prop :=
  ∀ a b, s = a ++ b → (a = [] ∨ a.getLast? = some '\n') → ¬IsField b

/-- The method returns: null where there is no field up to the end, or a field and a position behind
the one before. -/
def Returns (s : Text) : FieldResult → Prop
  | .exception => False
  | .null => NoField s
  | .field _ _ rest => rest <:+ s ∧ rest.length < s.length

section Loop

/-- The condition of the loop. -/
theorem of_skips {s : Text} (h : skips s = true) : ∃ c d t, s = c :: d :: t ∧ d ≠ '=' := by
  obtain _ | ⟨c, _ | ⟨d, t⟩⟩ := s
  · exact absurd h (by simp [skips])
  · exact absurd h (by simp [skips])
  · exact ⟨c, d, t, rfl, by simpa [skips] using h⟩

/-- A field is read where the loop stops. -/
theorem returns_readField {s : Text} {c d : Char} {t : Text} (h : c :: d :: t <:+ s) :
    Returns s (readField (some (c :: d :: t))) := by
  have hrest := goToNextLine_suffix t
  refine ⟨hrest.trans (((List.suffix_cons d t).trans (List.suffix_cons c _)).trans h), ?_⟩
  have hle := hrest.length_le
  have hlt := h.length_le
  simp only [List.length_cons] at hlt
  omega

/-- The loop stops at once. -/
theorem skipLoop_of_not {s : Text} (h : skips s = false) (n : ℕ) :
    skipLoop n (some s) = some (some s) := by
  cases n with
  | zero => rw [skipLoop, h, if_neg Bool.false_ne_true]
  | succ n => rw [skipLoop, h, if_neg Bool.false_ne_true]

theorem indexOfLF_cons (s : Text) : indexOfLF ('\n' :: s) = some ('\n' :: s) := rfl

/-- **At a line feed without `=` behind it, the loop never ends.** -/
theorem skipLoop_lf {s : Text} (h : skips ('\n' :: s) = true) (n : ℕ) :
    skipLoop n (some ('\n' :: s)) = none := by
  induction n with
  | zero => rw [skipLoop, if_pos h]
  | succ n ih => rw [skipLoop, if_pos h, indexOfLF_cons, ih]

/-- No line is a field when there is no line feed and no `=` in the second place. -/
theorem noField_of_not_mem {s : Text} (hlf : '\n' ∉ s) (hs : skips s = true) : NoField s := by
  rintro a b rfl ha ⟨c, t, rfl⟩
  rcases ha with rfl | ha
  · exact absurd hs (by simp [skips])
  · exact hlf (List.mem_append_left _ (List.mem_of_getLast? ha))

end Loop

/-! ## When it returns -/

section Returns

/-- With an answer that every number of steps gives, this answer decides. -/
theorem returns_iff_of_run {s : Text} {r : FieldResult} {n : ℕ}
    (hrun : ∀ m, parseFirstField m s = none ∨ parseFirstField m s = some r)
    (hn : parseFirstField n s = some r) :
    (∃ m r', parseFirstField m s = some r' ∧ Returns s r') ↔ Returns s r := by
  constructor
  · rintro ⟨m, r', hr', hreturns⟩
    rcases hrun m with hnone | hsome
    · rw [hnone] at hr'
      exact nomatch hr'
    · rw [hsome] at hr'
      rwa [Option.some.inj hr']
  · intro h
    exact ⟨n, r, hn, h⟩

/-- Where the loop stops at once, two characters must be left, and the second one is `=`. -/
theorem returns_iff_of_not_skips {s : Text} (hs : skips s = false) :
    (∃ n r, parseFirstField n s = some r ∧ Returns s r) ↔ IsField s := by
  have hrun (n : ℕ) : parseFirstField n s = some (readField (some s)) := by
    rw [parseFirstField, skipLoop_of_not hs]
    rfl
  rw [returns_iff_of_run (fun n => .inr (hrun n)) (hrun 0)]
  obtain _ | ⟨c, _ | ⟨d, t⟩⟩ := s
  · refine ⟨False.elim, ?_⟩
    rintro ⟨c, t, h⟩
    exact nomatch h
  · refine ⟨False.elim, ?_⟩
    rintro ⟨c, t, h⟩
    exact absurd h (by simp)
  · obtain rfl : d = '=' := by simpa [skips] using hs
    exact ⟨fun _ => ⟨c, t, rfl⟩, fun _ => returns_readField List.suffix_rfl⟩

/-- Where the loop finds no line feed, there is no field. -/
theorem returns_of_not_mem {s : Text} (hs : skips s = true) (hlf : '\n' ∉ s) :
    ∃ n r, parseFirstField n s = some r ∧ Returns s r := by
  have hall : s.dropWhile (· != '\n') = [] :=
    List.dropWhile_eq_nil_iff.mpr (bne_of_not_mem hlf)
  refine ⟨1, .null, ?_, noField_of_not_mem hlf hs⟩
  rw [parseFirstField, skipLoop, if_pos hs, indexOfLF, hall]
  rfl

/-- Where it finds one, `=` must stand behind it. -/
theorem returns_iff_of_lf {s u : Text} (hs : skips s = true)
    (hu : s.dropWhile (· != '\n') = '\n' :: u) :
    (∃ n r, parseFirstField n s = some r ∧ Returns s r) ↔ IsField ('\n' :: u) := by
  have hzero : parseFirstField 0 s = none := by rw [parseFirstField, skipLoop, if_pos hs]; rfl
  have hloop (n : ℕ) : parseFirstField (n + 1) s =
      (skipLoop n (some ('\n' :: u))).map readField := by
    rw [parseFirstField, skipLoop, if_pos hs, indexOfLF, hu]
  cases hagain : skips ('\n' :: u) with
  | true =>
    constructor
    · rintro ⟨n, r, hr, -⟩
      cases n with
      | zero => exact nomatch hzero.symm.trans hr
      | succ n =>
        rw [hloop, skipLoop_lf hagain] at hr
        exact nomatch hr
    · rintro ⟨c, t, h⟩
      rw [h] at hagain
      exact absurd hagain (by simp [skips])
  | false =>
    have hstop (n : ℕ) : parseFirstField (n + 1) s = some (readField (some ('\n' :: u))) := by
      rw [hloop, skipLoop_of_not hagain]
      rfl
    have hrun (n : ℕ) : parseFirstField n s = none ∨
        parseFirstField n s = some (readField (some ('\n' :: u))) := by
      cases n with
      | zero => exact .inl hzero
      | succ n => exact .inr (hstop n)
    rw [returns_iff_of_run hrun (hstop 0)]
    obtain _ | ⟨e, u⟩ := u
    · -- the line feed is the last character
      refine ⟨False.elim, ?_⟩
      rintro ⟨c, t, h⟩
      exact absurd h (by simp)
    · obtain rfl : e = '=' := by simpa [skips] using hagain
      exact ⟨fun _ => ⟨'\n', u, rfl⟩,
        fun _ => returns_readField (hu ▸ List.dropWhile_suffix _)⟩

end Returns

/-- **The method returns, and returns what it should, if and only if** there are two characters left,
and the second one is `=`, or there is no line feed, or `=` stands behind the first line feed. -/
theorem returns_iff (str : Text) (index : ℕ) :
    (∃ n r, parseFirstField n (str.drop index) = some r ∧ Returns (str.drop index) r) ↔
      ∃ c d t, str.drop index = c :: d :: t ∧
        (d = '=' ∨ '\n' ∉ str.drop index ∨
          IsField ((str.drop index).dropWhile (· != '\n'))) := by
  generalize str.drop index = s
  by_cases hs : skips s = true
  · obtain ⟨c, d, t, rfl, hd⟩ := of_skips hs
    have hcases : (∃ c' d' t', c :: d :: t = c' :: d' :: t' ∧ (d' = '=' ∨
        '\n' ∉ c :: d :: t ∨ IsField ((c :: d :: t).dropWhile (· != '\n')))) ↔
          '\n' ∉ c :: d :: t ∨ IsField ((c :: d :: t).dropWhile (· != '\n')) := by
      constructor
      · rintro ⟨c', d', t', heq, h⟩
        obtain ⟨rfl, rfl, rfl⟩ : c = c' ∧ d = d' ∧ t = t' := by simpa using heq
        exact h.resolve_left hd
      · intro h
        exact ⟨c, d, t, rfl, .inr h⟩
    rw [hcases]
    by_cases hlf : '\n' ∈ c :: d :: t
    · obtain ⟨u, hu⟩ := goTo_of_mem hlf
      rw [goTo] at hu
      rw [returns_iff_of_lf hs hu, or_iff_right (not_not.mpr hlf), hu]
    · exact ⟨fun _ => .inl hlf, fun _ => returns_of_not_mem hs hlf⟩
  · rw [returns_iff_of_not_skips (by simpa using hs)]
    constructor
    · rintro ⟨c, t, rfl⟩
      exact ⟨c, '=', t, rfl, .inl rfl⟩
    · rintro ⟨c, d, t, rfl, -⟩
      exact ⟨c, t, by simpa [skips] using hs⟩

/-- Two lines, and the first one is no field. -/
def malformed : Text := ['x', 'y', '\n', 'm', '=', 'a']

/-- **No number of steps is enough.** -/
theorem parseFirstField_loops :
    ¬∃ n r, parseFirstField n malformed = some r ∧ Returns malformed r := by
  rintro ⟨n, r, hr, -⟩
  have hagain : skips ['\n', 'm', '=', 'a'] = true := by decide
  cases n with
  | zero => exact nomatch hr
  | succ n =>
    change (skipLoop n (some ['\n', 'm', '=', 'a'])).map readField = some r at hr
    rw [skipLoop_lf hagain] at hr
    exact nomatch hr

end SdpParser
end SoftPhone
