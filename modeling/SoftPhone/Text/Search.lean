import SoftPhone.Text.Parser

/-!
# Searching in a text

`String.indexOf`, and the methods of `Parser` that search ignoring case.  A parser is a string and a
position in it.

`startsWithIgnoreCase` compares as many characters as there are, so where the text ends within a
pattern (`CutOffAt`), this counts as the pattern.

* `startsWithAnyIgnoreCase_iff`: what it takes for a pattern.
* `indexOfAnyIgnoreCase_spec`: the position that is found is the first one of these.
* `reports_iff`: it is the first one where a whole pattern is, if and only if no text is cut off
  before that.
-/

namespace SoftPhone
namespace TextSearch

/-! ## `String.indexOf` -/

/-- `str.indexOf(c,start)`. -/
def indexOf (str : Text) (c : Char) (start : ℕ) : ℤ :=
  match (str.drop start).idxOf? c with
  | none => -1
  | some i => start + i

theorem indexOf_of_not_mem {str : Text} {c : Char} {start : ℕ} (h : c ∉ str.drop start) :
    indexOf str c start = -1 := by
  rw [indexOf, List.idxOf?_eq_none_iff.mpr h]

/-- The first one behind some other characters. -/
theorem indexOf_append {before between after : Text} {c : Char} (h : c ∉ between) :
    indexOf (before ++ (between ++ c :: after)) c before.length =
      (before.length + between.length : ℕ) := by
  have hidx : (between ++ c :: after).idxOf? c = some between.length := by
    have hlt : between.length < (between ++ c :: after).length := by
      rw [List.length_append, List.length_cons]
      omega
    refine List.idxOf?_eq_some_iff.mpr ⟨hlt, List.getElem_of_append rfl rfl, fun j hj hc => h ?_⟩
    rw [List.getElem_append_left hj] at hc
    exact hc ▸ List.getElem_mem hj
  rw [indexOf, List.drop_left, hidx]
  rfl

/-- The first one of the text. -/
theorem indexOf_zero {before after : Text} {c : Char} (h : c ∉ before) :
    indexOf (before ++ c :: after) c 0 = before.length := by
  have happend := @indexOf_append [] before after c h
  rw [List.nil_append, List.length_nil, Nat.zero_add] at happend
  exact happend

theorem indexOf_nonneg_iff {str : Text} {c : Char} : 0 ≤ indexOf str c 0 ↔ c ∈ str := by
  constructor
  · intro h
    by_contra hmem
    rw [indexOf_of_not_mem (by rwa [List.drop_zero])] at h
    omega
  · intro h
    obtain ⟨before, after, rfl, hbefore⟩ := List.eq_append_cons_of_mem h
    rw [indexOf_zero hbefore]
    exact Int.natCast_nonneg _

/-! ## Ignoring case -/

/-- `isUpAlpha`. -/
def isUpAlpha (c : Char) : Bool := 'A' ≤ c && c ≤ 'Z'

/-- `compareIgnoreCase(c1,c2)`. -/
def compareIgnoreCase (c1 c2 : Char) : ℤ :=
  let c1 := if isUpAlpha c1 then c1.toNat + 32 else c1.toNat
  let c2 := if isUpAlpha c2 then c2.toNat + 32 else c2.toNat
  (c1 : ℤ) - c2

/-- The loop of `startsWithIgnoreCase`, with what is left of the pattern and of the text. -/
def agree : Text → Text → Bool
  | c :: s, d :: str => if compareIgnoreCase c d ≠ 0 then false else agree s str
  | _, _ => true

/-- `startsWithIgnoreCase(s)`. -/
def startsWithIgnoreCase (str : Text) (index : ℕ) (s : Text) : Bool := agree s (str.drop index)

/-- `startsWithIgnoreCase(ss)`. -/
def startsWithAnyIgnoreCase (str : Text) (index : ℕ) (ss : List Text) : Bool :=
  ss.any fun s => agree s (str.drop index)

/-- The loop of `indexOfIgnoreCase`, with what is left of the text. -/
def search (found : Text → Bool) : Text → ℤ → ℤ
  | [], _ => -1
  | c :: str, index => if found (c :: str) then index else search found str (index + 1)

/-- `indexOfIgnoreCase(s)`. -/
def indexOfIgnoreCase (str : Text) (index : ℕ) (s : Text) : ℤ :=
  search (agree s) (str.drop index) index

/-- `indexOfIgnoreCase(ss)`. -/
def indexOfAnyIgnoreCase (str : Text) (index : ℕ) (ss : List Text) : ℤ :=
  search (fun rest => ss.any fun s => agree s rest) (str.drop index) index

/-! ## What the loops compute -/

/-- A text in lower case. -/
def fold (s : Text) : Text := s.map Char.toLower

theorem toNat_toLower (c : Char) :
    c.toLower.toNat = if isUpAlpha c then c.toNat + 32 else c.toNat := by
  by_cases h : c.val ≥ 'A'.val ∧ c.val ≤ 'Z'.val
  · have hup : isUpAlpha c = true := by
      rw [isUpAlpha, Bool.and_eq_true, decide_eq_true_eq, decide_eq_true_eq]
      exact h
    have hle : c.val.toNat ≤ 90 := UInt32.le_iff_toNat_le.mp h.2
    have hsub : ('a'.val - 'A'.val).toNat = 32 := rfl
    have hlower : c.toLower.val = c.val + ('a'.val - 'A'.val) := congrArg Char.val (dif_pos h)
    rw [if_pos hup]
    show c.toLower.val.toNat = c.val.toNat + 32
    rw [hlower, UInt32.toNat_add, hsub]
    omega
  · have hup : isUpAlpha c = false := by
      rw [← Bool.not_eq_true, isUpAlpha, Bool.and_eq_true, decide_eq_true_eq, decide_eq_true_eq]
      exact h
    have hlower : c.toLower = c := dif_neg h
    rw [hup, hlower]
    rfl

theorem compareIgnoreCase_eq_zero (c d : Char) :
    compareIgnoreCase c d = 0 ↔ c.toLower = d.toLower := by
  rw [← Char.toNat_inj, toNat_toLower, toNat_toLower, compareIgnoreCase, Int.sub_eq_zero,
    Int.natCast_inj]

/-- **The loop compares as many characters as both texts have.** -/
theorem agree_iff_fold {s str : Text} :
    agree s str = true ↔ fold s <+: fold str ∨ fold str <+: fold s := by
  induction s generalizing str with
  | nil =>
    have hagree : agree [] str = true := by
      cases str with
      | nil => rfl
      | cons d str => rfl
    exact iff_of_true hagree (.inl List.nil_prefix)
  | cons c s ih =>
    cases str with
    | nil => exact iff_of_true rfl (.inr List.nil_prefix)
    | cons d str =>
      rw [agree, fold, fold, List.map_cons, List.map_cons, List.cons_prefix_cons,
        List.cons_prefix_cons, ← fold, ← fold]
      by_cases hcd : compareIgnoreCase c d = 0
      · have heq := (compareIgnoreCase_eq_zero c d).mp hcd
        rw [if_neg (not_not_intro hcd), ih]
        exact or_congr (and_iff_right heq).symm (and_iff_right heq.symm).symm
      · have hne := (compareIgnoreCase_eq_zero c d).not.mp hcd
        rw [if_pos hcd]
        refine iff_of_false Bool.false_ne_true ?_
        rintro (⟨heq, -⟩ | ⟨heq, -⟩)
        · exact hne heq
        · exact hne heq.symm

/-- The whole pattern is in the text at a position, up to upper and lower case. -/
def OccursAt (s str : Text) (i : ℕ) : Prop := fold s <+: fold (str.drop i)

/-- The text ends within the pattern. -/
def CutOffAt (s str : Text) (i : ℕ) : Prop :=
  (str.drop i).length < s.length ∧ fold (str.drop i) <+: fold s

theorem length_fold (s : Text) : (fold s).length = s.length := List.length_map ..

theorem agree_drop_iff {s str : Text} {i : ℕ} :
    agree s (str.drop i) = true ↔ OccursAt s str i ∨ CutOffAt s str i := by
  rw [agree_iff_fold]
  constructor
  · rintro (h | h)
    · exact .inl h
    · rcases Nat.lt_or_ge (str.drop i).length s.length with hlt | hge
      · exact .inr ⟨hlt, h⟩
      · have heq := h.eq_of_length_le (by rwa [length_fold, length_fold])
        rw [OccursAt, heq]
        exact .inl List.prefix_rfl
  · exact Or.imp_right And.right

theorem CutOffAt.not_occursAt {s str : Text} {i : ℕ} (h : CutOffAt s str i) : ¬OccursAt s str i := by
  intro hoccurs
  have hle := hoccurs.length_le
  rw [length_fold, length_fold] at hle
  exact absurd h.1 (Nat.not_lt.mpr hle)

theorem OccursAt.lt_length {s str : Text} {i : ℕ} (h : OccursAt s str i) (hne : s ≠ []) :
    i < str.length := by
  have hle := h.length_le
  have hpos := List.length_pos_iff.mpr hne
  rw [length_fold, length_fold, List.length_drop] at hle
  omega

/-! ## The start -/

/-- What `startsWithIgnoreCase` takes for one of the patterns. -/
theorem startsWithAnyIgnoreCase_iff {str : Text} {index : ℕ} {ss : List Text} :
    startsWithAnyIgnoreCase str index ss = true ↔
      ∃ s ∈ ss, OccursAt s str index ∨ CutOffAt s str index := by
  rw [startsWithAnyIgnoreCase, List.any_eq_true]
  exact exists_congr fun s => and_congr_right fun _ => agree_drop_iff

theorem startsWith_exact_iff {str s : Text} {index : ℕ} :
    (startsWithIgnoreCase str index s = true ↔ OccursAt s str index) ↔ ¬CutOffAt s str index := by
  rw [startsWithIgnoreCase, agree_drop_iff]
  constructor
  · exact fun h hcut => hcut.not_occursAt (h.mp (.inr hcut))
  · exact fun hcut => or_iff_left hcut

theorem startsWithAny_exact_iff {str : Text} {index : ℕ} {ss : List Text} :
    (startsWithAnyIgnoreCase str index ss = true ↔ ∃ s ∈ ss, OccursAt s str index) ↔
      ((∃ s ∈ ss, CutOffAt s str index) → ∃ s ∈ ss, OccursAt s str index) := by
  rw [startsWithAnyIgnoreCase_iff]
  constructor
  · rintro h ⟨s, hs, hcut⟩
    exact h.mp ⟨s, hs, .inr hcut⟩
  · intro h
    constructor
    · rintro ⟨s, hs, hoccurs | hcut⟩
      · exact ⟨s, hs, hoccurs⟩
      · exact h ⟨s, hs, hcut⟩
    · rintro ⟨s, hs, hoccurs⟩
      exact ⟨s, hs, .inl hoccurs⟩

/-! ## The first position -/

/-- **The position that the loop returns is the first one that it takes.** -/
theorem search_spec (found : Text → Bool) (str : Text) (index : ℕ) :
    (search found str index = -1 ∧ ∀ i < str.length, found (str.drop i) = false) ∨
      ∃ i < str.length, search found str index = (index + i : ℕ) ∧ found (str.drop i) = true ∧
        ∀ j < i, found (str.drop j) = false := by
  induction str generalizing index with
  | nil => exact .inl ⟨rfl, fun i hi => absurd hi (Nat.not_lt_zero i)⟩
  | cons c str ih =>
    rw [search]
    by_cases hfound : found (c :: str) = true
    · rw [if_pos hfound]
      exact .inr ⟨0, Nat.succ_pos _, rfl, hfound, fun j hj => absurd hj (Nat.not_lt_zero j)⟩
    · rw [if_neg hfound]
      rw [Bool.not_eq_true] at hfound
      have hzero {i : ℕ} (h : ∀ j < i, found (str.drop j) = false) :
          ∀ j < i + 1, found ((c :: str).drop j) = false := by
        intro j hj
        cases j with
        | zero => exact hfound
        | succ j => exact h j (Nat.lt_of_succ_lt_succ hj)
      rcases ih (index + 1) with ⟨hnone, hall⟩ | ⟨i, hi, hsome, hfoundi, hbefore⟩
      · exact .inl ⟨hnone, hzero hall⟩
      · refine .inr ⟨i + 1, Nat.succ_lt_succ hi, hsome.trans ?_, hfoundi, hzero hbefore⟩
        rw [Nat.add_assoc, Nat.add_comm 1 i]

/-- What is right to report: the first position where one of the patterns is, or -1. -/
def Reports (ss : List Text) (str : Text) (index : ℕ) (r : ℤ) : Prop :=
  (r = -1 ∧ ∀ i, index ≤ i → ∀ s ∈ ss, ¬OccursAt s str i) ∨
    ∃ i : ℕ, r = i ∧ index ≤ i ∧ (∃ s ∈ ss, OccursAt s str i) ∧
      ∀ j, index ≤ j → j < i → ∀ s ∈ ss, ¬OccursAt s str j

/-- Wherever the text ends within one of the patterns, one of them has been as a whole before; and
if there is an empty one, there is text to search. -/
def Uncut (ss : List Text) (str : Text) (index : ℕ) : Prop :=
  ([] ∈ ss → index < str.length) ∧
    ∀ j, index ≤ j → j < str.length → (∃ s ∈ ss, CutOffAt s str j) →
      ∃ i, index ≤ i ∧ i ≤ j ∧ ∃ s ∈ ss, OccursAt s str i

/-- **The position that is found is the first one where a pattern is or is cut off.** -/
theorem indexOfAnyIgnoreCase_spec (str : Text) (index : ℕ) (ss : List Text) :
    (indexOfAnyIgnoreCase str index ss = -1 ∧ ∀ i, index ≤ i → i < str.length → ∀ s ∈ ss,
        ¬(OccursAt s str i ∨ CutOffAt s str i)) ∨
      ∃ i : ℕ, indexOfAnyIgnoreCase str index ss = i ∧ index ≤ i ∧ i < str.length ∧
        (∃ s ∈ ss, OccursAt s str i ∨ CutOffAt s str i) ∧
        ∀ j, index ≤ j → j < i → ∀ s ∈ ss, ¬(OccursAt s str j ∨ CutOffAt s str j) := by
  have htrue {i : ℕ} : (ss.any fun s => agree s ((str.drop index).drop i)) = true ↔
      ∃ s ∈ ss, OccursAt s str (index + i) ∨ CutOffAt s str (index + i) := by
    rw [List.drop_drop, List.any_eq_true]
    exact exists_congr fun s => and_congr_right fun _ => agree_drop_iff
  have hfalse {i : ℕ} (h : (ss.any fun s => agree s ((str.drop index).drop i)) = false) :
      ∀ s ∈ ss, ¬(OccursAt s str (index + i) ∨ CutOffAt s str (index + i)) := by
    intro s hs hmatch
    exact Bool.false_ne_true (h.symm.trans (htrue.mpr ⟨s, hs, hmatch⟩))
  rcases search_spec (fun rest => ss.any fun s => agree s rest) (str.drop index) index with
    ⟨hnone, hall⟩ | ⟨i, hi, hsome, hfound, hbefore⟩
  · refine .inl ⟨hnone, fun i hle hi => ?_⟩
    obtain ⟨d, rfl⟩ := Nat.exists_eq_add_of_le hle
    exact hfalse (hall d (by rw [List.length_drop]; omega))
  · rw [List.length_drop] at hi
    refine .inr ⟨index + i, hsome, Nat.le_add_right index i, by omega, htrue.mp hfound, ?_⟩
    intro j hle hj
    obtain ⟨d, rfl⟩ := Nat.exists_eq_add_of_le hle
    exact hfalse (hbefore d (by omega))

theorem occursAt_nil (str : Text) (i : ℕ) : OccursAt [] str i := List.nil_prefix

/-- **It is the first whole pattern that is found, if and only if no text is cut off before.** -/
theorem reports_iff (str : Text) (index : ℕ) (ss : List Text) :
    Reports ss str index (indexOfAnyIgnoreCase str index ss) ↔ Uncut ss str index := by
  rcases indexOfAnyIgnoreCase_spec str index ss with
    ⟨hnone, hall⟩ | ⟨i, hsome, hle, hlt, ⟨s, hs, hmatch⟩, hbefore⟩
  · rw [hnone]
    constructor
    · rintro (⟨-, hnever⟩ | ⟨i, hi, -⟩)
      · constructor
        · exact fun hnil => absurd (occursAt_nil str index) (hnever index le_rfl [] hnil)
        · exact fun j hle hlt ⟨s, hs, hcut⟩ => absurd (.inr hcut) (hall j hle hlt s hs)
      · omega
    · rintro ⟨hnil, -⟩
      refine .inl ⟨rfl, fun i hle s hs hoccurs => ?_⟩
      by_cases hi : i < str.length
      · exact hall i hle hi s hs (.inl hoccurs)
      · have hs' : s = [] := by
          by_contra hne
          exact hi (hoccurs.lt_length hne)
        have hmem : [] ∈ ss := hs' ▸ hs
        exact hall index le_rfl (hnil hmem) [] hmem (.inl (occursAt_nil str index))
  · rw [hsome]
    constructor
    · rintro (⟨hnone, -⟩ | ⟨i', hi', -, hoccurs, -⟩)
      · omega
      · obtain rfl := Int.natCast_inj.mp hi'
        refine ⟨fun _ => hle.trans_lt hlt, fun j hlej hltj ⟨s', hs', hcut⟩ => ⟨i, hle, ?_, hoccurs⟩⟩
        by_contra hij
        exact hbefore j hlej (Nat.not_le.mp hij) s' hs' (.inr hcut)
    · rintro ⟨-, huncut⟩
      have hfirst : ∀ j, index ≤ j → j < i → ∀ s' ∈ ss, ¬OccursAt s' str j :=
        fun j hlej hj s' hs' hoccurs => hbefore j hlej hj s' hs' (.inl hoccurs)
      refine .inr ⟨i, rfl, hle, ?_, hfirst⟩
      rcases hmatch with hoccurs | hcut
      · exact ⟨s, hs, hoccurs⟩
      · obtain ⟨i', hle', hi', s', hs', hoccurs⟩ := huncut i hle hlt ⟨s, hs, hcut⟩
        rcases Nat.lt_or_eq_of_le hi' with hlt' | rfl
        · exact absurd (.inl hoccurs) (hbefore i' hle' hlt' s' hs')
        · exact ⟨s', hs', hoccurs⟩

/-- A single pattern. -/
theorem indexOfIgnoreCase_eq (str : Text) (index : ℕ) (s : Text) :
    indexOfIgnoreCase str index s = indexOfAnyIgnoreCase str index [s] := by
  have hany : agree s = fun rest => [s].any fun s => agree s rest := by
    funext rest
    rw [List.any_cons, List.any_nil, Bool.or_false]
  rw [indexOfIgnoreCase, indexOfAnyIgnoreCase, ← hany]

end TextSearch
end SoftPhone
