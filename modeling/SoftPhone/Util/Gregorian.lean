import Mathlib.Algebra.Order.BigOperators.Group.List
import Mathlib.Algebra.Order.Group.Int
import Mathlib.Algebra.Ring.Int.Defs
import Mathlib.Data.Int.Notation
import Mathlib.Data.List.GetD
import Mathlib.Tactic.Common

/-!
# The Gregorian calendar

Days are counted from 1 January of the year 1, also backwards, and months from zero.  `dayNumber` is
the number of a date, and `yearOf`, `monthOf` and `dayOf` are the date of a number; they are inverse
to each other (`dayNumber_dateOf`, `dateOf_dayNumber`).
-/

namespace Gregorian

/-! ## Years -/

/-- 29 February, if there is one. -/
def leapDay (year : ℤ) : ℤ :=
  if year % 4 = 0 ∧ (year % 100 ≠ 0 ∨ year % 400 = 0) then 1 else 0

/-- How many days lie before the year. -/
def daysBeforeYear (year : ℤ) : ℤ :=
  365 * (year - 1) + (year - 1) / 4 - (year - 1) / 100 + (year - 1) / 400

theorem leapDay_cases (year : ℤ) : leapDay year = 0 ∨ leapDay year = 1 := by
  unfold leapDay
  split
  · exact .inr rfl
  · exact .inl rfl

theorem daysBeforeYear_succ (year : ℤ) :
    daysBeforeYear (year + 1) = daysBeforeYear year + (365 + leapDay year) := by
  unfold daysBeforeYear leapDay
  split <;> omega

/-- A year ends before a later one begins. -/
theorem daysBeforeYear_le {y z : ℤ} (h : y < z) : daysBeforeYear (y + 1) ≤ daysBeforeYear z := by
  unfold daysBeforeYear
  omega

/-- The year of a day: the mean length of a year is 146097 / 400 days, so the guess is off by one
at most. -/
def yearOf (n : ℤ) : ℤ :=
  let guess := n * 400 / 146097 + 1
  if n < daysBeforeYear guess then guess - 1
  else if daysBeforeYear (guess + 1) ≤ n then guess + 1
  else guess

theorem yearOf_spec (n : ℤ) :
    daysBeforeYear (yearOf n) ≤ n ∧ n < daysBeforeYear (yearOf n + 1) := by
  have hlower : daysBeforeYear (n * 400 / 146097) ≤ n := by
    unfold daysBeforeYear
    omega
  have hupper : n < daysBeforeYear (n * 400 / 146097 + 3) := by
    unfold daysBeforeYear
    omega
  unfold yearOf
  dsimp only
  split
  · next h =>
    rw [Int.add_sub_cancel]
    exact ⟨hlower, h⟩
  · next h =>
    split
    · next h' =>
      refine ⟨h', ?_⟩
      rwa [Int.add_assoc, Int.add_assoc]
    · next h' => exact ⟨Int.not_lt.mp h, Int.not_le.mp h'⟩

/-- The year of a day is the only one that it lies in. -/
theorem yearOf_eq {n year : ℤ} (hlower : daysBeforeYear year ≤ n)
    (hupper : n < daysBeforeYear (year + 1)) : yearOf n = year := by
  obtain ⟨hl, hu⟩ := yearOf_spec n
  rcases Int.lt_trichotomy (yearOf n) year with h | h | h
  · have hle := daysBeforeYear_le h
    omega
  · exact h
  · have hle := daysBeforeYear_le h
    omega

/-! ## Months -/

/-- In runs of the given lengths, one behind the other: the run that the position lies in, and the
position in it. -/
def locate : List ℤ → ℤ → ℕ × ℤ
  | [], k => (0, k)
  | l :: ls, k =>
    if k < l then (0, k)
    else
      let p := locate ls (k - l)
      (p.1 + 1, p.2)

/-- A position lies in one of the runs. -/
theorem locate_spec {ls : List ℤ} {k : ℤ} (hk : 0 ≤ k ∧ k < ls.sum) :
    (ls.take (locate ls k).1).sum + (locate ls k).2 = k ∧ 0 ≤ (locate ls k).2 ∧
      (locate ls k).2 < ls.getD (locate ls k).1 0 := by
  induction ls generalizing k with
  | nil =>
    rw [List.sum_nil] at hk
    omega
  | cons l ls ih =>
    rw [List.sum_cons] at hk
    unfold locate
    split
    · next h => exact ⟨Int.zero_add k, hk.1, h⟩
    · next h =>
      obtain ⟨hsum, hpos, hlt⟩ := ih (k := k - l) (by omega)
      refine ⟨?_, hpos, hlt⟩
      rw [List.take_succ_cons, List.sum_cons]
      dsimp only
      omega

/-- A position in a run is located there. -/
theorem locate_eq {ls : List ℤ} (hls : ∀ l ∈ ls, 0 ≤ l) {i : ℕ} {k : ℤ}
    (hk : 0 ≤ k ∧ k < ls.getD i 0) : locate ls ((ls.take i).sum + k) = (i, k) := by
  induction ls generalizing i with
  | nil =>
    rw [List.getD_nil] at hk
    omega
  | cons l ls ih =>
    unfold locate
    cases i with
    | zero =>
      rw [List.getD_cons_zero] at hk
      rw [List.take_zero, List.sum_nil, Int.zero_add, if_pos hk.2]
    | succ i =>
      rw [List.getD_cons_succ] at hk
      have hpos : 0 ≤ (ls.take i).sum :=
        List.sum_nonneg fun l hl => hls l (List.mem_cons_of_mem _ (List.mem_of_mem_take hl))
      have hsub : l + (ls.take i).sum + k - l = (ls.take i).sum + k := by omega
      rw [List.take_succ_cons, List.sum_cons, if_neg (by omega), hsub,
        ih (fun l hl => hls l (List.mem_cons_of_mem _ hl)) hk]

/-- A run ends before the end of all runs. -/
theorem sum_take_add_le {ls : List ℤ} (hls : ∀ l ∈ ls, 0 ≤ l) (i : ℕ) :
    0 ≤ (ls.take i).sum ∧ (ls.take i).sum + ls.getD i 0 ≤ ls.sum := by
  induction ls generalizing i with
  | nil => simp
  | cons l ls ih =>
    have hl := hls l List.mem_cons_self
    have ih := ih fun l hl => hls l (List.mem_cons_of_mem _ hl)
    cases i with
    | zero =>
      have hsum := List.sum_nonneg fun l hl => hls l (List.mem_cons_of_mem _ hl)
      rw [List.take_zero, List.sum_nil, List.getD_cons_zero, List.sum_cons]
      omega
    | succ i =>
      have hi := ih i
      rw [List.take_succ_cons, List.sum_cons, List.getD_cons_succ, List.sum_cons]
      omega

/-- The lengths of the months, in a year with `leap` leap days. -/
def monthLengths (leap : ℤ) : List ℤ := [31, 28 + leap, 31, 30, 31, 30, 31, 31, 30, 31, 30, 31]

theorem sum_monthLengths (leap : ℤ) : (monthLengths leap).sum = 365 + leap := by
  simp only [monthLengths, List.sum_cons, List.sum_nil]
  omega

theorem monthLengths_bounds {leap : ℤ} (hleap : leap = 0 ∨ leap = 1) :
    ∀ l ∈ monthLengths leap, 0 ≤ l ∧ l ≤ 31 := by
  rcases hleap with rfl | rfl
  · decide
  · decide

/-! ## Dates -/

/-- A day of the calendar. -/
def IsDate (year : ℤ) (month : ℕ) (day : ℤ) : Prop :=
  1 ≤ day ∧ day ≤ (monthLengths (leapDay year)).getD month 0

theorem IsDate.bounds {year : ℤ} {month : ℕ} {day : ℤ} (h : IsDate year month day) :
    month < 12 ∧ 1 ≤ day ∧ day ≤ 31 := by
  have hmonth : month < (monthLengths (leapDay year)).length := by
    by_contra hnot
    have hle := h.2
    rw [List.getD_eq_default _ _ (Nat.le_of_not_lt hnot)] at hle
    have hone := h.1
    omega
  have hle := h.2
  rw [List.getD_eq_getElem _ _ hmonth] at hle
  have hbound := (monthLengths_bounds (leapDay_cases year) _ (List.getElem_mem hmonth)).2
  exact ⟨hmonth, h.1, by omega⟩

/-- The number of a date. -/
def dayNumber (year : ℤ) (month : ℕ) (day : ℤ) : ℤ :=
  daysBeforeYear year + (((monthLengths (leapDay year)).take month).sum + (day - 1))

/-- Month and day, both from zero, of a day. -/
def inYear (n : ℤ) : ℕ × ℤ :=
  locate (monthLengths (leapDay (yearOf n))) (n - daysBeforeYear (yearOf n))

/-- The month of a day. -/
def monthOf (n : ℤ) : ℕ := (inYear n).1

/-- The day of the month. -/
def dayOf (n : ℤ) : ℤ := (inYear n).2 + 1

theorem inYear_spec (n : ℤ) :
    ((monthLengths (leapDay (yearOf n))).take (inYear n).1).sum + (inYear n).2 =
        n - daysBeforeYear (yearOf n) ∧
      0 ≤ (inYear n).2 ∧
        (inYear n).2 < (monthLengths (leapDay (yearOf n))).getD (inYear n).1 0 := by
  have hspec := yearOf_spec n
  rw [daysBeforeYear_succ] at hspec
  refine locate_spec ⟨by omega, ?_⟩
  rw [sum_monthLengths]
  omega

/-- **Every day has a date.** -/
theorem isDate_dateOf (n : ℤ) : IsDate (yearOf n) (monthOf n) (dayOf n) := by
  obtain ⟨-, hpos, hlt⟩ := inYear_spec n
  unfold IsDate dayOf monthOf
  omega

/-- **A day is the one of its date.** -/
theorem dayNumber_dateOf (n : ℤ) : dayNumber (yearOf n) (monthOf n) (dayOf n) = n := by
  obtain ⟨hsum, -⟩ := inYear_spec n
  unfold dayNumber dayOf monthOf
  omega

/-- **A date is the one of its day.** -/
theorem dateOf_dayNumber {year : ℤ} {month : ℕ} {day : ℤ} (h : IsDate year month day) :
    yearOf (dayNumber year month day) = year ∧ monthOf (dayNumber year month day) = month ∧
      dayOf (dayNumber year month day) = day := by
  have hbounds := monthLengths_bounds (leapDay_cases year)
  set before := ((monthLengths (leapDay year)).take month).sum with hbefore
  have hnumber : dayNumber year month day = daysBeforeYear year + (before + (day - 1)) := rfl
  obtain ⟨hpos, hsum⟩ := sum_take_add_le (fun l hl => (hbounds l hl).1) month
  rw [sum_monthLengths] at hsum
  have hyear : yearOf (dayNumber year month day) = year := by
    obtain ⟨hlower, hupper⟩ := h
    refine yearOf_eq ?_ ?_
    · omega
    · rw [daysBeforeYear_succ]
      omega
  have hin : inYear (dayNumber year month day) = (month, day - 1) := by
    have hsub : dayNumber year month day - daysBeforeYear year = before + (day - 1) := by omega
    unfold inYear
    rw [hyear, hsub]
    exact locate_eq (fun l hl => (hbounds l hl).1) ⟨by have := h.1; omega, by have := h.2; omega⟩
  unfold monthOf dayOf
  rw [hyear, hin]
  exact ⟨rfl, rfl, Int.sub_add_cancel ..⟩

end Gregorian
