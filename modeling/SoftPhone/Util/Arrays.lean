import Mathlib.Data.Int.Notation
import SoftPhone.Util.Words

/-!
# Arrays with checked indices

Arrays are lists.  The index of an access is an `int`, and an access outside the array throws: it
gives `none`.  `loadAll` and `storeAll` are the loops that copy some entries one by one.
-/

namespace SoftPhone
namespace Arrays

open Words

/-- A sum of `int`s. -/
def int32 (x : ℤ) : ℤ := Int.bmod x (2 ^ 32)

theorem int32_of_lt {x : ℤ} (h : -2 ^ 31 ≤ x) (hlt : x < 2 ^ 31) : int32 x = x :=
  Int.bmod_eq_of_le (by omega) (by omega)

theorem int32_lt (x : ℤ) : int32 x < 2 ^ 31 := by
  have hlt := Int.bmod_lt (x := x) (m := 2 ^ 32) (by decide)
  rw [int32]
  omega

theorem int32_le {x : ℤ} (h : -2 ^ 31 ≤ x) : int32 x ≤ x := by
  rw [int32, Int.bmod_def]
  split <;> omega

/-- A sum that is too large wraps around. -/
theorem int32_le_sub {x : ℤ} (h : 2 ^ 31 ≤ x) : int32 x ≤ x - 2 ^ 32 := by
  rw [int32, Int.bmod_def]
  split <;> omega

theorem int32_add (x y : ℤ) : int32 (int32 x + y) = int32 (x + y) := Int.bmod_add_bmod

variable {α : Type*} {l l' : List α} {i : ℤ} {a : α} {n k : ℕ}

/-- The entry at an index; `none` when it is out of bounds. -/
def load (l : List α) (i : ℤ) : Option α := if 0 ≤ i then l[i.toNat]? else none

/-- The array after an assignment; `none` when the index is out of bounds. -/
def store (l : List α) (i : ℤ) (a : α) : Option (List α) :=
  if 0 ≤ i ∧ i < l.length then some (l.set i.toNat a) else none

theorem load_natCast (h : n < l.length) : load l n = some l[n] := by
  rw [load, if_pos (Int.natCast_nonneg n), Int.toNat_natCast, List.getElem?_eq_getElem h]

theorem store_natCast (h : n < l.length) : store l n a = some (l.set n a) := by
  rw [store, if_pos ⟨Int.natCast_nonneg n, by omega⟩, Int.toNat_natCast]

theorem store_eq_some (h : store l i a = some l') : i < l.length ∧ l'.length = l.length := by
  rw [store] at h
  split at h
  · next hi => exact ⟨hi.2, Option.some.inj h ▸ List.length_set⟩
  · nomatch h

/-- `k` entries from an index on. -/
def loadAll (l : List α) : ℕ → ℤ → Option (List α)
  | 0, _ => some []
  | k + 1, i => (load l i).bind fun a => (loadAll l k (i + 1)).map (a :: ·)

theorem loadAll_natCast (h : n + k ≤ l.length) : loadAll l k n = some (slice l n k) := by
  induction k generalizing n with
  | zero => rw [loadAll, slice_zero]
  | succ k ih =>
    have hlt : n < l.length := by omega
    have ih := ih (n := n + 1) (by omega)
    rw [loadAll, load_natCast hlt, Option.bind_some, slice_succ hlt]
    exact congrArg (Option.map (l[n] :: ·)) ih

/-- The entries of a list are stored from an index on. -/
def storeAll (l : List α) : ℤ → List α → Option (List α)
  | _, [] => some l
  | i, a :: as => (store l i a).bind fun l => storeAll l (i + 1) as

theorem storeAll_natCast {as : List α} (h : n + as.length ≤ l.length) :
    storeAll l n as = some (splice l n as) := by
  induction as generalizing l n with
  | nil => rw [storeAll, splice_nil]
  | cons a as ih =>
    rw [List.length_cons] at h
    have hlt : n < l.length := by omega
    have ih := ih (l := l.set n a) (n := n + 1) (by rw [List.length_set]; omega)
    have hsplice := splice_splice (l := [a]) (m := as) hlt.le
    rw [splice_singleton hlt, List.length_singleton, List.singleton_append] at hsplice
    rw [storeAll, store_natCast hlt, Option.bind_some, ← hsplice]
    exact ih

/-- The whole array is overwritten. -/
theorem storeAll_zero {as : List α} (h : as.length = l.length) : storeAll l 0 as = some as := by
  have hstore : storeAll l (0 : ℕ) as = some (splice l 0 as) := storeAll_natCast (by omega)
  rw [splice, h, Nat.zero_add, List.take_zero, List.nil_append, List.drop_length,
    List.append_nil] at hstore
  exact hstore

theorem storeAll_length {as : List α} (h : storeAll l i as = some l') :
    l'.length = l.length := by
  induction as generalizing l i with
  | nil => rw [← Option.some_inj.mp h]
  | cons a as ih =>
    obtain ⟨l1, h1, h⟩ := Option.bind_eq_some_iff.mp h
    rw [ih h, (store_eq_some h1).2]

end Arrays
end SoftPhone
