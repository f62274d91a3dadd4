import Mathlib.Data.List.GetD
import Mathlib.Data.Nat.Digits.Lemmas

/-!
# Words in an array of bytes

A part of an array that is overwritten (`splice`), and numbers that are written with the most
significant byte first (`bytes`, `value`).

* `slice_splice`, `slice_splice_before`, `slice_splice_after`: what is written is read, and the rest
  of the array is as it was.
* `splice_splice`, `splice_splice_before`: two parts side by side are one part.
* `value_bytes`: `k` bytes hold a number modulo `256 ^ k`.
-/

namespace SoftPhone
namespace Words

/-! ## Parts of an array -/

section

variable {α : Type*}

/-- The `k` entries from the index `i` on. -/
def slice (data : List α) (i k : ℕ) : List α := (data.drop i).take k

/-- The entries from the index `i` on are those of `l`. -/
def splice (data : List α) (i : ℕ) (l : List α) : List α :=
  data.take i ++ l ++ data.drop (i + l.length)

variable {data l m : List α} {i j k : ℕ}

@[simp] theorem slice_zero : slice data i 0 = [] := List.take_zero

theorem length_slice (h : i + k ≤ data.length) : (slice data i k).length = k := by
  rw [slice, List.length_take, List.length_drop]
  omega

theorem slice_succ (h : i < data.length) : slice data i (k + 1) = data[i] :: slice data (i + 1) k := by
  rw [slice, List.drop_eq_getElem_cons h, List.take_succ_cons, slice]

/-- A part of an array, entry by entry. -/
theorem slice_eq_map (h : i + k ≤ data.length) (d : α) :
    slice data i k = (List.range k).map fun j => data.getD (i + j) d := by
  refine List.ext_getElem? fun j => ?_
  rw [slice, List.getElem?_take, List.getElem?_drop, List.getElem?_map]
  split
  · have hlt : i + j < data.length := by omega
    rw [List.getElem?_range (by omega), Option.map_some, List.getElem?_eq_getElem hlt,
      List.getD_eq_getElem data d hlt]
  · rw [List.getElem?_eq_none (by rw [List.length_range]; omega), Option.map_none]

@[simp] theorem splice_nil : splice data i [] = data := by
  rw [splice, List.append_nil, List.length_nil, Nat.add_zero, List.take_append_drop]

theorem splice_singleton {a : α} (h : i < data.length) : splice data i [a] = data.set i a := by
  rw [List.set_eq_take_append_cons_drop, if_pos h, splice, List.length_singleton,
    List.append_assoc, List.singleton_append]

theorem length_splice (h : i + l.length ≤ data.length) : (splice data i l).length = data.length := by
  rw [splice, List.length_append, List.length_append, List.length_take, List.length_drop]
  omega

theorem slice_splice (h : i ≤ data.length) : slice (splice data i l) i l.length = l := by
  have htake := List.length_take_of_le h
  rw [slice, splice, List.append_assoc, List.drop_left' htake, List.take_left]

/-- A part of what is written. -/
theorem slice_splice_within (hi : i ≤ data.length) (h : j + k ≤ l.length) :
    slice (splice data i l) (i + j) k = slice l j k := by
  have htake := List.length_take_of_le hi
  have hdrop : (splice data i l).drop i = l ++ data.drop (i + l.length) := by
    rw [splice, List.append_assoc, List.drop_left' htake]
  rw [slice, ← List.drop_drop, hdrop, List.drop_append_of_le_length (by omega),
    List.take_append_of_le_length (by rw [List.length_drop]; omega), slice]

theorem slice_splice_before (hi : i ≤ data.length) (h : j + k ≤ i) :
    slice (splice data i l) j k = slice data j k := by
  have htake := List.length_take_of_le hi
  rw [slice, splice, List.append_assoc, List.drop_append_of_le_length (by omega),
    List.take_append_of_le_length (by rw [List.length_drop]; omega), List.drop_take, List.take_take,
    Nat.min_eq_left (by omega), slice]

theorem slice_splice_after (hi : i + l.length ≤ data.length) (h : i + l.length ≤ j) :
    slice (splice data i l) j k = slice data j k := by
  have hlen : (data.take i ++ l).length = i + l.length := by
    rw [List.length_append, List.length_take]
    omega
  obtain ⟨d, rfl⟩ := Nat.exists_eq_add_of_le h
  rw [slice, splice, ← hlen, List.drop_length_add_append, hlen, List.drop_drop, slice]

/-- **The rest of the array is as it was.** -/
theorem slice_splice_of_disjoint (hi : i + l.length ≤ data.length)
    (h : j + k ≤ i ∨ i + l.length ≤ j) : slice (splice data i l) j k = slice data j k :=
  h.elim (slice_splice_before (by omega)) (slice_splice_after hi)

/-- **Two parts side by side, the second one later.** -/
theorem splice_splice (h : i ≤ data.length) :
    splice (splice data i l) (i + l.length) m = splice data i (l ++ m) := by
  have hlen : (data.take i ++ l).length = i + l.length := by
    rw [List.length_append, List.length_take]
    omega
  have htake : (splice data i l).take (i + l.length) = data.take i ++ l := by
    rw [splice, ← hlen, List.take_left]
  have hdrop : (splice data i l).drop (i + l.length + m.length) =
      data.drop (i + l.length + m.length) := by
    rw [splice, ← hlen, List.drop_length_add_append, hlen, List.drop_drop]
  rw [splice, htake, hdrop, splice, List.length_append, List.append_assoc (data.take i),
    Nat.add_assoc]

/-- **Two parts side by side, the first one later.** -/
theorem splice_splice_before (h : i + l.length ≤ data.length) :
    splice (splice data (i + l.length) m) i l = splice data i (l ++ m) := by
  have hlen := List.length_take_of_le h
  have htake : (splice data (i + l.length) m).take i = data.take i := by
    rw [splice, List.append_assoc, List.take_append_of_le_length (by omega), List.take_take,
      Nat.min_eq_left (by omega)]
  have hdrop : (splice data (i + l.length) m).drop (i + l.length) =
      m ++ data.drop (i + l.length + m.length) := by
    rw [splice, List.append_assoc, List.drop_left' hlen]
  rw [splice, htake, hdrop, splice, List.length_append, ← Nat.add_assoc, List.append_assoc,
    List.append_assoc, List.append_assoc]

end

/-! ## Numbers -/

/-- The number that some bytes hold, the most significant one first. -/
def value (l : List UInt8) : ℕ := Nat.ofDigits 256 (l.reverse.map UInt8.toNat)

/-- The last `k` bytes of a number. -/
def bytes : ℕ → ℕ → List UInt8
  | 0, _ => []
  | k + 1, n => bytes k (n / 256) ++ [UInt8.ofNat n]

@[simp] theorem value_nil : value [] = 0 := rfl

theorem value_concat (l : List UInt8) (b : UInt8) : value (l ++ [b]) = 256 * value l + b.toNat := by
  rw [value, List.reverse_append, List.reverse_singleton, List.singleton_append, List.map_cons,
    Nat.ofDigits_cons, value, Nat.add_comm]

theorem value_cons (b : UInt8) (l : List UInt8) :
    value (b :: l) = b.toNat * 256 ^ l.length + value l := by
  rw [value, List.reverse_cons, List.map_append, Nat.ofDigits_append, List.length_map,
    List.length_reverse, List.map_singleton, Nat.ofDigits_singleton, value, Nat.mul_comm,
    Nat.add_comm]

theorem value_singleton (b : UInt8) : value [b] = b.toNat := by
  rw [value_cons, value_nil, List.length_nil, pow_zero, Nat.mul_one, Nat.add_zero]

@[simp] theorem length_bytes (k n : ℕ) : (bytes k n).length = k := by
  induction k generalizing n with
  | zero => rfl
  | succ k ih => rw [bytes, List.length_append, ih, List.length_singleton]

/-- **The bytes of a number hold the number, as far as there is place for it.** -/
theorem value_bytes (k n : ℕ) : value (bytes k n) = n % 256 ^ k := by
  induction k generalizing n with
  | zero => rw [bytes, value_nil, pow_zero, Nat.mod_one]
  | succ k ih =>
    rw [bytes, value_concat, ih, pow_succ', Nat.mod_mul, UInt8.toNat_ofNat', Nat.add_comm]

theorem bytes_zero (k : ℕ) : bytes k 0 = List.replicate k 0 := by
  induction k with
  | zero => rfl
  | succ k ih => rw [bytes, Nat.zero_div, ih, List.replicate_succ']; rfl

/-- What is behind the last `k` bytes does not matter. -/
theorem bytes_congr {k n n' : ℕ} (h : n % 256 ^ k = n' % 256 ^ k) : bytes k n = bytes k n' := by
  induction k generalizing n n' with
  | zero => rfl
  | succ k ih =>
    rw [pow_succ', Nat.mod_mul, Nat.mod_mul] at h
    have hdiv : n / 256 % 256 ^ k = n' / 256 % 256 ^ k := by omega
    have hmod : n % 256 = n' % 256 := by omega
    rw [bytes, bytes, ih hdiv]
    congr 2
    refine UInt8.toNat_inj.mp ?_
    rw [UInt8.toNat_ofNat', UInt8.toNat_ofNat']
    exact hmod

end Words
end SoftPhone
