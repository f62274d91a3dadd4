import Mathlib.Data.List.Rotate
import Mathlib.Data.Nat.ModEq

/-!
# Bounded queues in circular buffers

A queue of at most `cap` items (`Fifo`), and the entries of an array from some index on, round its
end (`window`): an array with the index of the first entry and the number of entries holds a queue.

* `window_put`: what is written behind the entries is at the end of the queue.
* `window_drop`: when the first index moves on, the first items are gone.
-/

namespace SoftPhone

/-! ## Queues -/

/-- A queue of at most `cap` items. -/
structure Fifo (α : Type*) (cap : ℕ) where
  items : List α
  length_le : items.length ≤ cap

namespace Fifo

variable {α : Type*} {cap : ℕ}

/-- The empty queue. -/
def empty (α : Type*) (cap : ℕ) : Fifo α cap := ⟨[], Nat.zero_le cap⟩

/-- The room that is left. -/
def free (q : Fifo α cap) : ℕ := cap - q.items.length

/-- Some items go to the end, when there is room for all of them. -/
def put (q : Fifo α cap) (xs : List α) : Option (Fifo α cap) :=
  if h : q.items.length + xs.length ≤ cap then
    some ⟨q.items ++ xs, by rwa [List.length_append]⟩
  else
    none

/-- The first `n` items are taken, when there are that many. -/
def take (q : Fifo α cap) (n : ℕ) : Option (List α × Fifo α cap) :=
  if n ≤ q.items.length then
    some (q.items.take n,
      ⟨q.items.drop n, (List.drop_sublist n q.items).length_le.trans q.length_le⟩)
  else
    none

variable {q : Fifo α cap} {xs : List α} {n : ℕ}

theorem put_of_le (h : q.items.length + xs.length ≤ cap) :
    q.put xs = some ⟨q.items ++ xs, by rwa [List.length_append]⟩ :=
  dif_pos h

theorem put_of_lt (h : cap < q.items.length + xs.length) : q.put xs = none :=
  dif_neg (Nat.not_le.mpr h)

theorem take_of_le (h : n ≤ q.items.length) :
    q.take n = some (q.items.take n,
      ⟨q.items.drop n, (List.drop_sublist n q.items).length_le.trans q.length_le⟩) :=
  if_pos h

theorem take_of_lt (h : q.items.length < n) : q.take n = none :=
  if_neg (Nat.not_le.mpr h)

end Fifo

/-! ## Circular buffers -/

namespace Circular

variable {α : Type*} {data : List α} {t k j : ℕ}

/-- The `k` entries from the index `t` on, round the end of the array. -/
def window (data : List α) (t k : ℕ) : List α := (data.rotate t).take k

@[simp] theorem window_zero : window data t 0 = [] := List.take_zero

theorem length_window (h : k ≤ data.length) : (window data t k).length = k := by
  rw [window, List.length_take_of_le (by rwa [List.length_rotate])]

theorem window_mod : window data (t % data.length) k = window data t k := by
  rw [window, List.rotate_mod, window]

theorem getElem?_window (hk : k ≤ data.length) (hj : j < k) :
    (window data t k)[j]? = data[(j + t) % data.length]? := by
  rw [window, List.getElem?_take_of_lt hj, List.getElem?_rotate (by omega)]

/-- **The first entries are gone.** -/
theorem window_drop (hk : k ≤ data.length) (hj : j ≤ k) :
    window data (t + j) (k - j) = (window data t k).drop j := by
  have hlen : j ≤ (data.rotate t).length := by rw [List.length_rotate]; omega
  rw [window, ← List.rotate_rotate, List.rotate_eq_drop_append_take hlen,
    List.take_append_of_le_length (by rw [List.length_drop, List.length_rotate]; omega), window,
    List.drop_take]

/-- The first entry. -/
theorem window_succ (hk : k < data.length) (ht : t < data.length) :
    window data t (k + 1) = data[t] :: window data (t + 1) k := by
  have hdrop := window_drop (t := t) (j := 1) hk (by omega)
  have hhead := getElem?_window (t := t) (j := 0) hk (by omega)
  rw [Nat.zero_add, Nat.mod_eq_of_lt ht, List.getElem?_eq_getElem ht, ← List.head?_eq_getElem?]
    at hhead
  rw [Nat.succ_eq_add_one, Nat.add_sub_cancel] at hdrop
  rw [hdrop, List.drop_one, List.cons_head?_tail hhead]

theorem add_mod_inj {n : ℕ} (hj : j < n) (hk : k < n) : (j + t) % n = (k + t) % n ↔ j = k := by
  refine ⟨fun h => ?_, fun h => by rw [h]⟩
  have hmod : Nat.ModEq n j k := Nat.ModEq.add_right_cancel' t h
  rwa [Nat.ModEq, Nat.mod_eq_of_lt hj, Nat.mod_eq_of_lt hk] at hmod

/-- What is written behind the last entry is the new last entry. -/
theorem window_set (b : α) (hk : k < data.length) :
    window (data.set ((k + t) % data.length) b) t (k + 1) = window data t k ++ [b] := by
  have hlen : (data.set ((k + t) % data.length) b).length = data.length := List.length_set
  have hwin := length_window (t := t) hk.le
  have hpos : (k + t) % data.length < data.length := Nat.mod_lt _ (by omega)
  refine List.ext_getElem? fun j => ?_
  rcases Nat.lt_trichotomy j k with hlt | rfl | hgt
  · have hne : (k + t) % data.length ≠ (j + t) % data.length := fun h =>
      absurd ((add_mod_inj hk (by omega)).mp h) (by omega)
    rw [getElem?_window (by omega) (by omega), hlen, List.getElem?_set_ne hne,
      List.getElem?_append_left (by omega), getElem?_window hk.le hlt]
  · rw [getElem?_window (by omega) (by omega), hlen, List.getElem?_set_self hpos,
      List.getElem?_append_right (by omega), hwin, Nat.sub_self]
    rfl
  · rw [List.getElem?_eq_none (by rw [length_window (by omega)]; omega),
      List.getElem?_eq_none (by rw [List.length_append, hwin, List.length_singleton]; omega)]

/-- Some items are written from the index `i` on, round the end of the array. -/
def put (data : List α) (i : ℕ) : List α → List α
  | [] => data
  | b :: bs => put (data.set (i % data.length) b) (i + 1) bs

variable {bs : List α} {i : ℕ}

@[simp] theorem length_put : (put data i bs).length = data.length := by
  induction bs generalizing data i with
  | nil => rfl
  | cons b bs ih => rw [put, ih, List.length_set]

theorem put_mod : put data (i % data.length) bs = put data i bs := by
  induction bs generalizing data i with
  | nil => rfl
  | cons b bs ih =>
    rw [put, put, Nat.mod_mod, ← ih (i := i + 1), ← ih (i := i % data.length + 1), List.length_set,
      Nat.mod_add_mod]

theorem put_congr {j : ℕ} (h : i % data.length = j % data.length) :
    put data i bs = put data j bs := by
  rw [← put_mod, h, put_mod]

/-- **What is written behind the entries follows them.** -/
theorem window_put (h : k + bs.length ≤ data.length) :
    window (put data (k + t) bs) t (k + bs.length) = window data t k ++ bs := by
  induction bs generalizing data k with
  | nil => rw [put, List.length_nil, Nat.add_zero, List.append_nil]
  | cons b bs ih =>
    rw [List.length_cons] at h
    have ih := @ih (data.set ((k + t) % data.length) b) (k + 1)
      (by rw [List.length_set]; omega)
    rw [window_set b (by omega), List.append_assoc, List.singleton_append] at ih
    rw [put, List.length_cons, Nat.add_right_comm, ← ih]
    congr 1
    omega

end Circular
end SoftPhone
