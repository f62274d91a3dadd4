import SoftPhone.Util.Words

/-!
# A stream in blocks

A function on blocks of `n` entries is folded over a stream that arrives in pieces.  What does not
fill a block is kept until more arrives.

* `absorb_append`: it does not matter where the stream is cut.
* `absorb_eq`: what is folded are the blocks of the stream (`blocks`).
* `flatten_blocks`: nothing of a stream of whole blocks is left out.
-/

namespace SoftPhone
namespace Blocks

open Words

variable {σ α : Type*}

/-- The whole blocks of `n` entries are folded, and the rest is left. -/
def absorb (n : ℕ) (f : σ → List α → σ) (s : σ) (data : List α) : σ × List α :=
  if 0 < n ∧ n ≤ data.length then absorb n f (f s (data.take n)) (data.drop n) else (s, data)
termination_by data.length
decreasing_by rw [List.length_drop]; omega

/-- The blocks of `n` entries, as far as they are whole. -/
def blocks (n : ℕ) (data : List α) : List (List α) :=
  (List.range (data.length / n)).map fun i => slice data (n * i) n

variable {n : ℕ} {f : σ → List α → σ} {s : σ} {block data rest : List α}

theorem absorb_of_lt (h : data.length < n) : absorb n f s data = (s, data) := by
  rw [absorb, if_neg (by omega)]

theorem slice_add (data : List α) (i j k : ℕ) :
    slice data i (j + k) = slice data i j ++ slice data (i + j) k := by
  rw [slice, slice, slice, List.take_add, List.drop_drop]

/-- A whole block in front. -/
theorem absorb_block (hn : 0 < n) (hblock : block.length = n) :
    absorb n f s (block ++ data) = absorb n f (f s block) data := by
  rw [absorb, if_pos ⟨hn, by rw [List.length_append]; omega⟩, List.take_left' hblock,
    List.drop_left' hblock]

theorem exists_block (h : n ≤ data.length) :
    ∃ block rest, data = block ++ rest ∧ block.length = n ∧ rest.length = data.length - n :=
  ⟨data.take n, data.drop n, (List.take_append_drop n data).symm, List.length_take_of_le h,
    List.length_drop⟩

/-- **It does not matter where the stream is cut.** -/
theorem absorb_append (hn : 0 < n) (s : σ) (data rest : List α) :
    absorb n f s (data ++ rest) =
      absorb n f (absorb n f s data).1 ((absorb n f s data).2 ++ rest) := by
  induction hlen : data.length using Nat.strong_induction_on generalizing s data with
  | _ k ih =>
    rcases Nat.lt_or_ge data.length n with hlt | hge
    · rw [absorb_of_lt hlt]
    · obtain ⟨block, later, rfl, hblock, hlater⟩ := exists_block hge
      rw [List.append_assoc, absorb_block hn hblock, absorb_block hn hblock]
      exact ih later.length (by omega) _ _ rfl

theorem length_absorb (hn : 0 < n) (s : σ) (data : List α) :
    (absorb n f s data).2.length = data.length % n := by
  induction hlen : data.length using Nat.strong_induction_on generalizing s data with
  | _ k ih =>
    rcases Nat.lt_or_ge data.length n with hlt | hge
    · rw [absorb_of_lt hlt, ← hlen, Nat.mod_eq_of_lt hlt]
    · obtain ⟨block, later, rfl, hblock, hlater⟩ := exists_block hge
      rw [absorb_block hn hblock, ih later.length (by omega) _ _ rfl, ← hlen, hlater,
        ← Nat.mod_eq_sub_mod hge]

theorem blocks_append (hn : 0 < n) (hblock : block.length = n) :
    blocks n (block ++ data) = block :: blocks n data := by
  have hdiv : (block ++ data).length / n = data.length / n + 1 := by
    rw [List.length_append, hblock, Nat.add_div_left _ hn]
  rw [blocks, hdiv, List.range_succ_eq_map, List.map_cons, List.map_map, blocks]
  congr 1
  · rw [slice, Nat.mul_zero, List.drop_zero, List.take_left' hblock]
  · refine List.map_congr_left fun i _ => ?_
    show slice (block ++ data) (n * (i + 1)) n = slice data (n * i) n
    rw [slice, slice, Nat.mul_succ, Nat.add_comm, ← hblock, List.drop_length_add_append]

/-- **What is folded are the blocks of the stream.** -/
theorem absorb_eq (hn : 0 < n) (s : σ) (data : List α) :
    (absorb n f s data).1 = (blocks n data).foldl f s := by
  induction hlen : data.length using Nat.strong_induction_on generalizing s data with
  | _ k ih =>
    rcases Nat.lt_or_ge data.length n with hlt | hge
    · rw [absorb_of_lt hlt, blocks, Nat.div_eq_of_lt hlt, List.range_zero, List.map_nil,
        List.foldl_nil]
    · obtain ⟨block, later, rfl, hblock, hlater⟩ := exists_block hge
      rw [absorb_block hn hblock, blocks_append hn hblock, List.foldl_cons]
      exact ih later.length (by omega) _ _ rfl

theorem flatten_blocks (hn : 0 < n) (h : n ∣ data.length) : (blocks n data).flatten = data := by
  obtain ⟨k, hk⟩ := h
  induction k generalizing data with
  | zero =>
    obtain rfl := List.eq_nil_of_length_eq_zero hk
    rw [blocks, List.length_nil, Nat.zero_div, List.range_zero, List.map_nil, List.flatten_nil]
  | succ k ih =>
    have hle : n ≤ data.length := hk ▸ Nat.le_mul_of_pos_right n (Nat.succ_pos k)
    obtain ⟨block, rest, rfl, hblock, hrest⟩ := exists_block hle
    have hlen : rest.length = n * k := by rw [hrest, hk, Nat.mul_succ, Nat.add_sub_cancel]
    rw [blocks_append hn hblock, List.flatten_cons, ih hlen]

end Blocks
end SoftPhone
