import Mathlib.Tactic.Common
import SoftPhone.Machine.Run
import SoftPhone.Util.Arrays

/-!
# Buffers of bits

A `BitStringBuffer` is a vector of `BitString`s, of any length, that stands for the bits of all of
them.  Lengths and positions are `int`s.

* `refines_iff`: the methods are those of a list of bits as long as there are less than `2^31`.
* `bitStringBuffer_refines_iff`: a run of calls refines the list of bits throughout if and only if it
  never holds more.
-/

namespace SoftPhone
namespace Bits

open Arrays Words Machine

/-- The bits of a `BitString`. -/
abbrev BitString := List Bool

/-! ## Strings of bits -/

/-- `new BitString(str,off,len)`. -/
def copyOf (str : BitString) (off len : ℤ) : Option BitString :=
  if len < 0 then none else loadAll str len.toNat off

/-- `substring(begin)`. -/
def substringFrom (str : BitString) (first : ℤ) : Option BitString :=
  copyOf str first (int32 (str.length - first))

/-- `substring(begin,end)`. -/
def substring (str : BitString) (first last : ℤ) : Option BitString :=
  copyOf str first (int32 (last - first))

/-- `setBits(substring,offset)`. -/
def setBits (bits str : BitString) (offset : ℤ) : Option BitString := storeAll bits offset str

section

variable {str : BitString} {m n : ℕ}

theorem substring_natCast (hmn : m ≤ n) (hn : n ≤ str.length) (hlt : n < 2 ^ 31) :
    substring str m n = some (slice str m (n - m)) := by
  have hlen : (n : ℤ) - m = (n - m : ℕ) := by omega
  rw [substring, hlen, int32_of_lt (by omega) (by omega), copyOf, if_neg (by omega),
    Int.toNat_natCast, loadAll_natCast (by omega)]

theorem substringFrom_natCast (hm : m ≤ str.length) (hlt : str.length < 2 ^ 31) :
    substringFrom str m = some (str.drop m) := by
  have hlen : (str.length : ℤ) - m = (str.length - m : ℕ) := by omega
  rw [substringFrom, hlen, int32_of_lt (by omega) (by omega), copyOf, if_neg (by omega),
    Int.toNat_natCast, loadAll_natCast (by omega), slice,
    List.take_of_length_le (by rw [List.length_drop])]

end

/-! ## Buffers -/

/-- `length()`. -/
def length (buffer : List BitString) : ℤ :=
  buffer.foldl (fun len str => int32 (len + str.length)) 0

/-- The loop of `toBitString()`. -/
def setAll : List BitString → BitString → ℤ → Option BitString
  | [], bits, _ => some bits
  | str :: buffer, bits, index =>
    (setBits bits str index).bind fun bits => setAll buffer bits (int32 (index + str.length))

/-- `toBitString()`.  The array is allocated with the length of the buffer. -/
def toBitString (buffer : List BitString) : Option BitString :=
  if length buffer < 0 then none
  else setAll buffer (List.replicate (length buffer).toNat false) 0

/-- The second loop of `substring(begin,end)`: the strings from the position `index` to the end. -/
def takeTo (last : ℤ) : List BitString → ℤ → Option (List BitString)
  | [], index => if index < last then none else some []
  | str :: buffer, index =>
    if index < last then
      let next := int32 (index + str.length)
      let piece :=
        if next ≤ last then some str
        else substring str 0 (int32 (str.length - int32 (next - last)))
      piece.bind fun piece => (takeTo last buffer next).map (piece :: ·)
    else
      some []

/-- Both loops of `substring(begin,end)`, from the position `index` on. -/
def takeBetween (first last : ℤ) : List BitString → ℤ → Option (List BitString)
  | [], index => if index < first then none else takeTo last [] index
  | str :: buffer, index =>
    if index < first then
      let next := int32 (index + str.length)
      if next > first then
        let piece :=
          if next ≤ last then substringFrom str (int32 (str.length - int32 (next - first)))
          else
            substring str (int32 (str.length - int32 (next - first)))
              (int32 (str.length - int32 (next - last)))
        piece.bind fun piece => (takeBetween first last buffer next).map (piece :: ·)
      else
        takeBetween first last buffer next
    else
      takeTo last (str :: buffer) index

/-- `substring(begin,end)`. -/
def subBuffer (buffer : List BitString) (first last : ℤ) : Option (List BitString) :=
  takeBetween first last buffer 0

/-- The loop of `poll(n)`: what is taken, and the buffer that is left. -/
def pollLoop (n : ℤ) : List BitString → ℤ → Option (List BitString) × List BitString
  | [], len => (if len < n then none else some [], [])
  | str :: buffer, len =>
    if len < n then
      let next := int32 (len + str.length)
      if next ≤ n then
        ((pollLoop n buffer next).1.map (str :: ·), (pollLoop n buffer next).2)
      else
        match substring str 0 (int32 (n - len)), substringFrom str (int32 (n - len)) with
        | some head, some tail => (some [head], tail :: buffer)
        | _, _ => (none, str :: buffer)
    else
      (some [], str :: buffer)

/-- `poll(n)`. -/
def poll (buffer : List BitString) (n : ℤ) : Option (List BitString) × List BitString :=
  if n ≥ length buffer then (some buffer, []) else pollLoop n buffer 0

section

variable {buffer : List BitString} {bits : BitString} {index k m n : ℕ}

theorem length_lt (buffer : List BitString) : length buffer < 2 ^ 31 := by
  have h : ∀ len : ℤ, len < 2 ^ 31 →
      buffer.foldl (fun len str => int32 (len + str.length)) len < 2 ^ 31 := by
    induction buffer with
    | nil => exact fun len h => h
    | cons str buffer ih => exact fun len _ => ih _ (int32_lt _)
  exact h 0 (by decide)

theorem length_eq (h : buffer.flatten.length < 2 ^ 31) : length buffer = buffer.flatten.length := by
  have hfold : ∀ k : ℕ, k + buffer.flatten.length < 2 ^ 31 →
      buffer.foldl (fun len str => int32 (len + str.length)) (k : ℤ) =
        k + buffer.flatten.length := by
    clear h
    induction buffer with
    | nil => exact fun k _ => (Int.add_zero _).symm
    | cons str buffer ih =>
      intro k hk
      rw [List.flatten_cons, List.length_append] at hk
      have ih := ih (k + str.length) (by omega)
      rw [List.foldl_cons, int32_of_lt (by omega) (by omega), List.flatten_cons, List.length_append,
        ← Int.natCast_add, ih]
      omega
  have hzero := hfold 0 (by omega)
  rw [Int.natCast_zero, Int.zero_add] at hzero
  exact hzero

theorem setAll_eq (hlen : bits.length < 2 ^ 31) (h : index + buffer.flatten.length ≤ bits.length) :
    setAll buffer bits index = some (splice bits index buffer.flatten) := by
  induction buffer generalizing bits index with
  | nil => rw [setAll, List.flatten_nil, splice_nil]
  | cons str buffer ih =>
    rw [List.flatten_cons, List.length_append] at h
    have hsplice : (splice bits index str).length = bits.length := length_splice (by omega)
    have ih := @ih (splice bits index str) (index + str.length) (by omega) (by omega)
    rw [splice_splice (by omega)] at ih
    rw [setAll, setBits, storeAll_natCast (by omega), Option.bind_some,
      int32_of_lt (by omega) (by omega), List.flatten_cons, ← ih]
    rfl

theorem toBitString_eq (h : buffer.flatten.length < 2 ^ 31) :
    toBitString buffer = some buffer.flatten := by
  have hset := @setAll_eq buffer (List.replicate buffer.flatten.length false) 0
    (by rw [List.length_replicate]; exact h)
    (by rw [List.length_replicate, Nat.zero_add])
  rw [toBitString, length_eq h, if_neg (by omega), Int.toNat_natCast]
  refine hset.trans ?_
  rw [splice, List.take_zero, List.nil_append, Nat.zero_add, List.drop_of_length_le
    (by rw [List.length_replicate]), List.append_nil]

/-- What `toBitString()` returns has less than `2^31` bits. -/
theorem toBitString_length (h : toBitString buffer = some bits) : bits.length < 2 ^ 31 := by
  have hlength : ∀ (b : BitString) (i : ℤ), setAll buffer b i = some bits →
      bits.length = b.length := by
    clear h
    induction buffer with
    | nil => intro b i hb; rw [← Option.some_inj.mp hb]
    | cons str buffer ih =>
      intro b i hb
      obtain ⟨b', hb', hrest⟩ := Option.bind_eq_some_iff.mp hb
      rw [ih b' _ hrest, storeAll_length hb']
  have hlt := length_lt buffer
  rw [toBitString] at h
  split at h
  · nomatch h
  · rw [hlength _ _ h, List.length_replicate]
    omega

theorem takeTo_eq (h : index + buffer.flatten.length < 2 ^ 31)
    (hn : n ≤ index + buffer.flatten.length) :
    ∃ pieces, takeTo n buffer index = some pieces ∧
      pieces.flatten = buffer.flatten.take (n - index) := by
  induction buffer generalizing index with
  | nil =>
    rw [List.flatten_nil, List.length_nil] at hn
    exact ⟨[], if_neg (by omega), List.take_nil.symm⟩
  | cons str buffer ih =>
    rw [List.flatten_cons, List.length_append] at h hn
    rw [List.flatten_cons, List.take_append, takeTo]
    split
    · obtain ⟨pieces, hpieces, hflat⟩ := @ih (index + str.length) (by omega) (by omega)
      rw [int32_of_lt (by omega) (by omega), ← Int.natCast_add]
      dsimp only
      split
      · refine ⟨str :: pieces, by rw [Option.bind_some, hpieces]; rfl, ?_⟩
        rw [List.flatten_cons, hflat, List.take_of_length_le (l := str) (by omega), Nat.sub_sub]
      · -- the end is inside this string, and nothing is taken of the later ones
        have hpiece : (str.length : ℤ) - ((index + str.length : ℕ) - n) = (n - index : ℕ) := by omega
        have hsub := @substring_natCast str 0 (n - index) (Nat.zero_le _)
          (by omega) (by omega)
        rw [int32_of_lt (x := ((index + str.length : ℕ) : ℤ) - n) (by omega) (by omega), hpiece,
          int32_of_lt (by omega) (by omega), ← Int.natCast_zero, hsub, Option.bind_some, hpieces]
        refine ⟨_, rfl, ?_⟩
        have hzero : n - (index + str.length) = 0 := by omega
        rw [List.flatten_cons, hflat, hzero, slice, List.drop_zero, Nat.sub_zero, Nat.sub_sub, hzero]
    · exact ⟨[], rfl, by rw [Nat.sub_eq_zero_of_le (by omega), Nat.zero_sub]; rfl⟩

theorem takeBetween_of_le {first last i : ℤ} (h : first ≤ i) :
    takeBetween first last buffer i = takeTo last buffer i := by
  cases buffer with
  | nil => exact if_neg (by omega)
  | cons str buffer => exact if_neg (by omega)

theorem takeBetween_eq (h : index + buffer.flatten.length < 2 ^ 31) (hi : index ≤ m) (hmn : m ≤ n)
    (hn : n ≤ index + buffer.flatten.length) :
    ∃ pieces, takeBetween m n buffer index = some pieces ∧
      pieces.flatten = (buffer.flatten.drop (m - index)).take (n - m) := by
  induction buffer generalizing index with
  | nil =>
    rw [List.flatten_nil, List.length_nil] at hn
    refine ⟨[], ?_, by rw [List.flatten_nil, List.drop_nil, List.take_nil]⟩
    rw [takeBetween_of_le (by omega)]
    exact if_neg (by omega)
  | cons str buffer ih =>
    rcases Nat.eq_or_lt_of_le hi with rfl | hlt
    · obtain ⟨pieces, hpieces, hflat⟩ := takeTo_eq h hn
      exact ⟨pieces, by rw [takeBetween_of_le (le_refl _), hpieces],
        by rw [hflat, Nat.sub_self, List.drop_zero]⟩
    rw [List.flatten_cons, List.length_append] at h hn
    rw [List.flatten_cons, List.drop_append, takeBetween, if_pos (by omega),
      int32_of_lt (by omega) (by omega), ← Int.natCast_add]
    dsimp only
    split
    · -- the beginning is inside this string
      obtain ⟨pieces, hpieces, hflat⟩ := @takeTo_eq buffer (index + str.length) n (by omega)
        (by omega)
      have hfirst : (str.length : ℤ) - ((index + str.length : ℕ) - m) = (m - index : ℕ) := by omega
      rw [takeBetween_of_le (by omega), hpieces,
        int32_of_lt (x := ((index + str.length : ℕ) : ℤ) - m) (by omega) (by omega), hfirst,
        int32_of_lt (by omega) (by omega)]
      have hzero : m - index - str.length = 0 := by omega
      have hlen : (str.drop (m - index)).length = index + str.length - m := by
        rw [List.length_drop]
        omega
      rw [hzero, List.drop_zero, List.take_append, hlen]
      split
      · rw [substringFrom_natCast (by omega) (by omega), Option.bind_some]
        refine ⟨_, rfl, ?_⟩
        have hrest : n - m - (index + str.length - m) = n - (index + str.length) := by omega
        rw [List.flatten_cons, hflat, hrest, List.take_of_length_le (l := str.drop (m - index))
          (by omega)]
      · have hlast : (str.length : ℤ) - ((index + str.length : ℕ) - n) = (n - index : ℕ) := by omega
        rw [int32_of_lt (x := ((index + str.length : ℕ) : ℤ) - n) (by omega) (by omega), hlast,
          int32_of_lt (by omega) (by omega), substring_natCast (by omega) (by omega) (by omega),
          Option.bind_some]
        refine ⟨_, rfl, ?_⟩
        have hnone : n - (index + str.length) = 0 := by omega
        have hnone' : n - m - (index + str.length - m) = 0 := by omega
        have hwidth : n - index - (m - index) = n - m := by omega
        rw [List.flatten_cons, hflat, hnone, hnone', slice, hwidth]
    · obtain ⟨pieces, hpieces, hflat⟩ := @ih (index + str.length) (by omega) (by omega)
        (by omega)
      refine ⟨pieces, hpieces, ?_⟩
      rw [hflat, List.drop_of_length_le (l := str) (by omega), List.nil_append, Nat.sub_sub]

theorem subBuffer_eq (h : buffer.flatten.length < 2 ^ 31) (hmn : m ≤ n)
    (hn : n ≤ buffer.flatten.length) :
    ∃ pieces, subBuffer buffer m n = some pieces ∧ pieces.flatten = slice buffer.flatten m (n - m) :=
  @takeBetween_eq buffer 0 m n (by omega) (Nat.zero_le _) hmn (by omega)

theorem pollLoop_eq (h : index + buffer.flatten.length < 2 ^ 31)
    (hn : n ≤ index + buffer.flatten.length) :
    ∃ taken left, pollLoop n buffer index = (some taken, left) ∧
      taken.flatten = buffer.flatten.take (n - index) ∧
      left.flatten = buffer.flatten.drop (n - index) := by
  induction buffer generalizing index with
  | nil =>
    rw [List.flatten_nil, List.length_nil] at hn
    exact ⟨[], [], by rw [pollLoop, if_neg (by omega)], List.take_nil.symm, List.drop_nil.symm⟩
  | cons str buffer ih =>
    rw [List.flatten_cons, List.length_append] at h hn
    rw [List.flatten_cons, List.take_append, List.drop_append, pollLoop]
    split
    · rw [int32_of_lt (by omega) (by omega), ← Int.natCast_add]
      dsimp only
      split
      · obtain ⟨taken, left, hpoll, htaken, hleft⟩ := @ih (index + str.length) (by omega)
          (by omega)
        refine ⟨str :: taken, left, by rw [hpoll]; rfl, ?_, ?_⟩
        · rw [List.flatten_cons, htaken, List.take_of_length_le (l := str) (by omega), Nat.sub_sub]
        · rw [hleft, List.drop_of_length_le (l := str) (by omega), List.nil_append, Nat.sub_sub]
      · have hwidth : (n : ℤ) - index = (n - index : ℕ) := by omega
        have hsub := @substring_natCast str 0 (n - index) (Nat.zero_le _)
          (by omega) (by omega)
        have hzero : n - index - str.length = 0 := by omega
        rw [hwidth, int32_of_lt (by omega) (by omega), ← Int.natCast_zero, hsub,
          substringFrom_natCast (by omega) (by omega)]
        refine ⟨_, _, rfl, ?_, ?_⟩
        · rw [List.flatten_cons, List.flatten_nil, hzero, List.take_zero, slice, List.drop_zero,
            Nat.sub_zero]
        · rw [List.flatten_cons, hzero, List.drop_zero]
    · have hzero : n - index = 0 := by omega
      rw [hzero, Nat.zero_sub]
      exact ⟨[], _, rfl, rfl, rfl⟩

theorem poll_eq (h : buffer.flatten.length < 2 ^ 31) (i : ℤ) :
    ∃ taken left, poll buffer i = (some taken, left) ∧
      taken.flatten = buffer.flatten.take i.toNat ∧ left.flatten = buffer.flatten.drop i.toNat := by
  rw [poll, length_eq h]
  split
  · refine ⟨buffer, [], rfl, ?_, ?_⟩
    · rw [List.take_of_length_le (by omega)]
    · rw [List.drop_of_length_le (by omega)]
      rfl
  · rcases lt_or_ge i 0 with hneg | hpos
    · -- nothing is taken
      have hzero : i.toNat = 0 := Int.toNat_of_nonpos hneg.le
      refine ⟨[], buffer, ?_, by rw [hzero]; rfl, by rw [hzero]; rfl⟩
      cases buffer with
      | nil => rw [pollLoop, if_neg (by omega)]
      | cons str buffer => rw [pollLoop, if_neg (by omega)]
    · obtain ⟨n, rfl⟩ := Int.eq_ofNat_of_zero_le hpos
      obtain ⟨taken, left, hpoll, htaken, hleft⟩ := @pollLoop_eq buffer 0 n (by omega)
        (by omega)
      exact ⟨taken, left, hpoll, htaken, hleft⟩

end

/-! ## The buffer as a list of bits -/

/-- The methods on a buffer are those on a list of bits. -/
structure Refines (buffer : List BitString) (bits : BitString) : Prop where
  toBitString : toBitString buffer = some bits
  poll : ∀ n : ℤ, ∃ taken left, poll buffer n = (some taken, left) ∧
    Bits.toBitString taken = some (bits.take n.toNat) ∧
      Bits.toBitString left = some (bits.drop n.toNat)
  substring : ∀ first last : ℤ, 0 ≤ first → first ≤ last → last ≤ bits.length →
    ∃ piece, subBuffer buffer first last = some piece ∧
      Bits.toBitString piece =
        (Bits.toBitString buffer).bind fun str => Bits.substring str first last

/-- **A buffer stands for its bits when there are less than `2^31` of them.** -/
theorem refines_iff {buffer : List BitString} :
    Refines buffer buffer.flatten ↔ buffer.flatten.length < 2 ^ 31 := by
  refine ⟨fun h => toBitString_length h.toBitString, fun h => ⟨toBitString_eq h, fun n => ?_, ?_⟩⟩
  · obtain ⟨taken, left, hpoll, htaken, hleft⟩ := poll_eq h n
    have htake := @toBitString_eq taken (by rw [htaken, List.length_take]; omega)
    have hdrop := @toBitString_eq left (by rw [hleft, List.length_drop]; omega)
    exact ⟨taken, left, hpoll, by rw [htake, htaken], by rw [hdrop, hleft]⟩
  · intro first last hfirst hle hlast
    obtain ⟨m, rfl⟩ := Int.eq_ofNat_of_zero_le hfirst
    obtain ⟨n, rfl⟩ := Int.eq_ofNat_of_zero_le (hfirst.trans hle)
    obtain ⟨piece, hpiece, hflat⟩ := subBuffer_eq (m := m) (n := n) h (by omega) (by omega)
    have hlen : piece.flatten.length < 2 ^ 31 := by
      rw [hflat, slice, List.length_take, List.length_drop]
      omega
    refine ⟨piece, hpiece, ?_⟩
    rw [toBitString_eq hlen, toBitString_eq h, Option.bind_some,
      substring_natCast (by omega) (by omega) (by omega), hflat]

/-- A call that changes the buffer. -/
inductive Call
  | append (str : BitString)
  | appendBuffer (strs : List BitString)
  | poll (n : ℤ)
  | clear

/-- The buffer after a call. -/
def step (buffer : List BitString) : Call → List BitString
  | .append str => buffer ++ [str]
  | .appendBuffer strs => buffer ++ strs
  | .poll n => (poll buffer n).2
  | .clear => []

/-- The bits after a call: those that were appended and not yet polled. -/
def stepBits (bits : BitString) : Call → BitString
  | .append str => bits ++ str
  | .appendBuffer strs => bits ++ strs.flatten
  | .poll n => bits.drop n.toNat
  | .clear => []

theorem flatten_step {buffer : List BitString} (h : buffer.flatten.length < 2 ^ 31) (c : Call) :
    (step buffer c).flatten = stepBits buffer.flatten c := by
  cases c with
  | append str => rw [step, List.flatten_append, stepBits, List.flatten_cons, List.flatten_nil,
      List.append_nil]
  | appendBuffer strs => rw [step, List.flatten_append, stepBits]
  | poll n =>
    obtain ⟨taken, left, hpoll, -, hleft⟩ := poll_eq h n
    rw [step, hpoll, stepBits, hleft]
  | clear => rfl

theorem flatten_run (calls : List Call)
    (h : ∀ done, done <+: calls → (run stepBits [] done).length < 2 ^ 31) :
    (run step [] calls).flatten = run stepBits [] calls := by
  induction calls using List.reverseRecOn with
  | nil => rfl
  | append_singleton calls c ih =>
    have hcalls := ih fun done hdone => h done (hdone.trans (List.prefix_append _ _))
    have hlt := h calls (List.prefix_append _ _)
    rw [← hcalls] at hlt
    rw [run_append, run_append, run_cons, run_nil, run_cons, run_nil, flatten_step hlt, hcalls]

/-- **A buffer refines a list of bits throughout a run if and only if the list never has `2^31`
bits.** -/
theorem bitStringBuffer_refines_iff (calls : List Call) :
    (∀ done, done <+: calls → Refines (run step [] done) (run stepBits [] done)) ↔
      ∀ done, done <+: calls → (run stepBits [] done).length < 2 ^ 31 := by
  constructor
  · exact fun h done hdone => toBitString_length (h done hdone).toBitString
  · intro h done hdone
    have hflat := flatten_run done fun d hd => h d (hd.trans hdone)
    rw [← hflat]
    exact refines_iff.mpr (by rw [hflat]; exact h done hdone)

/-- Twice `2^30` bits have a negative length: there is no string of them, and polling no bit takes
them all. -/
theorem append_twice_not_refines :
    ¬ Refines
        (run step [] [.append (List.replicate (2 ^ 30) true),
          .append (List.replicate (2 ^ 30) true)])
        (run stepBits [] [.append (List.replicate (2 ^ 30) true),
          .append (List.replicate (2 ^ 30) true)]) ∧
      poll [List.replicate (2 ^ 30) true, List.replicate (2 ^ 30) true] 0 =
        (some [List.replicate (2 ^ 30) true, List.replicate (2 ^ 30) true], []) := by
  constructor
  · intro h
    have hlt := toBitString_length h.toBitString
    rw [run_cons, run_cons, run_nil, stepBits, stepBits, List.nil_append, List.length_append,
      List.length_replicate] at hlt
    omega
  · have hneg : length [List.replicate (2 ^ 30) true, List.replicate (2 ^ 30) true] = -2 ^ 31 := by
      rw [length, List.foldl_cons, List.foldl_cons, List.foldl_nil, List.length_replicate]
      decide
    rw [poll, hneg, if_pos (by decide)]

end Bits
end SoftPhone
