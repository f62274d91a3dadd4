import SoftPhone.Rtp.RtpPacket

/-!
# The CSRC list and the payload of an `RtpPacket`

The length of the header is read from the first byte of the packet, wherever it is needed.
`setCscrList` writes the list into an array that it has just made, so only zeros are written.
A received packet is not longer than the buffer, but it may be shorter than the header that its
first byte declares, and then the length of the payload is negative.

* `setPayload_eq`, `getPayload_eq`, `setCscrList_eq`, `getCscrList_eq`: the loops as parts of the
  buffer.
* `getCscrList_setCscrList_iff`: what is read after the list and after the payload was set.
* `robust_receive_iff`: when the getters of a received packet return.
-/

namespace SoftPhone

open Base64 (toInt toByte store)
open Words

namespace RtpPacket

/-! ## The methods -/

section Methods

variable (p : RtpPacket)

/-- `getHeaderLength`. -/
def getHeaderLength : Option ℤ :=
  if 12 ≤ p.length then p.getCscrCount.map fun cc => 12 + 4 * cc.toInt else some p.length

/-- `getPayloadLength`. -/
def getPayloadLength : Option ℤ :=
  if 12 ≤ p.length then p.getHeaderLength.map fun headerLen => p.length - headerLen else some 0

/-- `new T[n]` that is filled in a loop; none is a negative size or an index out of range. -/
def fill {α : Type} (n : ℤ) (f : ℕ → Option α) : Option (List α) :=
  if 0 ≤ n then (List.range n.toNat).mapM f else none

/-- A loop that writes into the buffer; none is an index out of range. -/
def loop (n : ℤ) (f : List UInt8 → ℕ → Option (List UInt8)) (buffer : List UInt8) :
    Option (List UInt8) :=
  (List.range n.toNat).foldlM f buffer

/-- `getCscrList`. -/
def getCscrList : Option (List (BitVec 64)) := do
  let cc ← p.getCscrCount
  fill cc.toInt fun i => getLong p.buffer (12 + 4 * i) (16 + 4 * i)

/-- `setCscrList`: the parameter is replaced by a new array before its entries are written. -/
def setCscrList (cscr : List (BitVec 64)) : Option RtpPacket :=
  p.write fun buffer => do
    let cc := if 15 < cscr.length then 15 else cscr.length
    let buffer ← modify 0
      (fun b => toByte (((toInt b).sshiftRight 4 <<< 4) + BitVec.ofNat 32 cc)) buffer
    let cscr : List (BitVec 64) := List.replicate cc 0
    loop cc (fun buffer i => do
      let n ← cscr[i]?
      setLong n buffer (12 + 4 * i) (16 + 4 * i)) buffer

/-- `setPayload`. -/
def setPayload (payload : List UInt8) (len : ℤ) : Option RtpPacket :=
  if 12 ≤ p.length then do
    let headerLen ← p.getHeaderLength
    let buffer ← loop len (fun buffer i => do
      let b ← payload[i]?
      store buffer (headerLen.toNat + i) b) p.buffer
    some { buffer, length := headerLen + len }
  else some p

/-- `getPayload`. -/
def getPayload : Option (List UInt8) := do
  let headerLen ← p.getHeaderLength
  fill (p.length - headerLen) fun i => p.buffer[headerLen.toNat + i]?


end Methods

/-! ## The loops -/

section Loops

variable {α : Type} {buffer b : List UInt8} {n : ℕ}

theorem mapM_eq_some {f : ℕ → Option α} {g : ℕ → α} {l : List ℕ} (h : ∀ i ∈ l, f i = some (g i)) :
    l.mapM f = some (l.map g) := by
  induction l with
  | nil => rfl
  | cons i l ih =>
    rw [List.mapM_cons, h i List.mem_cons_self, ih fun j hj => h j (List.mem_cons_of_mem _ hj)]
    rfl

theorem fill_eq_some {f : ℕ → Option α} {g : ℕ → α} (h : ∀ i < n, f i = some (g i)) :
    fill n f = some ((List.range n).map g) := by
  rw [fill, if_pos (by omega), Int.toNat_natCast]
  exact mapM_eq_some fun i hi => h i (List.mem_range.mp hi)

/-- An array that is filled with a part of the buffer. -/
theorem fill_slice {i : ℕ} (h : i + n ≤ buffer.length) :
    fill n (fun j => buffer[i + j]?) = some (slice buffer i n) := by
  have hget : ∀ j < n, buffer[i + j]? = some (buffer.getD (i + j) 0) := by
    intro j hj
    have hlt : i + j < buffer.length := by omega
    rw [List.getElem?_eq_getElem hlt, List.getD_eq_getElem buffer 0 hlt]
  rw [fill_eq_some hget, slice_eq_map h 0]

variable {f : List UInt8 → ℕ → Option (List UInt8)}

theorem loop_succ : loop (n + 1 : ℕ) f buffer = (loop n f buffer).bind fun b => f b n := by
  rw [loop, loop, Int.toNat_natCast, Int.toNat_natCast, List.range_succ, List.foldlM_append]
  cases (List.range n).foldlM f buffer with
  | none => rfl
  | some b => exact bind_pure (f b n)

/-- **A loop that writes one part of the buffer after another.** -/
theorem loop_eq_some {p : ℕ → List UInt8} {i : ℕ} (h0 : p 0 = [])
    (hstep : ∀ j < n, f (splice buffer i (p j)) j = some (splice buffer i (p (j + 1)))) :
    loop n f buffer = some (splice buffer i (p n)) := by
  induction n with
  | zero => rw [h0, splice_nil]; rfl
  | succ n ih =>
    rw [loop_succ, ih fun j hj => hstep j (by omega), Option.bind_some]
    exact hstep n (by omega)

/-- The array keeps its length. -/
theorem length_of_loop (hf : ∀ {b b' : List UInt8} {i : ℕ}, f b i = some b' → b'.length = b.length)
    (h : loop n f buffer = some b) : b.length = buffer.length := by
  induction n generalizing b with
  | zero => exact congrArg List.length (Option.some.inj h).symm
  | succ n ih =>
    rw [loop_succ] at h
    obtain ⟨b', hb', hfb⟩ := Option.bind_eq_some_iff.mp h
    exact (hf hfb).trans (ih hb')

theorem length_of_store {i : ℕ} {x : UInt8} (h : store buffer i x = some b) :
    b.length = buffer.length := by
  unfold store at h
  split at h
  · rw [← Option.some.inj h, List.length_set]
  · cases h

theorem length_of_setLongLoop {first k : ℕ} {x : BitVec 64}
    (h : setLongLoop first k x buffer = some b) : b.length = buffer.length := by
  induction k generalizing x buffer with
  | zero => exact congrArg List.length (Option.some.inj h).symm
  | succ k ih =>
    obtain ⟨b', hstore, hloop⟩ := Option.bind_eq_some_iff.mp h
    exact (ih hloop).trans (length_of_store hstore)

/-- The last byte of the word is out of range. -/
theorem setLong_eq_none {first last : ℕ} (hlt : first < last) (h : buffer.length < last)
    (x : BitVec 64) : setLong x buffer first last = none := by
  obtain ⟨k, hk⟩ := Nat.exists_eq_succ_of_ne_zero (show last - first ≠ 0 by omega)
  rw [setLong, hk, setLongLoop, Base64.store_eq_none (by omega)]
  rfl

end Loops

/-! ## The list -/

section List

variable {p : RtpPacket}

theorem getCscrCount_eq (h : 12 ≤ p.length) (hb : 0 < p.buffer.length) :
    p.getCscrCount = some (BitVec.ofNat 32 ((p.buffer.getD 0 0).toNat % 16)) := by
  obtain ⟨-, -, -, hcc, -, -⟩ := toInt_fields (p.buffer.getD 0 0)
  rw [getCscrCount, read_byte h hb, hcc]

theorem toInt_count (n : ℕ) : (BitVec.ofNat 32 (n % 16)).toInt = (n % 16 : ℕ) := by
  have hcond := BitVec.toInt_eq_toNat_cond (x := BitVec.ofNat 32 (n % 16))
  rw [BitVec.toNat_ofNat] at hcond
  omega

/-- **The length of the header.** -/
theorem getHeaderLength_eq (h : 12 ≤ p.length) (hb : 0 < p.buffer.length) :
    p.getHeaderLength = some ((12 + 4 * ((p.buffer.getD 0 0).toNat % 16) : ℕ) : ℤ) := by
  rw [getHeaderLength, if_pos h, getCscrCount_eq h hb, Option.map_some, toInt_count]
  congr 1

/-- **The words behind the first twelve bytes.** -/
theorem getCscrList_eq (h : 12 ≤ p.length)
    (hb : 12 + 4 * ((p.buffer.getD 0 0).toNat % 16) ≤ p.buffer.length) :
    p.getCscrList = some ((List.range ((p.buffer.getD 0 0).toNat % 16)).map fun i =>
      BitVec.ofNat 64 (value (slice p.buffer (12 + 4 * i) 4))) := by
  rw [getCscrList, getCscrCount_eq h (by omega)]
  show fill (BitVec.ofNat 32 _).toInt _ = _
  rw [toInt_count]
  refine fill_eq_some fun i hi => ?_
  have hword : getLong p.buffer (12 + 4 * i) (16 + 4 * i) = _ := getLong_eq (by omega) (by omega)
  rwa [show 16 + 4 * i - (12 + 4 * i) = 4 by omega] at hword

end List

/-! ## After the list was set -/

section SetCscrList

variable {p : RtpPacket}

/-- The first byte after `setCscrList`. -/
theorem toNat_countByte (b : UInt8) {cc : ℕ} (hcc : cc < 16) :
    (toByte (((toInt b).sshiftRight 4 <<< 4) + BitVec.ofNat 32 cc)).toNat =
      b.toNat / 16 * 16 + cc := by
  have hall : ∀ n < 256, ∀ cc < 16,
      (toByte (((toInt (UInt8.ofNat n)).sshiftRight 4 <<< 4) + BitVec.ofNat 32 cc)).toNat =
        n / 16 * 16 + cc := by
    decide +kernel
  have hb := hall b.toNat b.toNat_lt cc hcc
  rwa [UInt8.ofNat_toNat] at hb

/-- The loop of `setCscrList`, with an array of zeros. -/
def zeroLoop (cc : ℕ) (buffer : List UInt8) : Option (List UInt8) :=
  loop cc (fun buffer i => do
    let n ← (List.replicate cc (0 : BitVec 64))[i]?
    setLong n buffer (12 + 4 * i) (16 + 4 * i)) buffer

theorem zeroLoop_eq {cc : ℕ} {buffer : List UInt8} (h : 12 + 4 * cc ≤ buffer.length) :
    zeroLoop cc buffer = some (splice buffer 12 (List.replicate (4 * cc) 0)) := by
  have hstart : List.replicate (4 * 0) (0 : UInt8) = [] := rfl
  refine loop_eq_some (p := fun i => List.replicate (4 * i) 0) hstart fun i hi => ?_
  have hlen : (splice buffer 12 (List.replicate (4 * i) 0)).length = buffer.length :=
    length_splice (by rw [List.length_replicate]; omega)
  have hword : setLong 0 (splice buffer 12 (List.replicate (4 * i) 0)) (12 + 4 * i) (16 + 4 * i) =
      _ := setLong_eq (by omega) (by omega) (by omega) 0
  rw [show 16 + 4 * i - (12 + 4 * i) = 4 by omega, show BitVec.toNat (0 : BitVec 64) = 0 from rfl,
    bytes_zero] at hword
  have happ := splice_splice (show 12 ≤ buffer.length by omega)
    (l := List.replicate (4 * i) (0 : UInt8)) (m := List.replicate 4 0)
  rw [List.length_replicate, List.replicate_append_replicate] at happ
  rw [List.getElem?_replicate, if_pos hi]
  exact hword.trans (congrArg some happ)

theorem zeroLoop_eq_none {cc : ℕ} {buffer : List UInt8} (hcc : cc ≠ 0)
    (h : buffer.length < 12 + 4 * cc) : zeroLoop cc buffer = none := by
  obtain ⟨n, rfl⟩ := Nat.exists_eq_succ_of_ne_zero hcc
  rw [zeroLoop, loop_succ, Option.bind_eq_none_iff]
  intro b hb
  have hlen := length_of_loop (fun {b b' i} h => ?_) hb
  · rw [List.getElem?_replicate, if_pos (by omega)]
    exact setLong_eq_none (by omega) (by omega) 0
  · obtain ⟨x, -, hset⟩ := Option.bind_eq_some_iff.mp h
    exact length_of_setLongLoop hset

/-- How many identifiers `setCscrList` takes. -/
def taken (ids : List (BitVec 64)) : ℕ := if 15 < ids.length then 15 else ids.length

theorem taken_eq (ids : List (BitVec 64)) : taken ids = (ids.take 15).length := by
  rw [taken, List.length_take]
  split <;> omega

/-- The buffer after the first byte was written. -/
def counted (p : RtpPacket) (cc : ℕ) : List UInt8 :=
  splice p.buffer 0
    [toByte (((toInt (p.buffer.getD 0 0)).sshiftRight 4 <<< 4) + BitVec.ofNat 32 cc)]

theorem setCscrList_eq (h : 12 ≤ p.length) (hb : 0 < p.buffer.length) (ids : List (BitVec 64)) :
    p.setCscrList ids =
      (zeroLoop (taken ids) (p.counted (taken ids))).map fun buffer => { p with buffer } := by
  rw [setCscrList, write, if_pos h]
  show Option.map _ ((modify 0 _ p.buffer).bind _) = _
  rw [modify_eq hb]
  rfl

/-- **What is read after the list was set**: as many zeros as there are identifiers. -/
theorem getCscrList_setCscrList (h : 12 ≤ p.length) (ids : List (BitVec 64))
    (hb : 12 + 4 * taken ids ≤ p.buffer.length) :
    (p.setCscrList ids).bind getCscrList = some (List.replicate (taken ids) 0) := by
  have hcc : taken ids < 16 := by
    unfold taken
    split <;> omega
  have hcounted : (p.counted (taken ids)).length = p.buffer.length :=
    length_splice (by rw [List.length_singleton]; omega)
  have hzeros : (List.replicate (4 * taken ids) (0 : UInt8)).length = 4 * taken ids :=
    List.length_replicate
  set buffer := splice (p.counted (taken ids)) 12 (List.replicate (4 * taken ids) 0) with hbuffer
  have hlen : buffer.length = p.buffer.length := by
    rw [hbuffer, length_splice (by omega), hcounted]
  have hcount : (buffer.getD 0 0).toNat % 16 = taken ids := by
    have hfirst : slice buffer 0 1 = slice (p.counted (taken ids)) 0 1 :=
      slice_splice_before (by omega) (by omega)
    have hown : slice (p.counted (taken ids)) 0 1 = _ := slice_splice (Nat.zero_le _)
    rw [← value_slice_one (by omega), hfirst, hown, value_singleton, toNat_countByte _ hcc]
    omega
  rw [setCscrList_eq h (by omega), zeroLoop_eq (by omega)]
  refine (getCscrList_eq (p := ⟨buffer, p.length⟩) h
    (show 12 + 4 * ((buffer.getD 0 0).toNat % 16) ≤ buffer.length by omega)).trans ?_
  show some ((List.range ((buffer.getD 0 0).toNat % 16)).map _) = _
  rw [hcount]
  refine congrArg some ?_
  refine List.eq_replicate_iff.mpr ⟨by rw [List.length_map, List.length_range], fun x hx => ?_⟩
  obtain ⟨i, hi, rfl⟩ := List.mem_map.mp hx
  have hi := List.mem_range.mp hi
  have hword : slice buffer (12 + 4 * i) 4 = List.replicate 4 0 := by
    rw [hbuffer, slice_splice_within (by omega) (by omega), slice, List.drop_replicate,
      List.take_replicate, Nat.min_eq_left (by omega)]
  show BitVec.ofNat 64 (value (slice buffer (12 + 4 * i) 4)) = 0
  rw [hword]
  rfl

/-- A list of zeros has the identifiers of a list. -/
theorem replicate_eq_iff (ids : List (BitVec 64)) :
    List.replicate (taken ids) 0 = (ids.take 15).map (fun id => id % 0x100000000) ↔
      ∀ id ∈ ids.take 15, id % 0x100000000 = 0 := by
  rw [eq_comm, List.eq_replicate_iff, List.length_map, taken_eq, List.forall_mem_map]
  exact and_iff_right rfl

end SetCscrList

/-! ## The payload -/

section Payload

variable {p : RtpPacket}

/-- The length of the header, as a number. -/
def headerLen (p : RtpPacket) : ℕ := 12 + 4 * ((p.buffer.getD 0 0).toNat % 16)

theorem setPayload_eq (h : 12 ≤ p.length) (hb : 0 < p.buffer.length) {payload : List UInt8}
    {len : ℕ} (hlen : len ≤ payload.length) (hfit : p.headerLen + len ≤ p.buffer.length) :
    p.setPayload payload len =
      some ⟨splice p.buffer p.headerLen (payload.take len), (p.headerLen + len : ℕ)⟩ := by
  have hloop : loop len (fun buffer i => do
      let b ← payload[i]?
      store buffer ((p.headerLen : ℤ).toNat + i) b) p.buffer =
        some (splice p.buffer p.headerLen (payload.take len)) := by
    refine loop_eq_some (p := fun i => payload.take i) List.take_zero fun i hi => ?_
    have hi' : i < payload.length := by omega
    have htake : (payload.take i).length = i := by
      rw [List.length_take]
      omega
    have happ := splice_splice (show p.headerLen ≤ p.buffer.length by omega) (l := payload.take i)
      (m := [payload[i]])
    rw [htake, List.take_concat_get' _ _ hi'] at happ
    rw [List.getElem?_eq_getElem hi', Int.toNat_natCast]
    exact (store_eq (by rw [length_splice (by omega)]; omega) _).trans (congrArg some happ)
  rw [setPayload, if_pos h, getHeaderLength_eq h hb]
  show (loop len (fun buffer i => do
    let b ← payload[i]?
    store buffer ((p.headerLen : ℤ).toNat + i) b) p.buffer).bind _ = _
  rw [hloop]
  rfl

/-- **The bytes behind the header.** -/
theorem getPayload_eq (h : 12 ≤ p.length) (hb : 0 < p.buffer.length) {n : ℕ}
    (hn : p.length = (p.headerLen + n : ℕ)) (hfit : p.headerLen + n ≤ p.buffer.length) :
    p.getPayload = some (slice p.buffer p.headerLen n) := by
  rw [getPayload, getHeaderLength_eq h hb]
  show fill (p.length - (p.headerLen : ℤ)) (fun i => p.buffer[(p.headerLen : ℤ).toNat + i]?) = _
  rw [show p.length - (p.headerLen : ℤ) = n by omega, Int.toNat_natCast]
  exact fill_slice hfit

/-- **The payload of a packet that is not broken is read as it was set.** -/
theorem getPayload_setPayload (h : 12 ≤ p.length) (hb : 0 < p.buffer.length)
    {payload : List UInt8} {len : ℕ} (hlen : len ≤ payload.length)
    (hfit : p.headerLen + len ≤ p.buffer.length) :
    (p.setPayload payload len).bind getPayload = some (payload.take len) := by
  have htake : (payload.take len).length = len := by
    rw [List.length_take]
    omega
  set buffer := splice p.buffer p.headerLen (payload.take len) with hbuffer
  have hbl : buffer.length = p.buffer.length := length_splice (by omega)
  have hpos : 12 ≤ p.headerLen := Nat.le_add_right 12 _
  have hfirst : slice buffer 0 1 = slice p.buffer 0 1 :=
    slice_splice_before (by omega) (by omega)
  have hsame : headerLen ⟨buffer, (p.headerLen + len : ℕ)⟩ = p.headerLen := by
    show 12 + 4 * ((buffer.getD 0 0).toNat % 16) = _
    rw [← value_slice_one (by omega), hfirst, value_slice_one (by omega)]
    rfl
  have hget := getPayload_eq (p := ⟨buffer, (p.headerLen + len : ℕ)⟩) (n := len)
    (show (12 : ℤ) ≤ (p.headerLen + len : ℕ) by omega) (show 0 < buffer.length by omega)
    (by rw [hsame]) (by rw [hsame, hbl]; exact hfit)
  have hown := slice_splice (show p.headerLen ≤ p.buffer.length by omega) (l := payload.take len)
  rw [htake] at hown
  rw [setPayload_eq h hb hlen hfit, Option.bind_some, hget, hsame]
  exact congrArg some hown

end Payload

/-! ## The list and the payload are read as they were set -/

/-- **When the list and the payload are read as they were set.**  The list is, if and only if it
fits and all of its identifiers are zero modulo `2 ^ 32`, or, in a broken packet, if it is empty;
the payload is, but for that of a broken packet. -/
theorem getCscrList_setCscrList_iff (p : RtpPacket) (ids : List (BitVec 64)) (payload : List UInt8)
    (len : ℕ) (hb : 12 ≤ p.buffer.length) (hlen : len ≤ payload.length)
    (hfit : ∀ headerLen ∈ p.getHeaderLength, headerLen + len ≤ p.buffer.length) :
    ((p.setCscrList ids).bind getCscrList =
        some ((ids.take 15).map fun id => id % 0x100000000) ↔
      if 12 ≤ p.length then
        12 + 4 * (ids.take 15).length ≤ p.buffer.length ∧ ∀ id ∈ ids.take 15, id % 0x100000000 = 0
      else ids = []) ∧
    ((p.setPayload payload len).bind getPayload = some (payload.take len) ↔
      12 ≤ p.length ∨ len = 0) := by
  by_cases h : 12 ≤ p.length
  · rw [if_pos h]
    refine ⟨?_, iff_of_true ?_ (.inl h)⟩
    · rw [← taken_eq]
      by_cases hids : 12 + 4 * taken ids ≤ p.buffer.length
      · rw [getCscrList_setCscrList h ids hids, Option.some_inj, replicate_eq_iff]
        exact (and_iff_right hids).symm
      · have hcounted : (p.counted (taken ids)).length = p.buffer.length :=
          length_splice (by rw [List.length_singleton]; omega)
        rw [setCscrList_eq h (by omega), zeroLoop_eq_none (by omega) (by omega)]
        exact iff_of_false (fun heq => by cases heq) fun hc => hids hc.1
    · have hheader := hfit _ (getHeaderLength_eq h (by omega))
      exact getPayload_setPayload h (by omega) hlen (by rw [headerLen]; omega)
  · rw [if_neg h]
    have hcount : p.getCscrCount = some 0 := if_neg h
    have hlist : p.getCscrList = some [] := by
      rw [getCscrList, hcount]
      rfl
    have hpayload : p.getPayload = some [] := by
      rw [getPayload, getHeaderLength, if_neg h]
      show fill (p.length - p.length) _ = _
      rw [Int.sub_self]
      rfl
    have hset : p.setCscrList ids = some p := if_neg h
    have hsetPayload : p.setPayload payload len = some p := if_neg h
    refine ⟨?_, ?_⟩
    · rw [hset, Option.bind_some, hlist, Option.some_inj, eq_comm, List.map_eq_nil_iff,
        List.take_eq_nil_iff]
      exact or_iff_right (by omega)
    · rw [hsetPayload, Option.bind_some, hpayload, Option.some_inj, eq_comm, List.take_eq_nil_iff,
        or_iff_right h]
      refine ⟨fun hor => hor.elim id fun hnil => ?_, .inl⟩
      rw [hnil, List.length_nil] at hlen
      omega

/-- A list and a payload, in a packet of twelve bytes in a buffer of twenty. -/
theorem getCscrList_setCscrList_zero :
    (setCscrList ⟨List.replicate 20 0, 12⟩ [0x100000000, 0]).bind getCscrList =
        some ((([0x100000000, 0] : List (BitVec 64)).take 15).map fun id => id % 0x100000000) ∧
      (setPayload ⟨List.replicate 20 0, 12⟩ [1, 2, 3] (2 : ℕ)).bind getPayload =
        some (([1, 2, 3] : List UInt8).take 2) := by
  have hzero : ∀ id ∈ ([0x100000000, 0] : List (BitVec 64)), id % 0x100000000 = 0 := by simp
  have hiff := getCscrList_setCscrList_iff ⟨List.replicate 20 0, 12⟩ [0x100000000, 0] [1, 2, 3] 2
    (by decide) (by decide) (by decide)
  refine ⟨hiff.1.mpr ?_, hiff.2.mpr (.inl (by decide))⟩
  rw [if_pos (by decide)]
  exact ⟨by simp, hzero⟩

/-- An identifier is set, and another one is read. -/
theorem getCscrList_setCscrList_lost :
    ¬∀ (p : RtpPacket) (ids : List (BitVec 64)), 12 ≤ p.buffer.length →
      (p.setCscrList ids).bind getCscrList =
        some ((ids.take 15).map fun id => id % 0x100000000) := by
  intro hall
  have heq := hall ⟨List.replicate 20 0, 12⟩ [1, 2] (by decide)
  exact absurd heq (by decide +kernel)

end RtpPacket

/-- `receive` of class `RtpSocket`: the datagram is put in front of what is in the buffer of the
packet, as far as there is place for it. -/
def RtpSocket.receive (p : RtpPacket) (datagram : List UInt8) : RtpPacket where
  buffer := datagram.take p.buffer.length ++ p.buffer.drop datagram.length
  length := min datagram.length p.buffer.length

namespace RtpPacket

/-! ## What is received -/

section Receive

/-- The getters return, and the payload is a part of the packet. -/
structure Robust (p : RtpPacket) : Prop where
  headerLength : p.getHeaderLength ≠ none
  payloadLength : ∃ n ∈ p.getPayloadLength, 0 ≤ n ∧ n ≤ p.length
  payload : p.getPayload ≠ none
  cscrList : p.getCscrList ≠ none

variable {p : RtpPacket}

/-- A broken packet has no payload and no list. -/
theorem robust_of_broken (h0 : 0 ≤ p.length) (h : ¬12 ≤ p.length) : p.Robust where
  headerLength := by
    rw [getHeaderLength, if_neg h]
    exact Option.some_ne_none _
  payloadLength := ⟨0, if_neg h, le_rfl, h0⟩
  payload := by
    rw [getPayload, getHeaderLength, if_neg h]
    show fill (p.length - p.length) _ ≠ none
    rw [Int.sub_self]
    exact Option.some_ne_none _
  cscrList := by
    have hcount : p.getCscrCount = some 0 := if_neg h
    rw [getCscrList, hcount]
    exact Option.some_ne_none _

/-- **The header that the first byte declares is in the packet.** -/
theorem robust_iff (h : 12 ≤ p.length) (hb : p.length ≤ p.buffer.length) :
    p.Robust ↔ p.headerLen ≤ p.length := by
  have hheader := getHeaderLength_eq h (by omega)
  constructor
  · intro hr
    obtain ⟨n, hn, h0, -⟩ := hr.payloadLength
    rw [getPayloadLength, if_pos h, hheader] at hn
    have hn : p.length - (p.headerLen : ℤ) = n := Option.some.inj hn
    omega
  · intro hle
    obtain ⟨n, hn⟩ := Int.eq_ofNat_of_zero_le (show 0 ≤ p.length - p.headerLen by omega)
    refine ⟨?_, ⟨p.length - p.headerLen, ?_, by omega, by omega⟩, ?_, ?_⟩
    · rw [hheader]
      exact Option.some_ne_none _
    · rw [getPayloadLength, if_pos h, hheader]
      rfl
    · rw [getPayload_eq h (by omega) (n := n) (by omega) (by omega)]
      exact Option.some_ne_none _
    · rw [getCscrList_eq h (by rw [headerLen] at hle; omega)]
      exact Option.some_ne_none _

/-- **When a received packet is robust**: it is shorter than any header, or it holds the header that
its first byte declares. -/
theorem robust_receive_iff (p : RtpPacket) (datagram : List UInt8) :
    (RtpSocket.receive p datagram).Robust ↔
      min datagram.length p.buffer.length < 12 ∨
        12 + 4 * ((datagram.getD 0 0).toNat % 16) ≤ min datagram.length p.buffer.length := by
  -- a packet of less than twelve bytes is broken, whatever its first byte is
  by_cases h : min datagram.length p.buffer.length < 12
  · refine iff_of_true (robust_of_broken ?_ ?_) (.inl h)
    · show (0 : ℤ) ≤ min _ _
      omega
    · show ¬(12 : ℤ) ≤ min _ _
      omega
  · have hlen : (RtpSocket.receive p datagram).buffer.length = p.buffer.length := by
      show (datagram.take p.buffer.length ++ p.buffer.drop datagram.length).length = _
      rw [List.length_append, List.length_take, List.length_drop]
      omega
    have hfirst : (RtpSocket.receive p datagram).buffer.getD 0 0 = datagram.getD 0 0 := by
      show (datagram.take p.buffer.length ++ p.buffer.drop datagram.length).getD 0 0 = _
      rw [List.getD_append _ _ _ _ (by rw [List.length_take]; omega),
        List.getD_eq_getElem?_getD, List.getElem?_take_of_lt (by omega), List.getD_eq_getElem?_getD]
    rw [robust_iff (show (12 : ℤ) ≤ min _ _ by omega) (by rw [hlen]; exact min_le_right _ _),
      headerLen, hfirst, or_iff_right h]
    show ((12 + 4 * ((datagram.getD 0 0).toNat % 16) : ℕ) : ℤ) ≤ min _ _ ↔ _
    omega

/-- Twelve bytes that declare one identifier. -/
theorem robust_receive_short :
    ¬∀ (p : RtpPacket) (datagram : List UInt8), datagram.length ≤ p.buffer.length →
      (RtpSocket.receive p datagram).Robust := by
  intro hall
  obtain ⟨n, hn, h0, -⟩ := (hall ⟨List.replicate 20 0, 12⟩ (0x81 :: List.replicate 11 0)
    (by decide)).payloadLength
  have hlen : n = -4 := (Option.some.inj hn).symm
  omega

end Receive

end RtpPacket
end SoftPhone
