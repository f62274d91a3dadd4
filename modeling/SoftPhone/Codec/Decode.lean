import Mathlib.Tactic.Common
import SoftPhone.Util.Words

/-!
# The native decoders

`BV16.decode` and `G729.decode` are called with an RTP packet, the array for the samples and the
size of the payload.  Both run the same loop over the frames of the payload.  Its counter is a
`jbyte`, so the sum `i+BITSTREAM_SIZE` wraps behind 127, and the size it is compared with is a
`jint`.

* `exists_loop_iff`: the loop ends for the sizes up to 126 and for no other.
* `loop_asksWithin_iff`: it ends and stays in the payload for whole frames, at most twelve.
* `bv16Decode_eq_frames_iff`: the samples of `BV16.decode` are the decoded frames for no frame and
  for four frames only, since each copy has the size of the payload instead of that of a frame.

The JNI arrays are lists.  A region that is not inside its array raises an exception, which stays
pending: the native code goes on.
-/

namespace SoftPhone
namespace Codec

open Words

/-! ## The arrays of the caller -/

/-- The header length of the RTP frame (`RTP_HDR_SIZE`). -/
def rtpHdrSize : ℕ := 12

/-- The size of a packed frame (`BITSTREAM_SIZE`). -/
def bitstreamSize : ℕ := 10

/-- What the native code has of its caller: the packet, the array for the samples, the regions
of the packet it has asked for, and whether an exception is pending. -/
structure Jni where
  encoded : List Int8
  lin : List Int16
  asked : List (ℤ × ℕ)
  pending : Bool
  deriving DecidableEq

namespace Jni

/-- `GetByteArrayRegion(encoded,start,len,buf)`. -/
def getByteArrayRegion (env : Jni) (start : ℤ) (len : ℕ) (buf : List Int8) : Jni × List Int8 :=
  let env := { env with asked := env.asked ++ [(start, len)] }
  if 0 ≤ start ∧ start + len ≤ env.encoded.length then
    (env, splice buf 0 (slice env.encoded start.toNat len))
  else
    ({ env with pending := true }, buf)

/-- `SetShortArrayRegion(lin,start,len,buf)`, for a pointer `buf` to some memory. -/
def setShortArrayRegion (env : Jni) (start len : ℤ) (buf : ℕ → Int16) : Jni :=
  if 0 ≤ start ∧ 0 ≤ len ∧ start + len ≤ env.lin.length then
    { env with lin := splice env.lin start.toNat ((List.range len.toNat).map buf) }
  else
    { env with pending := true }

@[simp] theorem getByteArrayRegion_asked (env : Jni) (start : ℤ) (len : ℕ) (buf : List Int8) :
    (env.getByteArrayRegion start len buf).1.asked = env.asked ++ [(start, len)] := by
  rw [getByteArrayRegion]
  split <;> rfl

@[simp] theorem setShortArrayRegion_asked (env : Jni) (start len : ℤ) (buf : ℕ → Int16) :
    (env.setShortArrayRegion start len buf).asked = env.asked := by
  rw [setShortArrayRegion]
  split <;> rfl

theorem getByteArrayRegion_of_le {env : Jni} {start : ℤ} {len : ℕ} {buf : List Int8}
    (h : 0 ≤ start) (hle : start + len ≤ env.encoded.length) :
    env.getByteArrayRegion start len buf =
      ({ env with asked := env.asked ++ [(start, len)] },
        splice buf 0 (slice env.encoded start.toNat len)) :=
  if_pos ⟨h, hle⟩

theorem setShortArrayRegion_of_le {env : Jni} {start len : ℤ} {buf : ℕ → Int16}
    (h : 0 ≤ start) (hlen : 0 ≤ len) (hle : start + len ≤ env.lin.length) :
    env.setShortArrayRegion start len buf =
      { env with lin := splice env.lin start.toNat ((List.range len.toNat).map buf) } :=
  if_pos ⟨h, hlen, hle⟩

end Jni

/-! ## The loop over the frames -/

section Loop

variable {σ : Type*}

/-- `for (i=0; i<size; i=i+BITSTREAM_SIZE)`, from the counter `i` on; `none` when the fuel does
not suffice.  The sum is one of `int`s, which the assignment narrows. -/
def loop (size : Int32) (body : Int8 → σ → σ) : ℕ → Int8 → σ → Option σ
  | 0, _, _ => none
  | fuel + 1, i, s =>
    if i.toInt < size.toInt then
      loop size body fuel (Int8.ofInt (i.toInt + bitstreamSize)) (body i s)
    else
      some s

/-- The counter in the pass `n`. -/
def counter (n : ℕ) : Int8 := Int8.ofInt (bitstreamSize * n)

theorem toInt_counter (n : ℕ) :
    (counter n).toInt = if (10 * n : ℤ) % 256 < 128 then (10 * n : ℤ) % 256
      else (10 * n : ℤ) % 256 - 256 := by
  rw [counter, Int8.toInt_ofInt, Int.bmod_def]
  rfl

/-- Up to the pass twelve nothing wraps. -/
theorem toInt_counter_of_le {n : ℕ} (h : n ≤ 12) : (counter n).toInt = 10 * n := by
  have hmod : (10 * n : ℤ) % 256 = 10 * n := Int.emod_eq_of_lt (by omega) (by omega)
  rw [toInt_counter, hmod, if_pos (by omega)]

theorem counter_succ (n : ℕ) :
    Int8.ofInt ((counter n).toInt + bitstreamSize) = counter (n + 1) := by
  refine Int8.toInt.inj ?_
  rw [Int8.toInt_ofInt, counter, Int8.toInt_ofInt, Int.bmod_add_bmod, counter, Int8.toInt_ofInt]
  congr 1

/-- The counter is even, so it stays below 127. -/
theorem toInt_counter_le (n : ℕ) : (counter n).toInt ≤ 126 := by
  rw [toInt_counter]
  split <;> omega

variable {size : Int32} {body : Int8 → σ → σ} {n fuel : ℕ} {s r : σ}

theorem loop_of_lt (h : (counter n).toInt < size.toInt) :
    loop size body (fuel + 1) (counter n) s =
      loop size body fuel (counter (n + 1)) (body (counter n) s) := by
  rw [loop, if_pos h, counter_succ]

theorem loop_of_le (h : size.toInt ≤ (counter n).toInt) :
    loop size body (fuel + 1) (counter n) s = some s := by
  rw [loop, if_neg (by omega)]

theorem loop_eq_none (h : 126 < size.toInt) : loop size body fuel (counter n) s = none := by
  induction fuel generalizing n s with
  | zero => rfl
  | succ fuel ih =>
    have hle := toInt_counter_le n
    rw [loop_of_lt (by omega), ih]

theorem exists_loop_of_le {k : ℕ} (h : size.toInt ≤ (counter (n + k)).toInt) :
    ∃ r, loop size body (k + 1) (counter n) s = some r := by
  induction k generalizing n s with
  | zero => exact ⟨s, loop_of_le h⟩
  | succ k ih =>
    rcases lt_or_ge (counter n).toInt size.toInt with hlt | hge
    · rw [loop_of_lt hlt]
      exact ih (by rwa [Nat.add_assoc, Nat.add_comm 1])
    · exact ⟨s, loop_of_le hge⟩

/-- More fuel does not change the result. -/
theorem loop_unique {fuel' : ℕ} {i : Int8} {r' : σ} (hr : loop size body fuel i s = some r)
    (hr' : loop size body fuel' i s = some r') : r = r' := by
  induction fuel generalizing fuel' i s with
  | zero => nomatch hr
  | succ fuel ih =>
    cases fuel' with
    | zero => nomatch hr'
    | succ fuel' =>
      rw [loop] at hr hr'
      split at hr
      · rename_i hlt
        rw [if_pos hlt] at hr'
        exact ih hr hr'
      · rename_i hge
        rw [if_neg hge] at hr'
        exact Option.some_inj.mp (hr.symm.trans hr')

/-- **The loop ends for the sizes up to 126.**  The counter takes the value 126 in the pass 115. -/
theorem exists_loop_iff :
    (∃ fuel r, loop size body fuel (counter 0) s = some r) ↔ size.toInt ≤ 126 := by
  constructor
  · rintro ⟨fuel, r, hr⟩
    by_contra hlt
    rw [loop_eq_none (by omega)] at hr
    nomatch hr
  · intro h
    have h126 : (counter (0 + 115)).toInt = 126 := by rw [toInt_counter]; rfl
    exact ⟨116, exists_loop_of_le (by omega)⟩

/-- Without wrapping the loop is a fold over the passes. -/
theorem loop_eq_foldl {k : ℕ} (hk : n + k ≤ 12) (hle : size.toInt ≤ 10 * (n + k))
    (hlt : ∀ m < k, 10 * ((n : ℤ) + m) < size.toInt) :
    loop size body (k + 1) (counter n) s =
      some ((List.range k).foldl (fun s j => body (counter (n + j)) s) s) := by
  induction k generalizing n s with
  | zero => exact loop_of_le (by rw [toInt_counter_of_le (by omega)]; omega)
  | succ k ih =>
    have hn := hlt 0 (by omega)
    rw [loop_of_lt (by rw [toInt_counter_of_le (by omega)]; omega),
      ih (by omega) (by omega) fun m hm => ?_, List.range_succ_eq_map, List.foldl_cons,
      List.foldl_map]
    · simp only [Nat.add_assoc, Nat.add_comm 1, Nat.succ_eq_add_one, Nat.add_zero]
    · have hm' := hlt (m + 1) (by omega)
      omega

/-! ### What the loop asks for -/

variable {asked : σ → List (ℤ × ℕ)}

/-- The bytes asked for have indices from 12 on and below `12+size+e`: for `e = 0` these are the
bytes of the payload, for `e = 1` the index `12+size` is allowed too. -/
def AsksWithin (size : ℤ) (e : ℕ) (l : List (ℤ × ℕ)) : Prop :=
  ∀ p ∈ l, (rtpHdrSize : ℤ) ≤ p.1 ∧ p.1 + p.2 ≤ rtpHdrSize + size + e

theorem prefix_asked
    (hbody : ∀ i s, asked (body i s) = asked s ++ [(i.toInt + rtpHdrSize, bitstreamSize)])
    (hr : loop size body fuel (counter n) s = some r) : asked s <+: asked r := by
  induction fuel generalizing n s with
  | zero => nomatch hr
  | succ fuel ih =>
    rcases lt_or_ge (counter n).toInt size.toInt with hlt | hge
    · rw [loop_of_lt hlt] at hr
      exact (hbody _ s ▸ List.prefix_append _ _).trans (ih hr)
    · rw [loop_of_le hge] at hr
      rw [Option.some_inj.mp hr]

/-- A pass that the loop comes to asks for its frame. -/
theorem mem_asked
    (hbody : ∀ i s, asked (body i s) = asked s ++ [(i.toInt + rtpHdrSize, bitstreamSize)])
    (hr : loop size body fuel (counter n) s = some r) {k : ℕ}
    (hk : ∀ m ≤ k, (counter (n + m)).toInt < size.toInt) :
    ((counter (n + k)).toInt + rtpHdrSize, bitstreamSize) ∈ asked r := by
  induction k generalizing n s fuel with
  | zero =>
    cases fuel with
    | zero => nomatch hr
    | succ fuel =>
      rw [loop_of_lt (n := n) (hk 0 (le_refl 0))] at hr
      refine (prefix_asked hbody hr).subset ?_
      rw [hbody, Nat.add_zero]
      exact List.mem_append_right _ (List.mem_singleton_self _)
  | succ k ih =>
    cases fuel with
    | zero => nomatch hr
    | succ fuel =>
      rw [loop_of_lt (n := n) (hk 0 (by omega))] at hr
      rw [Nat.add_comm k 1, ← Nat.add_assoc]
      refine ih hr fun m hm => ?_
      rw [Nat.add_assoc, Nat.add_comm 1 m]
      exact hk (m + 1) (by omega)

theorem asked_foldl
    (hbody : ∀ i s, asked (body i s) = asked s ++ [(i.toInt + rtpHdrSize, bitstreamSize)])
    (k : ℕ) :
    asked ((List.range k).foldl (fun s j => body (counter j) s) s) =
      asked s ++ (List.range k).map fun j => ((counter j).toInt + rtpHdrSize, bitstreamSize) := by
  induction k with
  | zero => rw [List.range_zero, List.foldl_nil, List.map_nil, List.append_nil]
  | succ k ih =>
    rw [List.range_succ, List.foldl_append, List.foldl_cons, List.foldl_nil, hbody, ih,
      List.map_append, List.map_singleton, List.append_assoc]

/-- The last frame of a payload that is not made of whole frames reaches behind it, and from 121
bytes on the counter wraps to a place in front of the packet. -/
theorem loop_asksWithin_iff
    (hbody : ∀ i s, asked (body i s) = asked s ++ [(i.toInt + rtpHdrSize, bitstreamSize)])
    (hs : asked s = []) (e : ℕ) :
    (∃ fuel r, loop size body fuel (counter 0) s = some r ∧
        AsksWithin size.toInt e (asked r)) ↔
      size.toInt ≤ 0 ∨ size.toInt ≤ 120 ∧ -size.toInt % 10 ≤ e := by
  constructor
  · rintro ⟨fuel, r, hr, hin⟩
    rcases le_or_gt size.toInt 0 with hle | hpos
    · exact Or.inl hle
    have h120 : size.toInt ≤ 120 := by
      by_contra hgt
      have hneg : (counter (0 + 13)).toInt = -126 := by rw [toInt_counter]; rfl
      have hmem := mem_asked hbody hr (k := 13) fun m hm => by
        rcases Nat.lt_or_eq_of_le hm with hlt | rfl
        · rw [toInt_counter_of_le (by omega)]
          omega
        · omega
      have hlow := (hin _ hmem).1
      rw [hneg] at hlow
      exact absurd hlow (by decide)
    obtain ⟨k, hk⟩ : ∃ k : ℕ, (k : ℤ) = (size.toInt - 1) / 10 :=
      ⟨((size.toInt - 1) / 10).toNat, Int.toNat_of_nonneg (by omega)⟩
    have hmem := mem_asked hbody hr (k := k) fun m hm => by
      rw [toInt_counter_of_le (by omega)]
      omega
    have hhigh := (hin _ hmem).2
    rw [toInt_counter_of_le (by omega), bitstreamSize] at hhigh
    exact Or.inr ⟨h120, by omega⟩
  · intro h
    rcases le_or_gt size.toInt 0 with hle | hpos
    · refine ⟨1, s, loop_of_le (by rw [toInt_counter_of_le (by omega)]; omega), ?_⟩
      rw [hs]
      exact fun p hp => absurd hp List.not_mem_nil
    obtain ⟨h120, hmod⟩ := h.resolve_left (by omega)
    obtain ⟨k, hk⟩ : ∃ k : ℕ, (k : ℤ) = (size.toInt + 9) / 10 :=
      ⟨((size.toInt + 9) / 10).toNat, Int.toNat_of_nonneg (by omega)⟩
    refine ⟨k + 1, _, loop_eq_foldl (by omega) (by omega) fun m hm => by omega, ?_⟩
    simp only [Nat.zero_add]
    rw [asked_foldl hbody, hs, List.nil_append]
    intro p hp
    obtain ⟨j, hj, rfl⟩ := List.mem_map.mp hp
    rw [List.mem_range] at hj
    rw [toInt_counter_of_le (by omega), rtpHdrSize, bitstreamSize]
    constructor <;> omega

end Loop

/-! ## The two decoders -/

/-- A vendored decoder: a packed frame gives `n` samples. -/
structure Decoder (δ : Type*) (n : ℕ) where
  decode : δ → List Int8 → δ × List Int16
  length_decode : ∀ d p, (decode d p).2.length = n

/-- The samples in a frame of BV16 (`FRSZ`). -/
def frsz : ℕ := 40

/-- The samples in a frame of G.729 (`L_FRAME`). -/
def lFrame : ℕ := 80

/-- What a pass of the loop works on. -/
structure Decoding (δ : Type*) where
  env : Jni
  buffer : List Int8
  decState : δ
  output : List Int16
  linPos : UInt32

variable {δ : Type*} {n : ℕ}

/-- The memory from an output buffer on, with `behind` after its last sample. -/
def memory (output : List Int16) (behind : ℕ → Int16) (j : ℕ) : Int16 :=
  output.getD j (behind (j - output.length))

/-- One pass: a frame is fetched and decoded, and `len` samples go to the array. -/
def frame (D : Decoder δ n) (len : Int32) (behind : ℕ → Int16) (i : Int8) (s : Decoding δ) :
    Decoding δ :=
  let fetched := s.env.getByteArrayRegion (i.toInt + rtpHdrSize) bitstreamSize s.buffer
  let decoded := D.decode s.decState (fetched.2.take bitstreamSize)
  { env := fetched.1.setShortArrayRegion s.linPos.toInt32.toInt len.toInt
      (memory decoded.2 behind)
    buffer := fetched.2
    decState := decoded.1
    output := decoded.2
    linPos := s.linPos + len.toUInt32 }

/-- The decode functions, with copies of `len` samples. -/
def decode (D : Decoder δ n) (len : Int32) (behind : ℕ → Int16) (codecOpen : Int32)
    (s : Decoding δ) (size : Int32) (fuel : ℕ) : Option (Decoding δ × Int32) :=
  if codecOpen = 0 then some (s, 0)
  else (loop size (frame D len behind) fuel 0 { s with linPos := 0 }).map
    fun s => (s, s.linPos.toInt32)

/-- `BV16.decode`: each copy has the size of the payload. -/
def bv16Decode (D : Decoder δ frsz) (behind : ℕ → Int16) (codecOpen : Int32) (s : Decoding δ)
    (size : Int32) (fuel : ℕ) : Option (Decoding δ × Int32) :=
  decode D size behind codecOpen s size fuel

/-- `G729.decode`: each copy has the size of a frame. -/
def g729Decode (D : Decoder δ lFrame) (behind : ℕ → Int16) (codecOpen : Int32) (s : Decoding δ)
    (size : Int32) (fuel : ℕ) : Option (Decoding δ × Int32) :=
  decode D 80 behind codecOpen s size fuel

section

variable {D : Decoder δ n} {len size codecOpen : Int32} {behind : ℕ → Int16} {s : Decoding δ}

theorem frame_asked (i : Int8) (s : Decoding δ) :
    (frame D len behind i s).env.asked =
      s.env.asked ++ [(i.toInt + rtpHdrSize, bitstreamSize)] := by
  rw [frame]
  simp only [Jni.setShortArrayRegion_asked, Jni.getByteArrayRegion_asked]

theorem decode_of_closed {fuel : ℕ} (h : codecOpen = 0) :
    decode D len behind codecOpen s size fuel = some (s, 0) :=
  if_pos h

theorem decode_eq_some_iff {fuel : ℕ} (h : codecOpen ≠ 0) {p : Decoding δ × Int32} :
    decode D len behind codecOpen s size fuel = some p ↔
      ∃ r, loop size (frame D len behind) fuel (counter 0) { s with linPos := 0 } = some r ∧
        (r, r.linPos.toInt32) = p := by
  rw [decode, if_neg h, Option.map_eq_some_iff]
  rfl

theorem decode_asksWithin_iff (hs : s.env.asked = []) (e : ℕ) :
    (∃ fuel r, decode D len behind codecOpen s size fuel = some r ∧
        AsksWithin size.toInt e r.1.env.asked) ↔
      codecOpen = 0 ∨ size.toInt ≤ 0 ∨ size.toInt ≤ 120 ∧ -size.toInt % 10 ≤ e := by
  by_cases hopen : codecOpen = 0
  · refine iff_of_true ⟨0, (s, 0), decode_of_closed hopen, ?_⟩ (Or.inl hopen)
    rw [hs]
    exact fun p hp => absurd hp List.not_mem_nil
  · rw [or_iff_right hopen, ← @loop_asksWithin_iff _ _ _ { s with linPos := 0 }
      (fun s => s.env.asked) (@frame_asked _ _ D len behind) hs]
    simp only [decode_eq_some_iff hopen]
    constructor
    · rintro ⟨fuel, _, ⟨r, hr, rfl⟩, hin⟩
      exact ⟨fuel, r, hr, hin⟩
    · rintro ⟨fuel, r, hr, hin⟩
      exact ⟨fuel, (r, r.linPos.toInt32), ⟨r, hr, rfl⟩, hin⟩

end

/-- **The decode functions end and stay in the payload for whole frames, at most twelve.**  With
`e = 0` the bytes below `12+size` are allowed, with `e = 1` the one at `12+size` too. -/
theorem decode_inPayload_iff (D : Decoder δ frsz) (D' : Decoder δ lFrame) (behind : ℕ → Int16)
    (codecOpen : Int32) {s : Decoding δ} (hs : s.env.asked = []) (size : Int32) (e : ℕ) :
    ((∃ fuel r, bv16Decode D behind codecOpen s size fuel = some r ∧
        AsksWithin size.toInt e r.1.env.asked) ↔
      codecOpen = 0 ∨ size.toInt ≤ 0 ∨ size.toInt ≤ 120 ∧ -size.toInt % 10 ≤ e) ∧
    ((∃ fuel r, g729Decode D' behind codecOpen s size fuel = some r ∧
        AsksWithin size.toInt e r.1.env.asked) ↔
      codecOpen = 0 ∨ size.toInt ≤ 0 ∨ size.toInt ≤ 120 ∧ -size.toInt % 10 ≤ e) :=
  ⟨decode_asksWithin_iff hs e, decode_asksWithin_iff hs e⟩

/-- A decoder that makes a frame of ones of everything. -/
def ones (n : ℕ) : Decoder Unit n :=
  ⟨fun d _ => (d, List.replicate n 1), fun _ _ => List.length_replicate⟩

/-- A call with `size` bytes of payload and room for `samples` samples. -/
def sampleCall (size samples : ℕ) : Decoding Unit where
  env := ⟨List.replicate (rtpHdrSize + size) 0, List.replicate samples 0, [], false⟩
  buffer := []
  decState := ()
  output := []
  linPos := 0

theorem decode_inPayload_twenty :
    ∃ fuel r, bv16Decode (ones frsz) (fun _ => 0) 1 (sampleCall 20 80) 20 fuel = some r ∧
      AsksWithin (20 : Int32).toInt 0 r.1.env.asked :=
  (decode_inPayload_iff (ones frsz) (ones lFrame) (fun _ => 0) 1 (s := sampleCall 20 80) rfl 20
    0).1.mpr (Or.inr (Or.inr (by decide)))

/-- A payload of 130 bytes has no end, and of 15 bytes the second frame is not there. -/
theorem decode_not_inPayload :
    (¬ ∃ fuel r, g729Decode (ones lFrame) (fun _ => 0) 1 (sampleCall 130 1040) 130 fuel = some r) ∧
    ¬ ∃ fuel r, bv16Decode (ones frsz) (fun _ => 0) 1 (sampleCall 15 80) 15 fuel = some r ∧
      AsksWithin (15 : Int32).toInt 0 r.1.env.asked := by
  constructor
  · rintro ⟨fuel, p, hp⟩
    obtain ⟨r, hr, -⟩ := (decode_eq_some_iff (by decide)).mp hp
    rw [loop_eq_none (by decide)] at hr
    nomatch hr
  · rintro ⟨fuel, p, hp⟩
    exact absurd ((decode_asksWithin_iff rfl 0).mp ⟨fuel, p, hp⟩) (by decide)

/-! ## The samples -/

/-- The first `k` frames of a packet, one after the other, with the decoder they leave. -/
def decodedFrames (D : Decoder δ n) (d : δ) (encoded : List Int8) : ℕ → δ × List Int16
  | 0 => (d, [])
  | k + 1 =>
    let before := decodedFrames D d encoded k
    let decoded := D.decode before.1 (slice encoded (rtpHdrSize + bitstreamSize * k) bitstreamSize)
    (decoded.1, before.2 ++ decoded.2)

section

variable {D : Decoder δ n} {len size codecOpen : Int32} {behind : ℕ → Int16} {s t : Decoding δ}
  {k : ℕ}

theorem length_decodedFrames (d : δ) (encoded : List Int8) (k : ℕ) :
    (decodedFrames D d encoded k).2.length = n * k := by
  induction k with
  | zero => rfl
  | succ k ih => rw [decodedFrames, List.length_append, ih, D.length_decode, Nat.mul_succ]

/-- A copy that has the size of the frame does not look behind the buffer. -/
theorem map_memory (output : List Int16) :
    (List.range output.length).map (memory output behind) = output := by
  refine List.ext_getElem (by rw [List.length_map, List.length_range]) fun j hj hj' => ?_
  rw [List.getElem_map, List.getElem_range, memory, List.getD_eq_getElem _ _ hj']

theorem linPos_frame {i : Int8} (h : t.linPos.toInt32.toInt + len.toInt < 2 ^ 31)
    (h0 : 0 ≤ t.linPos.toInt32.toInt + len.toInt) :
    (frame D len behind i t).linPos.toInt32.toInt = t.linPos.toInt32.toInt + len.toInt := by
  show (t.linPos.toInt32 + len).toInt = _
  rw [Int32.toInt_add, Int.bmod_eq_of_le (by omega) (by omega)]

/-- Every pass adds `len` to the position, whatever it copies. -/
theorem linPos_foldl (hs : s.linPos = 0) (hlen : 0 ≤ len.toInt) (h : k * len.toInt < 2 ^ 31) :
    ((List.range k).foldl (fun s j => frame D len behind (counter j) s) s).linPos.toInt32.toInt =
      k * len.toInt := by
  induction k with
  | zero => rw [List.range_zero, List.foldl_nil, hs]; exact (Int.zero_mul _).symm
  | succ k ih =>
    have hsucc : ((k + 1 : ℕ) : ℤ) * len.toInt = k * len.toInt + len.toInt := by
      rw [Nat.cast_succ, Int.add_mul, Int.one_mul]
    have hnonneg : 0 ≤ (k : ℤ) * len.toInt := Int.mul_nonneg (Int.natCast_nonneg k) hlen
    have ih := ih (by omega)
    rw [List.range_succ, List.foldl_append, List.foldl_cons, List.foldl_nil, linPos_frame
      (by omega) (by omega), ih, hsucc]

/-- What `k` passes leave when each of them copies its own frame. -/
structure Written (D : Decoder δ n) (s t : Decoding δ) (k : ℕ) : Prop where
  encoded : t.env.encoded = s.env.encoded
  lin : t.env.lin = splice s.env.lin 0 (decodedFrames D s.decState s.env.encoded k).2
  pending : t.env.pending = s.env.pending
  decState : t.decState = (decodedFrames D s.decState s.env.encoded k).1
  linPos : t.linPos.toInt32.toInt = n * k

theorem frame_written (hlen : len.toInt = n) (h : Written D s t k) (hk : k < 12)
    (hin : rtpHdrSize + bitstreamSize * (k + 1) ≤ s.env.encoded.length)
    (hlin : n * (k + 1) ≤ s.env.lin.length) (hint : n * (k + 1) < 2 ^ 31) :
    Written D s (frame D len behind (counter k) t) (k + 1) := by
  rw [Nat.mul_succ] at hlin hint
  have hpos := h.linPos
  have hcounter := toInt_counter_of_le (n := k) (by omega)
  have hstart : ((counter k).toInt + rtpHdrSize).toNat = rtpHdrSize + bitstreamSize * k := by
    rw [hcounter, bitstreamSize]
    omega
  have hframes := length_decodedFrames (D := D) s.decState s.env.encoded k
  have hlength : t.env.lin.length = s.env.lin.length := by
    rw [h.lin, length_splice (by omega)]
  rw [frame, Jni.getByteArrayRegion_of_le (by omega)
    (by rw [h.encoded, hcounter]; rw [rtpHdrSize, bitstreamSize] at *; omega)]
  have hpacket : (splice t.buffer 0
      (slice t.env.encoded ((counter k).toInt + rtpHdrSize).toNat bitstreamSize)).take
        bitstreamSize =
      slice s.env.encoded (rtpHdrSize + bitstreamSize * k) bitstreamSize := by
    have hslice : (slice s.env.encoded (rtpHdrSize + bitstreamSize * k) bitstreamSize).length =
        bitstreamSize := length_slice (by rw [Nat.mul_succ] at hin; omega)
    rw [hstart, h.encoded, splice, List.take_zero, List.nil_append, List.take_left' hslice]
  simp only [hpacket, h.decState]
  have hout := D.length_decode (decodedFrames D s.decState s.env.encoded k).1
    (slice s.env.encoded (rtpHdrSize + bitstreamSize * k) bitstreamSize)
  rw [Jni.setShortArrayRegion_of_le (by omega) (by omega) (by rw [hpos, hlen, hlength]; omega)]
  have hcopy := @map_memory behind (D.decode
    (decodedFrames D s.decState s.env.encoded k).1
    (slice s.env.encoded (rtpHdrSize + bitstreamSize * k) bitstreamSize)).2
  rw [hout] at hcopy
  have hsplice := splice_splice (l := (decodedFrames D s.decState s.env.encoded k).2)
    (m := (D.decode (decodedFrames D s.decState s.env.encoded k).1
      (slice s.env.encoded (rtpHdrSize + bitstreamSize * k) bitstreamSize)).2)
    (Nat.zero_le s.env.lin.length)
  rw [hframes, Nat.zero_add] at hsplice
  refine ⟨h.encoded, ?_, h.pending, rfl, ?_⟩
  · show splice t.env.lin _ _ = _
    rw [hlen, Int.toNat_natCast, hcopy, hpos, h.lin]
    exact hsplice
  · show (t.linPos.toInt32 + len).toInt = _
    rw [Int32.toInt_add, hpos, hlen, Int.bmod_eq_of_le (by omega) (by omega), Nat.cast_succ,
      Int.mul_add, Int.mul_one]

theorem foldl_written (hlen : len.toInt = n) (hs : s.linPos = 0) (hk : k ≤ 12)
    (hin : rtpHdrSize + bitstreamSize * k ≤ s.env.encoded.length)
    (hlin : n * k ≤ s.env.lin.length) (hint : n * k < 2 ^ 31) :
    Written D s ((List.range k).foldl (fun s j => frame D len behind (counter j) s) s) k := by
  induction k with
  | zero =>
    refine ⟨rfl, ?_, rfl, rfl, ?_⟩
    · rw [decodedFrames, splice_nil, List.range_zero, List.foldl_nil]
    · rw [List.range_zero, List.foldl_nil, hs]
      exact (Int.mul_zero _).symm
  | succ k ih =>
    have hmul : n * k ≤ n * (k + 1) := Nat.mul_le_mul_left n (Nat.le_succ k)
    rw [List.range_succ, List.foldl_append, List.foldl_cons, List.foldl_nil]
    exact frame_written hlen
      (ih (by omega) (by rw [Nat.mul_succ] at hin; omega) (by omega) (by omega)) (by omega) hin
      hlin hint

/-- A payload of `k` frames is decoded in `k` passes. -/
theorem loop_frames (hsize : size.toInt = bitstreamSize * k) (hk : k ≤ 12) {t : Decoding δ} :
    loop size (frame D len behind) (k + 1) (counter 0) t =
      some ((List.range k).foldl (fun s j => frame D len behind (counter j) s) t) := by
  rw [bitstreamSize] at hsize
  rw [loop_eq_foldl (by omega) (by omega) fun m hm => by omega]
  simp only [Nat.zero_add]

/-- When each copy has the size of a frame, the samples of up to twelve frames are there. -/
theorem decode_eq_frames (hopen : codecOpen ≠ 0) (hlen : len.toInt = n)
    (hsize : size.toInt = bitstreamSize * k) (hk : k ≤ 12)
    (hin : rtpHdrSize + bitstreamSize * k ≤ s.env.encoded.length)
    (hlin : n * k ≤ s.env.lin.length) (hint : n * k < 2 ^ 31) :
    ∃ fuel r ret, decode D len behind codecOpen s size fuel = some (r, ret) ∧
      r.env.pending = s.env.pending ∧
      r.env.lin = splice s.env.lin 0 (decodedFrames D s.decState s.env.encoded k).2 ∧
      ret.toInt = n * k := by
  have hw := @foldl_written _ _ D len behind { s with linPos := 0 } k hlen rfl hk hin hlin hint
  exact ⟨k + 1, _, _, (decode_eq_some_iff hopen).mpr ⟨_, loop_frames hsize hk, rfl⟩, hw.pending,
    hw.lin, hw.linPos⟩

/-- What an open codec returns for a payload of whole frames. -/
theorem decode_ret (hopen : codecOpen ≠ 0) (hlen : 0 ≤ len.toInt)
    (hsize : size.toInt = bitstreamSize * k) {fuel : ℕ} {r : Decoding δ} {ret : Int32}
    (hr : decode D len behind codecOpen s size fuel = some (r, ret)) :
    k ≤ 12 ∧ (k * len.toInt < 2 ^ 31 → ret.toInt = k * len.toInt) := by
  obtain ⟨t, ht, hret⟩ := (decode_eq_some_iff hopen).mp hr
  have h126 := exists_loop_iff.mp ⟨fuel, t, ht⟩
  rw [hsize, bitstreamSize] at h126
  have hk : k ≤ 12 := by omega
  refine ⟨hk, fun h => ?_⟩
  obtain ⟨-, rfl⟩ := Prod.mk.inj hret
  have hsame := loop_unique ht (loop_frames hsize hk)
  rw [hsame]
  exact linPos_foldl rfl hlen h

end

/-- **The samples of `BV16.decode` are the decoded frames for no frame and for four frames.**  The
size of a copy is that of the payload, which is the one of a frame for four packets only. -/
theorem bv16Decode_eq_frames_iff (D : Decoder δ frsz) (behind : ℕ → Int16) (codecOpen : Int32)
    (s : Decoding δ) {k : ℕ} {size : Int32} (hsize : size.toInt = bitstreamSize * k)
    (hin : rtpHdrSize + bitstreamSize * k ≤ s.env.encoded.length)
    (hlin : frsz * k ≤ s.env.lin.length) :
    (∃ fuel r ret, bv16Decode D behind codecOpen s size fuel = some (r, ret) ∧
        r.env.pending = s.env.pending ∧
        r.env.lin = splice s.env.lin 0 (decodedFrames D s.decState s.env.encoded k).2 ∧
        ret.toInt = frsz * k) ↔
      k = 0 ∨ k = 4 ∧ codecOpen ≠ 0 := by
  constructor
  · rintro ⟨fuel, r, ret, hr, -, -, hret⟩
    by_cases hopen : codecOpen = 0
    · rw [bv16Decode, decode_of_closed hopen] at hr
      obtain ⟨-, rfl⟩ := Prod.mk.inj (Option.some_inj.mp hr)
      rw [frsz, Int32.toInt_zero] at hret
      omega
    · rw [bitstreamSize] at hsize
      obtain ⟨hk, hlen⟩ := decode_ret hopen (by omega) hsize hr
      rw [hsize] at hlen
      rw [frsz] at hret
      -- `k` copies of `10*k` samples are `40*k` samples
      have hfour : k = 0 ∨ k = 4 := by interval_cases k <;> omega
      exact hfour.imp_right fun h => ⟨h, hopen⟩
  · rintro (rfl | ⟨rfl, hopen⟩)
    · by_cases hopen : codecOpen = 0
      · refine ⟨0, s, 0, decode_of_closed hopen, rfl, ?_, rfl⟩
        rw [decodedFrames, splice_nil]
      · exact ⟨1, _, _, (decode_eq_some_iff hopen).mpr ⟨_, loop_frames hsize (by omega), rfl⟩, rfl,
          (splice_nil).symm, rfl⟩
    · exact decode_eq_frames (k := 4) hopen hsize hsize (by omega) hin hlin (by decide)

theorem bv16Decode_four :
    ∃ fuel r ret, bv16Decode (ones frsz) (fun _ => 0) 1 (sampleCall 40 160) 40 fuel =
        some (r, ret) ∧
      r.env.pending = false ∧
      r.env.lin = splice (sampleCall 40 160).env.lin 0
        (decodedFrames (ones frsz) () (sampleCall 40 160).env.encoded 4).2 ∧
      ret.toInt = frsz * 4 :=
  (bv16Decode_eq_frames_iff (ones frsz) (fun _ => 0) 1 (sampleCall 40 160) (k := 4) rfl
    List.length_replicate.ge List.length_replicate.ge).mpr (Or.inr ⟨rfl, by decide⟩)

/-- Of a payload of one packet ten samples are counted. -/
theorem bv16Decode_one :
    ¬ ∃ fuel r ret, bv16Decode (ones frsz) (fun _ => 0) 1 (sampleCall 10 40) 10 fuel =
        some (r, ret) ∧
      r.env.lin = splice (sampleCall 10 40).env.lin 0
        (decodedFrames (ones frsz) () (sampleCall 10 40).env.encoded 1).2 ∧
      ret.toInt = frsz * 1 := by
  rintro ⟨fuel, r, ret, hr, -, hret⟩
  have hten := (decode_ret (k := 1) (by decide) (by decide) rfl hr).2 (by decide)
  exact absurd (hret.symm.trans hten) (by decide)

/-- **`G729.decode` puts up to twelve frames one after the other.** -/
theorem g729Decode_eq_frames_iff (D : Decoder δ lFrame) (behind : ℕ → Int16) (codecOpen : Int32)
    (s : Decoding δ) {k : ℕ} {size : Int32} (hsize : size.toInt = bitstreamSize * k)
    (hin : rtpHdrSize + bitstreamSize * k ≤ s.env.encoded.length)
    (hlin : lFrame * k ≤ s.env.lin.length) :
    (∃ fuel r ret, g729Decode D behind codecOpen s size fuel = some (r, ret) ∧
        r.env.pending = s.env.pending ∧
        r.env.lin = splice s.env.lin 0 (decodedFrames D s.decState s.env.encoded k).2 ∧
        ret.toInt = lFrame * k) ↔
      k = 0 ∨ k ≤ 12 ∧ codecOpen ≠ 0 := by
  by_cases hopen : codecOpen = 0
  · constructor
    · rintro ⟨fuel, r, ret, hr, -, -, hret⟩
      rw [g729Decode, decode_of_closed hopen] at hr
      obtain ⟨-, rfl⟩ := Prod.mk.inj (Option.some_inj.mp hr)
      rw [lFrame, Int32.toInt_zero] at hret
      omega
    · rintro (rfl | ⟨-, hne⟩)
      · refine ⟨0, s, 0, decode_of_closed hopen, rfl, ?_, rfl⟩
        rw [decodedFrames, splice_nil]
      · exact absurd hopen hne
  · constructor
    · rintro ⟨fuel, r, ret, hr, -⟩
      exact Or.inr ⟨(decode_ret hopen (by decide) hsize hr).1, hopen⟩
    · intro h
      have hk : k ≤ 12 := by omega
      exact decode_eq_frames hopen rfl hsize hk hin hlin (by rw [lFrame]; omega)

end Codec
end SoftPhone
