import Mathlib.Tactic.Common
import SoftPhone.Machine.Run
import SoftPhone.Util.Arrays

/-!
# The encoder in front of a stream

`BufferedInputEncoder` reads its inner stream in chunks, has each chunk encoded into a buffer, and gives
the buffer out byte by byte.  `read()` returns the byte as it is stored, with its sign, and `-1` when a
chunk was encoded to nothing; `read(buff,off,len)` calls `read()` as long as it is not negative, and
returns the index behind the last byte.

The inner stream and the encoder are parameters.

* `read_cases`: what `read()` gives, for every state.
* `readLoop_spec`: a bulk read keeps all bytes when none of them is negative.
* `transparent_iff`: when the reads give the outputs of the encoder.
-/

namespace SoftPhone
namespace Encoding

open Arrays Words Machine

/-! ## The parts from outside -/

/-- An `InputStream`: `read(b,0,n)` puts some bytes into `b`, or finds the end of the stream. -/
structure InputStream (σ : Type*) where
  read : σ → ℕ → σ × Option (List UInt8)
  length_le : ∀ s n, ∀ l ∈ (read s n).2, l.length ≤ n

/-- An `Encoder`: `encode(in_buf,in_off,in_len,out_buf,out_off)` leaves an array with the output data in
it, and returns the length of the output data. -/
structure Encoder (τ : Type*) where
  encode : τ → List UInt8 → ℤ → ℤ → List UInt8 → ℤ → (τ × List UInt8) × ℤ
  length_eq : ∀ t inBuf inOff inLen outBuf outOff,
    (encode t inBuf inOff inLen outBuf outOff).1.2.length = outBuf.length
  size_le : ∀ t inBuf inOff inLen outBuf outOff, 0 ≤ outOff → outOff ≤ outBuf.length →
    outOff + (encode t inBuf inOff inLen outBuf outOff).2 ≤ outBuf.length
  size_nonneg : ∀ t inBuf inOff inLen outBuf outOff, 0 ≤ inLen →
    0 ≤ (encode t inBuf inOff inLen outBuf outOff).2

/-! ## The methods -/

/-- The fields of a `BufferedInputEncoder`, with the states of its inner stream and of its encoder. -/
structure BufferedInputEncoder (σ τ : Type*) where
  is : σ
  encoder : τ
  readingBuffer : List UInt8
  encodedBuffer : List UInt8
  bufferIndex : ℤ
  bufferSize : ℤ

namespace BufferedInputEncoder

variable {σ τ : Type*} (input : InputStream σ) (codec : Encoder τ)

/-- `new BufferedInputEncoder(is,encoder,reading_size,encoded_size)`. -/
def new (is : σ) (encoder : τ) (readingSize encodedSize : ℕ) : BufferedInputEncoder σ τ :=
  ⟨is, encoder, List.replicate readingSize 0, List.replicate encodedSize 0, 0, 0⟩

/-- The next chunk is read and encoded. -/
def refill (e : BufferedInputEncoder σ τ) : BufferedInputEncoder σ τ :=
  let chunk := input.read e.is e.readingBuffer.length
  let readingBuffer := splice e.readingBuffer 0 (chunk.2.getD [])
  let len : ℤ := chunk.2.elim (-1) fun l => l.length
  let done := codec.encode e.encoder readingBuffer 0 len e.encodedBuffer 0
  ⟨chunk.1, done.1.1, readingBuffer, done.1.2, 0, done.2⟩

/-- `return encoded_buffer[buffer_index++]`, as a byte with its sign. -/
def take (e : BufferedInputEncoder σ τ) : BufferedInputEncoder σ τ × Option ℤ :=
  ({ e with bufferIndex := e.bufferIndex + 1 },
    (load e.encodedBuffer e.bufferIndex).map fun b => b.toInt8.toInt)

/-- `read()`: the state that it leaves, and what it returns; `none` when it has thrown. -/
def read (e : BufferedInputEncoder σ τ) : BufferedInputEncoder σ τ × Option ℤ :=
  if e.bufferIndex = e.bufferSize then
    let e := refill input codec e
    if e.bufferSize ≤ 0 then (e, some (-1)) else e.take
  else e.take

/-- The loop of `read(buff,off,len)`, with the number of passes that `i<end` and `i<buff.length` leave:
the state and the array that it leaves, and what is returned. -/
def readLoop :
    ℕ → BufferedInputEncoder σ τ → List UInt8 → ℤ →
      (BufferedInputEncoder σ τ × List UInt8) × Option ℤ
  | 0, e, buff, i => ((e, buff), some i)
  | k + 1, e, buff, i =>
    match e.read input codec with
    | (e, none) => ((e, buff), none)
    | (e, some b) =>
      if b < 0 then ((e, buff), some i)
      else
        match store buff i (UInt8.ofInt b) with
        | none => ((e, buff), none)
        | some buff => readLoop k e buff (i + 1)

/-- The places from `off` on that are before `end=off+len` and in the array. -/
def passes (buff : List UInt8) (off len : ℤ) : ℕ := (min (int32 (off + len)) buff.length - off).toNat

/-- `read(buff,off,len)`. -/
def readBytes (e : BufferedInputEncoder σ τ) (buff : List UInt8) (off len : ℤ) :
    (BufferedInputEncoder σ τ × List UInt8) × Option ℤ :=
  readLoop input codec (passes buff off len) e buff off

/-- The calls that read. -/
inductive Call where
  | read
  | readBytes (buff : List UInt8) (off len : ℤ)

/-- The state after a call. -/
def step (e : BufferedInputEncoder σ τ) : Call → BufferedInputEncoder σ τ
  | .read => (e.read input codec).1
  | .readBytes buff off len => (e.readBytes input codec buff off len).1.1

/-! ## What the calls give -/

/-- The bytes in the buffer that were not given out. -/
def unread (e : BufferedInputEncoder σ τ) : List UInt8 :=
  slice e.encodedBuffer e.bufferIndex.toNat (e.bufferSize - e.bufferIndex).toNat

/-- The state in which a byte is taken, if there is one. -/
def filled (e : BufferedInputEncoder σ τ) : BufferedInputEncoder σ τ :=
  if e.bufferIndex = e.bufferSize then refill input codec e else e

/-- What the encoder puts out during a `read()`. -/
def fetched (e : BufferedInputEncoder σ τ) : List UInt8 :=
  if e.bufferIndex = e.bufferSize then (refill input codec e).unread else []

/-- `read()` finds the end: the buffer is used up, the inner stream is at its end, and nothing comes
from the encoder any more. -/
def AtEnd (e : BufferedInputEncoder σ τ) : Prop :=
  e.bufferIndex = e.bufferSize ∧ (input.read e.is e.readingBuffer.length).2 = none ∧
    (refill input codec e).bufferSize ≤ 0

instance (e : BufferedInputEncoder σ τ) : Decidable (AtEnd input codec e) :=
  inferInstanceAs (Decidable (_ ∧ _ ∧ _))

/-- The bytes that a bulk read stores, in order. -/
def stored : ℕ → BufferedInputEncoder σ τ → ℤ → List UInt8
  | 0, _, _ => []
  | k + 1, e, i =>
    match e.read input codec with
    | (_, none) => []
    | (e, some b) => if b < 0 ∨ i < 0 then [] else UInt8.ofInt b :: stored k e (i + 1)

/-- The states in which a bulk read calls `read()`. -/
def reads : ℕ → BufferedInputEncoder σ τ → ℤ → List (BufferedInputEncoder σ τ)
  | 0, _, _ => []
  | k + 1, e, i =>
    e ::
      match e.read input codec with
      | (_, none) => []
      | (e, some b) => if b < 0 ∨ i < 0 then [] else reads k e (i + 1)

/-- The next bytes from the buffer and from the encoder, at most `k`, as far as no chunk is encoded to
nothing. -/
def upcoming : ℕ → BufferedInputEncoder σ τ → List UInt8
  | 0, _ => []
  | k + 1, e =>
    match (filled input codec e).unread with
    | [] => []
    | b :: _ => b :: upcoming k (filled input codec e).take.1

/-! ## A byte and its sign -/

theorem toInt_toInt8 (b : UInt8) :
    b.toInt8.toInt = if b.toNat < 128 then (b.toNat : ℤ) else b.toNat - 256 := by
  have hlt := b.toNat_lt
  have hbmod : b.toInt8.toInt = (b.toNat : ℤ).bmod 256 := BitVec.toInt_eq_toNat_bmod b.toBitVec
  rw [hbmod, Int.bmod_def]
  split <;> split <;> omega

/-- The sign of a byte is its highest bit. -/
theorem toInt_neg_iff (b : UInt8) : b.toInt8.toInt < 0 ↔ ¬ b < 128 := by
  have hlt := b.toNat_lt
  rw [toInt_toInt8, UInt8.lt_iff_toNat_lt]
  show _ ↔ ¬ b.toNat < 128
  split <;> omega

theorem ofInt_toInt8 (b : UInt8) : UInt8.ofInt b.toInt8.toInt = b := by
  rw [← UInt8.toNat_inj, UInt8.ofInt, UInt8.toNat_ofNat', toInt_toInt8]
  have hlt := b.toNat_lt
  split <;> omega

/-! ## A single read -/

section

variable {input : InputStream σ} {codec : Encoder τ} {e : BufferedInputEncoder σ τ}

/-- The buffer holds the bytes up to its size, and the index is among them or behind them. -/
structure Inv (e : BufferedInputEncoder σ τ) : Prop where
  index_nonneg : 0 ≤ e.bufferIndex
  index_le : e.bufferIndex ≤ e.bufferSize
  size_le : e.bufferSize ≤ e.encodedBuffer.length

theorem new_inv (is : σ) (encoder : τ) (readingSize encodedSize : ℕ) :
    (new is encoder readingSize encodedSize).Inv :=
  ⟨le_rfl, le_rfl, Int.natCast_nonneg _⟩

theorem refill_size_le :
    (refill input codec e).bufferSize ≤ (refill input codec e).encodedBuffer.length := by
  have hlen := codec.length_eq e.encoder
    (splice e.readingBuffer 0 ((input.read e.is e.readingBuffer.length).2.getD [])) 0
    ((input.read e.is e.readingBuffer.length).2.elim (-1) fun l => l.length) e.encodedBuffer 0
  have hsize := codec.size_le e.encoder
    (splice e.readingBuffer 0 ((input.read e.is e.readingBuffer.length).2.getD [])) 0
    ((input.read e.is e.readingBuffer.length).2.elim (-1) fun l => l.length) e.encodedBuffer 0
    le_rfl (Int.natCast_nonneg _)
  rw [zero_add, ← hlen] at hsize
  exact hsize

theorem refill_inv (h : 0 ≤ (refill input codec e).bufferSize) : (refill input codec e).Inv :=
  ⟨le_rfl, h, refill_size_le⟩

/-- What comes from a chunk has a length that is not negative. -/
theorem refill_size_nonneg (h : (input.read e.is e.readingBuffer.length).2 ≠ none) :
    0 ≤ (refill input codec e).bufferSize := by
  refine codec.size_nonneg _ _ _ _ _ _ ?_
  cases hchunk : (input.read e.is e.readingBuffer.length).2 with
  | none => exact absurd hchunk h
  | some l => exact Int.natCast_nonneg l.length

theorem unread_of_le (h : e.bufferSize ≤ e.bufferIndex) : e.unread = [] := by
  have hzero : (e.bufferSize - e.bufferIndex).toNat = 0 := by omega
  rw [unread, hzero, slice_zero]

/-- A byte of the buffer is taken. -/
theorem take_spec (h : e.Inv) (hlt : e.bufferIndex < e.bufferSize) :
    ∃ b, e.unread = b :: e.take.1.unread ∧ e.take = (e.take.1, some b.toInt8.toInt) ∧
      e.take.1.Inv := by
  obtain ⟨n, hn⟩ := Int.eq_ofNat_of_zero_le h.index_nonneg
  have hsize := h.size_le
  have hlen : n < e.encodedBuffer.length := by omega
  refine ⟨e.encodedBuffer[n], ?_, ?_, ⟨?_, hlt, h.size_le⟩⟩
  · have hleft : (e.bufferSize - e.bufferIndex).toNat =
        (e.bufferSize - (e.bufferIndex + 1)).toNat + 1 := by omega
    have hnext : (e.bufferIndex + 1).toNat = n + 1 := by omega
    rw [unread, hleft, hn, Int.toNat_natCast, slice_succ hlen, ← hn]
    show _ = _ :: slice e.encodedBuffer (e.bufferIndex + 1).toNat _
    rw [hnext]
    rfl
  · rw [take, hn, load_natCast hlen, Option.map_some]
  · show 0 ≤ e.bufferIndex + 1
    omega

/-- What is left in the buffer and what is fetched are what a byte is taken from. -/
theorem unread_append_fetched :
    e.unread ++ e.fetched input codec = (e.filled input codec).unread := by
  rw [fetched, filled]
  split
  · next heq => rw [unread_of_le heq.ge, List.nil_append]
  · rw [List.append_nil]

/-- **A single read**: it finds nothing, or it takes the first byte and returns it with its sign. -/
theorem read_cases (input : InputStream σ) (codec : Encoder τ) (h : e.Inv) :
    ((e.filled input codec).unread = [] ∧ e.bufferIndex = e.bufferSize ∧
        (refill input codec e).bufferSize ≤ 0 ∧
        e.read input codec = (refill input codec e, some (-1))) ∨
      ∃ b, (e.filled input codec).unread = b :: (e.filled input codec).take.1.unread ∧
        e.read input codec = ((e.filled input codec).take.1, some b.toInt8.toInt) ∧
        (e.filled input codec).take.1.Inv := by
  by_cases heq : e.bufferIndex = e.bufferSize
  · have hfilled : e.filled input codec = refill input codec e := if_pos heq
    rw [read, if_pos heq, hfilled]
    by_cases hsize : (refill input codec e).bufferSize ≤ 0
    · exact .inl ⟨unread_of_le hsize, heq, hsize, if_pos hsize⟩
    · have hpos := not_le.mp hsize
      obtain ⟨b, hunread, htake, hinv⟩ := take_spec (refill_inv hpos.le) hpos
      exact .inr ⟨b, hunread, (if_neg hsize).trans htake, hinv⟩
  · have hfilled : e.filled input codec = e := if_neg heq
    obtain ⟨b, hunread, htake, hinv⟩ := take_spec h (lt_of_le_of_ne h.index_le heq)
    rw [read, if_neg heq, hfilled]
    exact .inr ⟨b, hunread, htake, hinv⟩

/-! ## A bulk read -/

variable {e' : BufferedInputEncoder σ τ} {buff : List UInt8} {k : ℕ} {i v : ℤ}

/-- The loop stops at a value below 0. -/
theorem pass_of_neg (hread : e.read input codec = (e', some v)) (hv : v < 0) (k : ℕ)
    (buff : List UInt8) (i : ℤ) :
    readLoop input codec (k + 1) e buff i = ((e', buff), some i) ∧
      stored input codec (k + 1) e i = [] ∧ reads input codec (k + 1) e i = [e] := by
  refine ⟨?_, ?_, ?_⟩
  · rw [readLoop, hread]
    exact if_pos hv
  · rw [stored, hread]
    exact if_pos (.inl hv)
  · rw [reads, hread]
    exact congrArg (e :: ·) (if_pos (.inl hv))

/-- Any other value is stored as a byte. -/
theorem pass_of_nonneg (hread : e.read input codec = (e', some v)) (hv : 0 ≤ v) (hi : 0 ≤ i)
    (hlt : i < buff.length) :
    readLoop input codec (k + 1) e buff i =
        readLoop input codec k e' (splice buff i.toNat [UInt8.ofInt v]) (i + 1) ∧
      stored input codec (k + 1) e i = UInt8.ofInt v :: stored input codec k e' (i + 1) ∧
      reads input codec (k + 1) e i = e :: reads input codec k e' (i + 1) := by
  obtain ⟨n, rfl⟩ := Int.eq_ofNat_of_zero_le hi
  have hn : n < buff.length := by omega
  have hgoes : ¬ (v < 0 ∨ (n : ℤ) < 0) := by omega
  refine ⟨?_, ?_, ?_⟩
  · rw [readLoop, hread]
    simp only [if_neg hv.not_gt]
    rw [store_natCast hn, Int.toNat_natCast, splice_singleton hn]
  · rw [stored, hread]
    exact if_neg hgoes
  · rw [reads, hread]
    exact congrArg (e :: ·) (if_neg hgoes)

/-- What a bulk read with `k` places from `i` on does: what it returns, what it stores, when no byte is
lost, and that the buffer is in order unless the end was found. -/
structure LoopSpec (input : InputStream σ) (codec : Encoder τ) (k : ℕ)
    (e : BufferedInputEncoder σ τ) (buff : List UInt8) (i : ℤ) : Prop where
  value : (readLoop input codec k e buff i).2 = some (i + (stored input codec k e i).length)
  array : (readLoop input codec k e buff i).1.2 = splice buff i.toNat (stored input codec k e i)
  bytes : stored input codec k e i ++ (readLoop input codec k e buff i).1.1.unread =
      e.unread ++ (reads input codec k e i).flatMap (fetched input codec) ↔
    ∀ b ∈ upcoming input codec k e, b < 128
  inv : (∀ e' ∈ reads input codec k e i, ¬ AtEnd input codec e') →
    (readLoop input codec k e buff i).1.1.Inv

/-- There is no place left. -/
theorem LoopSpec.zero (h : e.Inv) : LoopSpec input codec 0 e buff i where
  value := congrArg some (add_zero i).symm
  array := splice_nil.symm
  bytes := iff_of_true (List.append_nil _).symm (List.forall_mem_nil _)
  inv _ := h

/-- Nothing comes. -/
theorem LoopSpec.nothing (hnil : (e.filled input codec).unread = [])
    (heq : e.bufferIndex = e.bufferSize) (hsize : (refill input codec e).bufferSize ≤ 0)
    (hread : e.read input codec = (refill input codec e, some (-1))) :
    LoopSpec input codec (k + 1) e buff i := by
  obtain ⟨hloop, hstored, hreads⟩ := pass_of_neg hread (by decide) k buff i
  have hupcoming : upcoming input codec (k + 1) e = [] := by rw [upcoming, hnil]
  constructor
  · rw [hloop, hstored]
    exact congrArg some (add_zero i).symm
  · rw [hloop, hstored, splice_nil]
  · rw [hupcoming, hloop, hstored, hreads, List.flatMap_singleton, unread_append_fetched, hnil]
    exact iff_of_true (unread_of_le hsize) (List.forall_mem_nil _)
  · intro hend
    rw [hreads] at hend
    rw [hloop]
    refine refill_inv (refill_size_nonneg fun hnone => ?_)
    exact hend e (List.mem_singleton_self e) ⟨heq, hnone, hsize⟩

/-- A byte comes that is returned as a value below 0. -/
theorem LoopSpec.negative {b : UInt8} (hb : b.toInt8.toInt < 0)
    (hunread : (e.filled input codec).unread = b :: (e.filled input codec).take.1.unread)
    (hread : e.read input codec = ((e.filled input codec).take.1, some b.toInt8.toInt))
    (hinv : (e.filled input codec).take.1.Inv) : LoopSpec input codec (k + 1) e buff i := by
  obtain ⟨hloop, hstored, hreads⟩ := pass_of_neg hread hb k buff i
  constructor
  · rw [hloop, hstored]
    exact congrArg some (add_zero i).symm
  · rw [hloop, hstored, splice_nil]
  · rw [hloop, hstored, hreads, List.flatMap_singleton, unread_append_fetched, upcoming, hunread]
    refine iff_of_false (List.cons_ne_self b _).symm fun hall => ?_
    exact (toInt_neg_iff b).mp hb (hall b (List.mem_cons_self ..))
  · intro _
    rw [hloop]
    exact hinv

/-- A byte comes, and the loop goes on. -/
theorem LoopSpec.more {b : UInt8} (hb : 0 ≤ b.toInt8.toInt) (hi : 0 ≤ i) (hlt : i < buff.length)
    (hunread : (e.filled input codec).unread = b :: (e.filled input codec).take.1.unread)
    (hread : e.read input codec = ((e.filled input codec).take.1, some b.toInt8.toInt))
    (hspec : LoopSpec input codec k (e.filled input codec).take.1 (splice buff i.toNat [b]) (i + 1)) :
    LoopSpec input codec (k + 1) e buff i := by
  obtain ⟨hloop, hstored, hreads⟩ := pass_of_nonneg (k := k) hread hb hi hlt
  rw [ofInt_toInt8] at hloop hstored
  have hlow : b < 128 := by
    by_contra hnot
    exact hb.not_gt ((toInt_neg_iff b).mpr hnot)
  constructor
  · rw [hloop, hstored, hspec.value, List.length_cons, Nat.cast_succ]
    congr 1
    omega
  · have hnext : (i + 1).toNat = i.toNat + [b].length := by
      rw [List.length_singleton]
      omega
    rw [hloop, hstored, hspec.array, hnext, splice_splice (by omega), List.singleton_append]
  · rw [hloop, hstored, hreads, List.flatMap_cons, ← List.append_assoc, unread_append_fetched,
      upcoming, hunread, List.cons_append, List.cons_append, List.cons_inj_right, hspec.bytes,
      List.forall_mem_cons]
    exact (and_iff_right hlow).symm
  · intro hend
    rw [hreads] at hend
    rw [hloop]
    exact hspec.inv fun e' he' => hend e' (List.mem_cons_of_mem e he')

/-- **The loop of a bulk read.** -/
theorem readLoop_spec (h : e.Inv) (hi : 0 ≤ i) (hfits : 0 < k → i + k ≤ buff.length) :
    LoopSpec input codec k e buff i := by
  induction k generalizing e buff i with
  | zero => exact .zero h
  | succ k ih =>
    have hle := hfits (Nat.succ_pos k)
    have hlt : i < buff.length := by omega
    rcases read_cases input codec h with
      ⟨hnil, heq, hsize, hread⟩ | ⟨b, hunread, hread, hinv⟩
    · exact .nothing hnil heq hsize hread
    rcases lt_or_ge b.toInt8.toInt 0 with hneg | hpos
    · exact .negative hneg hunread hread hinv
    · refine .more hpos hi hlt hunread hread (ih hinv (by omega) fun _ => ?_)
      have hlen : i.toNat + [b].length ≤ buff.length := by
        rw [List.length_singleton]
        omega
      rw [length_splice hlen]
      omega

end

/-! ## The calls -/

/-- The places that a call may fill: a single read is for one byte. -/
def Call.passes : Call → ℕ
  | .read => 1
  | .readBytes buff off len => BufferedInputEncoder.passes buff off len

/-- The first of the places. -/
def Call.off : Call → ℤ
  | .read => 0
  | .readBytes _ off _ => off

variable (e : BufferedInputEncoder σ τ) (call : Call)

/-- The bytes that the caller gets. -/
def obtained : List UInt8 := stored input codec call.passes e call.off

/-- What the encoder puts out for the chunks that are read in a call. -/
def encoded : List UInt8 :=
  (reads input codec call.passes e call.off).flatMap (fetched input codec)

/-- A call finds the end. -/
def FindsEnd : Prop := ∃ e' ∈ reads input codec call.passes e call.off, AtEnd input codec e'

instance : Decidable (FindsEnd input codec e call) := inferInstanceAs (Decidable (∃ _ ∈ _, _))

/-- What a call must return.  A single read: a byte from 0 to 255, or at the end a value below 0.  A bulk
read: the number of bytes that it has stored, and they are in the array from `off` on. -/
def Right (e : BufferedInputEncoder σ τ) : Call → Prop
  | .read =>
    ∃ v, (e.read input codec).2 = some v ∧ (0 ≤ v ∧ v ≤ 255 ∨ v < 0 ∧ AtEnd input codec e)
  | .readBytes buff off len =>
    (e.readBytes input codec buff off len).2 =
        some (obtained input codec e (.readBytes buff off len)).length ∧
      (e.readBytes input codec buff off len).1.2 =
        splice buff off.toNat (obtained input codec e (.readBytes buff off len))

/-- The condition of a call.  A single read: the next byte is below `0x80`, and something comes unless
it is the end.  A bulk read: the offset is zero, and all bytes that come for its places are below
`0x80`. -/
def Plain (e : BufferedInputEncoder σ τ) : Call → Prop
  | .read =>
    (∀ b ∈ upcoming input codec 1 e, b < 128) ∧
      (upcoming input codec 1 e = [] → AtEnd input codec e)
  | .readBytes buff off len =>
    off = 0 ∧ ∀ b ∈ upcoming input codec (passes buff off len) e, b < 128

/-- No byte is lost in a call. -/
def Keeps : Prop :=
  obtained input codec e call ++ (step input codec e call).unread =
    e.unread ++ encoded input codec e call

/-- The encoder is transparent in a run: what was obtained and what is still in the buffer are the
outputs of the encoder, after all the calls so far, and each call returns what it must. -/
structure Transparent (calls : List Call) : Prop where
  bytes : ∀ done, done <+: calls →
    outputs (step input codec) (obtained input codec) e done ++
        (run (step input codec) e done).unread =
      e.unread ++ outputs (step input codec) (encoded input codec) e done
  answers : Meets (step input codec) (Right input codec) e calls

section

variable {input : InputStream σ} {codec : Encoder τ} {e : BufferedInputEncoder σ τ}

/-- A single read is a bulk read for one place. -/
theorem readLoop_one (h : e.Inv) :
    (readLoop input codec 1 e [0] 0).1.1 = (e.read input codec).1 := by
  have hlt : (0 : ℤ) < ([0] : List UInt8).length := Int.zero_lt_one
  have hvalue : ∃ v, e.read input codec = ((e.read input codec).1, some v) := by
    rcases read_cases input codec h with
      ⟨-, -, -, hread⟩ | ⟨b, -, hread, -⟩
    · exact ⟨_, by rw [hread]⟩
    · exact ⟨_, by rw [hread]⟩
  obtain ⟨v, hread⟩ := hvalue
  rcases lt_or_ge v 0 with hneg | hpos
  · rw [(pass_of_neg hread hneg 0 [0] 0).1]
  · rw [(pass_of_nonneg hread hpos le_rfl hlt).1]
    rfl

/-- **When a single read is as it must be.** -/
theorem read_iff (h : e.Inv) :
    Keeps input codec e .read ∧ Right input codec e .read ↔ Plain input codec e .read := by
  have hspec : LoopSpec input codec 1 e [0] 0 := readLoop_spec h le_rfl fun _ => by decide
  have hkeeps : Keeps input codec e .read ↔ ∀ b ∈ upcoming input codec 1 e, b < 128 := by
    rw [← hspec.bytes, readLoop_one h]
    rfl
  rw [hkeeps]
  refine and_congr_right fun hlow => ?_
  rcases read_cases input codec h with
    ⟨hnil, -, -, hread⟩ | ⟨b, hunread, hread, -⟩
  · have hupcoming : upcoming input codec 1 e = [] := by rw [upcoming, hnil]
    constructor
    · rintro ⟨v, hv, hbyte | ⟨-, hend⟩⟩ -
      · rw [hread] at hv
        have hneg := Option.some.inj hv
        omega
      · exact hend
    · intro hend
      exact ⟨-1, by rw [hread], .inr ⟨by decide, hend hupcoming⟩⟩
  · have hupcoming : upcoming input codec 1 e = [b] := by
      rw [upcoming, hunread]
      rfl
    rw [hupcoming] at hlow ⊢
    have hb := hlow b (List.mem_singleton_self b)
    have hpos : 0 ≤ b.toInt8.toInt := not_lt.mp fun hneg => (toInt_neg_iff b).mp hneg hb
    have hle : b.toInt8.toInt ≤ 255 := by
      have hlt := b.toNat_lt
      rw [toInt_toInt8]
      split <;> omega
    refine iff_of_true ⟨b.toInt8.toInt, by rw [hread], .inl ⟨hpos, hle⟩⟩ fun hnil => ?_
    exact absurd hnil (List.cons_ne_nil b [])

theorem passes_fits {buff : List UInt8} {off len : ℤ} (h : 0 < passes buff off len) :
    off + passes buff off len ≤ buff.length := by
  rw [passes] at h ⊢
  omega

/-- At a place before the array nothing is stored, and the number that is returned, if there is one, is
the place. -/
theorem readLoop_of_neg (input : InputStream σ) (codec : Encoder τ) (e : BufferedInputEncoder σ τ)
    (k : ℕ) (buff : List UInt8) {i : ℤ} (hi : i < 0) :
    stored input codec k e i = [] ∧
      ((readLoop input codec k e buff i).2 = none ∨
        (readLoop input codec k e buff i).2 = some i) := by
  cases k with
  | zero => exact ⟨rfl, .inr rfl⟩
  | succ k =>
    rw [stored, readLoop]
    rcases e.read input codec with ⟨e', _ | v⟩
    · exact ⟨rfl, .inl rfl⟩
    · refine ⟨if_pos (.inr hi), ?_⟩
      have hstore : store buff i (UInt8.ofInt v) = none := if_neg fun hle => by omega
      simp only [hstore]
      split
      · exact .inr rfl
      · exact .inl rfl

/-- **When a bulk read is as it must be.** -/
theorem readBytes_iff (h : e.Inv) (buff : List UInt8) (off len : ℤ) :
    Keeps input codec e (.readBytes buff off len) ∧ Right input codec e (.readBytes buff off len) ↔
      Plain input codec e (.readBytes buff off len) := by
  have hoff (hright : Right input codec e (.readBytes buff off len)) : off = 0 := by
    have hvalue : (readLoop input codec (passes buff off len) e buff off).2 =
        some (stored input codec (passes buff off len) e off).length := hright.1
    rcases lt_or_ge off 0 with hneg | hpos
    · obtain ⟨hstored, hnone | hsome⟩ := readLoop_of_neg input codec e
        (passes buff off len) buff hneg
      · rw [hnone] at hvalue
        nomatch hvalue
      · rw [hsome, hstored] at hvalue
        exact Option.some.inj hvalue
    · rw [(readLoop_spec h hpos passes_fits).value] at hvalue
      have hsum := Option.some.inj hvalue
      omega
  constructor
  · rintro ⟨hkeeps, hright⟩
    obtain rfl := hoff hright
    exact ⟨rfl, (readLoop_spec h le_rfl passes_fits).bytes.mp hkeeps⟩
  · rintro ⟨rfl, hlow⟩
    have hspec : LoopSpec input codec (passes buff 0 len) e buff 0 :=
      readLoop_spec h le_rfl passes_fits
    exact ⟨hspec.bytes.mpr hlow, hspec.value.trans (congrArg some (zero_add _)), hspec.array⟩

/-- **When a call is as it must be.** -/
theorem call_iff (h : e.Inv) (call : Call) :
    Keeps input codec e call ∧ Right input codec e call ↔ Plain input codec e call := by
  cases call with
  | read => exact read_iff h
  | readBytes buff off len => exact readBytes_iff h buff off len

/-- **A call that does not find the end leaves the buffer in order.** -/
theorem step_inv (h : e.Inv) {call : Call} (hplain : Plain input codec e call)
    (hend : ¬ FindsEnd input codec e call) : (step input codec e call).Inv := by
  have hnot : ∀ e' ∈ reads input codec call.passes e call.off, ¬ AtEnd input codec e' :=
    fun e' he' hat => hend ⟨e', he', hat⟩
  cases call with
  | read =>
    have hspec : LoopSpec input codec 1 e [0] 0 := readLoop_spec h le_rfl fun _ => by decide
    rw [step, ← readLoop_one h]
    exact hspec.inv hnot
  | readBytes buff off len =>
    obtain ⟨rfl, -⟩ := hplain
    exact (readLoop_spec h le_rfl passes_fits).inv hnot

/-! ## Runs -/

/-- What was obtained and what is still in the buffer are the outputs after all calls, exactly when no
call loses a byte. -/
theorem bytes_iff (calls : List Call) :
    (∀ done, done <+: calls →
        outputs (step input codec) (obtained input codec) e done ++
            (run (step input codec) e done).unread =
          e.unread ++ outputs (step input codec) (encoded input codec) e done) ↔
      Meets (step input codec) (Keeps input codec) e calls := by
  induction calls generalizing e with
  | nil =>
    refine iff_of_true (fun done hdone => ?_) trivial
    rw [List.prefix_nil.mp hdone, outputs_nil, outputs_nil, List.append_nil]
    rfl
  | cons call calls ih =>
    rw [meets_cons, ← ih]
    constructor
    · intro h
      have hcall : Keeps input codec e call := by
        have hone := h [call] (List.cons_prefix_cons.mpr ⟨rfl, List.nil_prefix⟩)
        rwa [outputs_cons, outputs_nil, List.append_nil, outputs_cons, outputs_nil,
          List.append_nil] at hone
      refine ⟨hcall, fun done hdone => ?_⟩
      have hall := h (call :: done) (List.cons_prefix_cons.mpr ⟨rfl, hdone⟩)
      rw [outputs_cons, outputs_cons, run_cons, ← List.append_assoc, ← hcall, List.append_assoc,
        List.append_assoc] at hall
      exact List.append_cancel_left hall
    · rintro ⟨hcall, h⟩ done hdone
      cases done with
      | nil =>
        rw [outputs_nil, outputs_nil, List.append_nil]
        rfl
      | cons call' done =>
        obtain ⟨rfl, hrest⟩ := List.cons_prefix_cons.mp hdone
        rw [outputs_cons, outputs_cons, run_cons, List.append_assoc, h done hrest,
          ← List.append_assoc, hcall, List.append_assoc]

/-- The calls that are as they must be, when only the last one may find the end. -/
theorem meets_iff (h : e.Inv) (calls : List Call)
    (hend : Meets (step input codec) (fun e call => ¬ FindsEnd input codec e call) e
      calls.dropLast) :
    Meets (step input codec) (Keeps input codec) e calls ∧
        Meets (step input codec) (Right input codec) e calls ↔
      Meets (step input codec) (Plain input codec) e calls := by
  induction calls generalizing e with
  | nil => exact ⟨fun h => h.1, fun h => ⟨h, h⟩⟩
  | cons call calls ih =>
    rw [meets_cons, meets_cons, meets_cons, and_and_and_comm, call_iff h]
    refine and_congr_right fun hplain => ?_
    cases calls with
    | nil => exact ⟨fun h => h.1, fun h => ⟨h, h⟩⟩
    | cons next calls =>
      rw [List.dropLast_cons_cons, meets_cons] at hend
      exact ih (step_inv h hplain hend.1) hend.2

/-- **When the encoder is transparent**, for the reads before the end: only the last call of the run may
find it. -/
theorem transparent_iff (input : InputStream σ) (codec : Encoder τ) (is : σ) (encoder : τ)
    (readingSize encodedSize : ℕ) (calls : List Call)
    (hend : Meets (step input codec) (fun e call => ¬ FindsEnd input codec e call)
      (new is encoder readingSize encodedSize) calls.dropLast) :
    Transparent input codec (new is encoder readingSize encodedSize) calls ↔
      Meets (step input codec) (Plain input codec) (new is encoder readingSize encodedSize)
        calls := by
  rw [← meets_iff (new_inv is encoder readingSize encodedSize) calls hend]
  constructor
  · exact fun h => ⟨(bytes_iff calls).mp h.bytes, h.answers⟩
  · exact fun h => ⟨(bytes_iff calls).mpr h.1, h.2⟩

end

/-! ## A stream and an encoder -/

/-- A stream of the bytes of a list. -/
def listStream : InputStream (List UInt8) where
  read s n := if n = 0 ∨ s ≠ [] then (s.drop n, some (s.take n)) else (s, none)
  length_le s n l hl := by
    split at hl
    · obtain rfl := Option.some.inj hl
      exact List.length_take_le n s
    · nomatch hl

/-- The bytes that are copied, as far as there is room. -/
def copied (inBuf : List UInt8) (inOff inLen : ℤ) (outBuf : List UInt8) (outOff : ℤ) : List UInt8 :=
  (slice inBuf inOff.toNat inLen.toNat).take (outBuf.length - outOff.toNat)

theorem length_copied_le (inBuf : List UInt8) (inOff inLen : ℤ) (outBuf : List UInt8) (outOff : ℤ) :
    (copied inBuf inOff inLen outBuf outOff).length ≤ outBuf.length - outOff.toNat :=
  List.length_take_le ..

/-- The encoder that copies its input. -/
def copy : Encoder Unit where
  encode _ inBuf inOff inLen outBuf outOff :=
    (((), splice outBuf outOff.toNat (copied inBuf inOff inLen outBuf outOff)),
      (copied inBuf inOff inLen outBuf outOff).length)
  length_eq _ inBuf inOff inLen outBuf outOff := by
    have hle := length_copied_le inBuf inOff inLen outBuf outOff
    show (splice outBuf outOff.toNat _).length = outBuf.length
    rcases Nat.le_total outOff.toNat outBuf.length with hoff | hoff
    · exact length_splice (by omega)
    · have hnil : copied inBuf inOff inLen outBuf outOff = [] :=
        List.eq_nil_of_length_eq_zero (by omega)
      rw [hnil, splice_nil]
  size_le _ inBuf inOff inLen outBuf outOff hnonneg hle := by
    have hcopied := length_copied_le inBuf inOff inLen outBuf outOff
    show outOff + ((copied inBuf inOff inLen outBuf outOff).length : ℤ) ≤ outBuf.length
    omega
  size_nonneg _ inBuf inOff inLen outBuf outOff _ := Int.natCast_nonneg _

theorem forall_lt_of_all {l : List UInt8} (h : l.all (· < 128) = true) : ∀ b ∈ l, b < 128 :=
  fun b hb => of_decide_eq_true (List.all_eq_true.mp h b hb)

/-- Three bytes below `0x80` in chunks of two: a single read and a bulk read over the end of the first
chunk. -/
theorem transparent_three :
    Transparent listStream copy (new [1, 2, 3] () 2 2)
      [.read, .readBytes [0, 0, 0] 0 2] :=
  (transparent_iff listStream copy [1, 2, 3] () 2 2 [.read, .readBytes [0, 0, 0] 0 2]
    ⟨by decide, trivial⟩).mpr
    ⟨⟨forall_lt_of_all (by decide), by decide⟩, ⟨rfl, forall_lt_of_all (by decide)⟩, trivial⟩

/-- The byte `0x80` is returned as `-128`, and a bulk read loses it.  A bulk read with the offset 1
stores one byte and returns 2. -/
theorem not_transparent_sign :
    ¬ Transparent listStream copy (new [0x80, 1] () 2 2) [.read] ∧
      ¬ Transparent listStream copy (new [0x80, 1] () 2 2) [.readBytes [0, 0] 0 2] ∧
        ¬ Transparent listStream copy (new [1, 2] () 2 2) [.readBytes [0, 0] 1 1] := by
  refine ⟨fun h => ?_, fun h => ?_, fun h => ?_⟩
  · exact absurd (h.bytes _ (List.prefix_refl _)) (by decide)
  · exact absurd (h.bytes _ (List.prefix_refl _)) (by decide)
  · exact absurd h.answers.1.1 (by decide)

end BufferedInputEncoder
end Encoding
end SoftPhone
