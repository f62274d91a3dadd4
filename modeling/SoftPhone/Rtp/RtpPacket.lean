import SoftPhone.Util.Base64
import SoftPhone.Util.Words

/-!
# Class `RtpPacket`

The fields of the header of an RTP packet share the first two bytes of the buffer, or are words of
two or four bytes.  A getter takes a bit with `(b >> bit) == 1`, that is without a mask and with the
sign, so it sees the padding only if the version is zero, the extension only if the version and the
padding are zero, and no marker at all.

* `getLong_eq`, `setLong_eq`: a word is read and written as a number, whatever its sign.
* `header_eq`: the getters, as numbers.
* `header_set_iff`: when the getter returns the value after the setter, modulo `2 ^ w`, and every
  other getter what it returned before.
-/

namespace SoftPhone

open Base64 (toInt toByte store)

/-- Class `RtpPacket`. -/
structure RtpPacket where
  buffer : List UInt8
  length : ℤ
  deriving DecidableEq

namespace RtpPacket

/-! ## The static methods -/

/-- The loop of `getLong(data,begin,end)`, for `end-begin` bytes; none is an index out of range. -/
def getLongLoop (data : List UInt8) : ℕ → ℕ → BitVec 64 → Option (BitVec 64)
  | 0, _, n => some n
  | k + 1, i, n => do
    let b ← data[i]?
    getLongLoop data k (i + 1) ((n <<< 8) + (toInt b &&& 0xFF).signExtend 64)

/-- `getLong(data,begin,end)`. -/
def getLong (data : List UInt8) (first last : ℕ) : Option (BitVec 64) :=
  getLongLoop data (last - first) first 0

/-- The loop of `setLong(n,data,begin,end)`, from the last byte on. -/
def setLongLoop (first : ℕ) : ℕ → BitVec 64 → List UInt8 → Option (List UInt8)
  | 0, _, data => some data
  | k + 1, n, data => do
    let data ← store data (first + k) ⟨(n.srem 256).setWidth 8⟩
    setLongLoop first k (n.sshiftRight 8) data

/-- `setLong(n,data,begin,end)`. -/
def setLong (n : BitVec 64) (data : List UInt8) (first last : ℕ) : Option (List UInt8) :=
  setLongLoop first (last - first) n data

/-- `getInt(data,begin,end)`. -/
def getInt (data : List UInt8) (first last : ℕ) : Option (BitVec 32) :=
  (getLong data first last).map fun n => n.setWidth 32

/-- `setInt(n,data,begin,end)`. -/
def setInt (n : BitVec 32) (data : List UInt8) (first last : ℕ) : Option (List UInt8) :=
  setLong (n.signExtend 64) data first last

/-- `getBit(b,bit)`. -/
def getBit (b : UInt8) (bit : ℕ) : Bool := (toInt b).sshiftRight bit == 1

/-- `setBit(value,b,bit)`. -/
def setBit (value : Bool) (b : UInt8) (bit : ℕ) : UInt8 :=
  if value then toByte (toInt b ||| (1 <<< bit))
  else toByte ((toInt b ||| (1 <<< bit)) ^^^ (1 <<< bit))

/-! ## The fields of the header -/

section Fields

variable (p : RtpPacket)

/-- What the getters do: a packet of less than twelve bytes is broken. -/
def read {α : Type} (get : List UInt8 → Option α) (broken : α) : Option α :=
  if 12 ≤ p.length then get p.buffer else some broken

/-- What the setters do: a packet of less than twelve bytes is left as it is. -/
def write (set : List UInt8 → Option (List UInt8)) : Option RtpPacket :=
  if 12 ≤ p.length then (set p.buffer).map fun buffer => { p with buffer } else some p

/-- `buffer[i]=f(buffer[i])`. -/
def modify (i : ℕ) (f : UInt8 → UInt8) (data : List UInt8) : Option (List UInt8) := do
  let b ← data[i]?
  store data i (f b)

/-- `getVersion`. -/
def getVersion : Option (BitVec 32) :=
  p.read (fun buffer => buffer[0]?.map fun b => (toInt b).sshiftRight 6 &&& 0x03) 0

/-- `setVersion`. -/
def setVersion (v : BitVec 32) : Option RtpPacket :=
  p.write (modify 0 fun b => toByte ((toInt b &&& 0x3F) ||| ((v &&& 0x03) <<< 6)))

/-- `hasPadding`. -/
def hasPadding : Option Bool := p.read (fun buffer => buffer[0]?.map fun b => getBit b 5) false

/-- `setPadding`. -/
def setPadding (value : Bool) : Option RtpPacket := p.write (modify 0 fun b => setBit value b 5)

/-- `hasExtension`. -/
def hasExtension : Option Bool := p.read (fun buffer => buffer[0]?.map fun b => getBit b 4) false

/-- `setExtension`. -/
def setExtension (x : Bool) : Option RtpPacket := p.write (modify 0 fun b => setBit x b 4)

/-- `getCscrCount`. -/
def getCscrCount : Option (BitVec 32) :=
  p.read (fun buffer => buffer[0]?.map fun b => toInt b &&& 0x0F) 0

/-- `hasMarker`. -/
def hasMarker : Option Bool := p.read (fun buffer => buffer[1]?.map fun b => getBit b 7) false

/-- `setMarker`. -/
def setMarker (m : Bool) : Option RtpPacket := p.write (modify 1 fun b => setBit m b 7)

/-- `getPayloadType`. -/
def getPayloadType : Option (BitVec 32) :=
  p.read (fun buffer => buffer[1]?.map fun b => toInt b &&& 0x7F) (-1)

/-- `setPayloadType`. -/
def setPayloadType (pt : BitVec 32) : Option RtpPacket :=
  p.write (modify 1 fun b => toByte ((toInt b &&& 0x80) ||| (pt &&& 0x7F)))

/-- `getSequenceNumber`. -/
def getSequenceNumber : Option (BitVec 32) := p.read (fun buffer => getInt buffer 2 4) 0

/-- `setSequenceNumber`. -/
def setSequenceNumber (sn : BitVec 32) : Option RtpPacket :=
  p.write fun buffer => setInt sn buffer 2 4

/-- `getTimestamp`. -/
def getTimestamp : Option (BitVec 64) := p.read (fun buffer => getLong buffer 4 8) 0

/-- `setTimestamp`. -/
def setTimestamp (timestamp : BitVec 64) : Option RtpPacket :=
  p.write fun buffer => setLong timestamp buffer 4 8

/-- `getSscr`. -/
def getSscr : Option (BitVec 64) := p.read (fun buffer => getLong buffer 8 12) 0

/-- `setSscr`. -/
def setSscr (ssrc : BitVec 64) : Option RtpPacket :=
  p.write fun buffer => setLong ssrc buffer 8 12

/-- `init(ptype,seqn,timestamp,sscr)`. -/
def init (ptype seqn : BitVec 32) (timestamp sscr : BitVec 64) : Option RtpPacket := do
  let p ← p.setVersion 2
  let p ← p.setPayloadType ptype
  let p ← p.setSequenceNumber seqn
  let p ← p.setTimestamp timestamp
  p.setSscr sscr

/-- The constructor, with the random numbers of `init`. -/
def create (buffer : List UInt8) (packetLength : ℤ) (seqn : BitVec 32)
    (timestamp sscr : BitVec 64) : Option RtpPacket :=
  init { buffer, length := if packetLength < 12 then 12 else packetLength } 0x0F seqn timestamp sscr

/-- What the getters return. -/
structure Header where
  version : BitVec 32
  padding : Bool
  extension : Bool
  cscrCount : BitVec 32
  marker : Bool
  payloadType : BitVec 32
  sequenceNumber : BitVec 32
  timestamp : BitVec 64
  sscr : BitVec 64
  deriving DecidableEq

/-- All getters; none is an index out of range in one of them. -/
def header : Option Header := do
  some {
    version := ← p.getVersion
    padding := ← p.hasPadding
    extension := ← p.hasExtension
    cscrCount := ← p.getCscrCount
    marker := ← p.hasMarker
    payloadType := ← p.getPayloadType
    sequenceNumber := ← p.getSequenceNumber
    timestamp := ← p.getTimestamp
    sscr := ← p.getSscr }

/-- A setter, with its argument. -/
inductive Setting where
  | version (v : BitVec 32)
  | padding (value : Bool)
  | extension (x : Bool)
  | marker (m : Bool)
  | payloadType (pt : BitVec 32)
  | sequenceNumber (sn : BitVec 32)
  | timestamp (t : BitVec 64)
  | sscr (ssrc : BitVec 64)

/-- The setter is called. -/
def set : Setting → Option RtpPacket
  | .version v => p.setVersion v
  | .padding value => p.setPadding value
  | .extension x => p.setExtension x
  | .marker m => p.setMarker m
  | .payloadType pt => p.setPayloadType pt
  | .sequenceNumber sn => p.setSequenceNumber sn
  | .timestamp t => p.setTimestamp t
  | .sscr ssrc => p.setSscr ssrc

end Fields

/-- What the getters are expected to return after a setter: the value for its own field, modulo
`2 ^ w` where this has `w` bits, and the same as before for every other field. -/
def Header.update (h : Header) : Setting → Header
  | .version v => { h with version := v % 4 }
  | .padding value => { h with padding := value }
  | .extension x => { h with extension := x }
  | .marker m => { h with marker := m }
  | .payloadType pt => { h with payloadType := pt % 128 }
  | .sequenceNumber sn => { h with sequenceNumber := sn % 0x10000 }
  | .timestamp t => { h with timestamp := t % 0x100000000 }
  | .sscr ssrc => { h with sscr := ssrc % 0x100000000 }

/-! ## Words -/

section Words

open Words

theorem store_eq {data : List UInt8} {i : ℕ} (h : i < data.length) (b : UInt8) :
    store data i b = some (splice data i [b]) := by
  rw [store, if_pos h, splice_singleton h]

theorem signExtend_toInt (b : UInt8) : (toInt b &&& 0xFF).signExtend 64 = BitVec.ofNat 64 b.toNat := by
  have hall : ∀ n < 256, (toInt (UInt8.ofNat n) &&& 0xFF).signExtend 64 = BitVec.ofNat 64 n := by
    decide +kernel
  have hb := hall b.toNat b.toNat_lt
  rwa [UInt8.ofNat_toNat] at hb

theorem ofNat_shiftLeft (m : ℕ) : BitVec.ofNat 64 m <<< 8 = BitVec.ofNat 64 (m * 256) := by
  rw [BitVec.shiftLeft_eq_mul_twoPow, show BitVec.twoPow 64 8 = BitVec.ofNat 64 256 from rfl,
    ← BitVec.ofNat_mul]

/-- `(byte)(n % 256)`: the remainder has the sign of the number, and the byte has not. -/
theorem toNat_srem (n : BitVec 64) : ((n.srem 256).setWidth 8).toNat = n.toNat % 256 := by
  have h := BitVec.toInt_srem n 256
  rw [Int.tmod_def, show (256 : BitVec 64).toInt = 256 from rfl] at h
  have hsrem := BitVec.toInt_eq_toNat_cond (x := n.srem 256)
  have hn := BitVec.toInt_eq_toNat_cond (x := n)
  rw [BitVec.toNat_setWidth]
  omega

/-- `n >>= 8` keeps the sign, above the seven bytes that are left. -/
theorem toNat_sshiftRight (n : BitVec 64) : (n.sshiftRight 8).toNat % 256 ^ 7 = n.toNat / 256 := by
  have h := BitVec.toInt_sshiftRight (x := n) (n := 8)
  rw [Int.shiftRight_eq_div_pow] at h
  have hshift := BitVec.toInt_eq_toNat_cond (x := n.sshiftRight 8)
  have hn := BitVec.toInt_eq_toNat_cond (x := n)
  omega

variable {data : List UInt8} {first last k : ℕ}

theorem getLongLoop_eq (h : first + k ≤ data.length) (m : ℕ) :
    getLongLoop data k first (BitVec.ofNat 64 m) =
      some (BitVec.ofNat 64 (m * 256 ^ k + value (slice data first k))) := by
  induction k generalizing first m with
  | zero => rw [getLongLoop, pow_zero, Nat.mul_one, slice_zero, value_nil, Nat.add_zero]
  | succ k ih =>
    have hlt : first < data.length := by omega
    have hn : (BitVec.ofNat 64 m <<< 8) + (toInt data[first] &&& 0xFF).signExtend 64 =
        BitVec.ofNat 64 (m * 256 + data[first].toNat) := by
      rw [signExtend_toInt, ofNat_shiftLeft, BitVec.ofNat_add]
    rw [getLongLoop, List.getElem?_eq_getElem hlt]
    show getLongLoop data k (first + 1) _ = _
    rw [hn, ih (by omega), slice_succ hlt, value_cons, length_slice (by omega), pow_succ']
    congr 2
    ring

/-- **`getLong` returns the number that the bytes hold.** -/
theorem getLong_eq (hle : first ≤ last) (h : last ≤ data.length) :
    getLong data first last = some (BitVec.ofNat 64 (value (slice data first (last - first)))) := by
  have hloop : getLongLoop data (last - first) first (BitVec.ofNat 64 0) = _ :=
    getLongLoop_eq (by omega) 0
  rwa [Nat.zero_mul, Nat.zero_add] at hloop

theorem setLongLoop_eq (hk : k ≤ 8) (h : first + k ≤ data.length) (n : BitVec 64) :
    setLongLoop first k n data = some (splice data first (bytes k n.toNat)) := by
  induction k generalizing n data with
  | zero => rw [setLongLoop, bytes, splice_nil]
  | succ k ih =>
    have hbytes : bytes k (n.sshiftRight 8).toNat = bytes k (n.toNat / 256) := by
      refine bytes_congr ?_
      rw [← toNat_sshiftRight, Nat.mod_mod_of_dvd _ (pow_dvd_pow 256 (by omega))]
    have hbyte : (⟨(n.srem 256).setWidth 8⟩ : UInt8) = UInt8.ofNat n.toNat := by
      refine UInt8.toNat_inj.mp ?_
      rw [UInt8.toNat_ofNat']
      exact toNat_srem n
    rw [setLongLoop, store_eq (by omega), hbyte]
    show setLongLoop first k _ (splice data (first + k) [UInt8.ofNat n.toNat]) = _
    rw [ih (by omega) (by rw [length_splice (by rw [List.length_singleton]; omega)]; omega), hbytes,
      bytes]
    have hfit : first + (bytes k (n.toNat / 256)).length ≤ data.length := by
      rw [length_bytes]
      omega
    have hsplice := splice_splice_before hfit (m := [UInt8.ofNat n.toNat])
    rw [length_bytes] at hsplice
    rw [hsplice]

/-- **`setLong` writes the last bytes of the number, and nothing else.** -/
theorem setLong_eq (hle : first ≤ last) (hk : last ≤ first + 8) (h : last ≤ data.length)
    (n : BitVec 64) :
    setLong n data first last = some (splice data first (bytes (last - first) n.toNat)) :=
  setLongLoop_eq (by omega) (by omega) n

/-- `buffer[i]=f(buffer[i])`. -/
theorem modify_eq {i : ℕ} (h : i < data.length) (f : UInt8 → UInt8) :
    modify i f data = some (splice data i [f (data.getD i 0)]) := by
  rw [modify, List.getElem?_eq_getElem h, List.getD_eq_getElem data 0 h]
  exact store_eq h _

theorem value_slice_one {i : ℕ} (h : i < data.length) :
    value (slice data i 1) = (data.getD i 0).toNat := by
  rw [slice_succ h, slice_zero, value_singleton, List.getD_eq_getElem data 0 h]

end Words

/-! ## Bytes -/

section Bytes

theorem toInt_fields (b : UInt8) :
    (toInt b).sshiftRight 6 &&& 0x03 = BitVec.ofNat 32 (b.toNat / 64) ∧
    getBit b 5 = decide (b.toNat / 32 = 1) ∧ getBit b 4 = decide (b.toNat / 16 = 1) ∧
    toInt b &&& 0x0F = BitVec.ofNat 32 (b.toNat % 16) ∧ getBit b 7 = false ∧
    toInt b &&& 0x7F = BitVec.ofNat 32 (b.toNat % 128) := by
  have hall : ∀ n < 256, let b := UInt8.ofNat n
      (toInt b).sshiftRight 6 &&& 0x03 = BitVec.ofNat 32 (n / 64) ∧
      getBit b 5 = decide (n / 32 = 1) ∧ getBit b 4 = decide (n / 16 = 1) ∧
      toInt b &&& 0x0F = BitVec.ofNat 32 (n % 16) ∧ getBit b 7 = false ∧
      toInt b &&& 0x7F = BitVec.ofNat 32 (n % 128) := by
    decide +kernel
  have hb := hall b.toNat b.toNat_lt
  rwa [UInt8.ofNat_toNat] at hb

/-- A bit is set or cleared, and the others are left. -/
theorem toNat_setBit {bit : ℕ} (hbit : bit < 8) (value : Bool) (b : UInt8) :
    (setBit value b bit).toNat =
      b.toNat % 2 ^ bit + value.toNat * 2 ^ bit + b.toNat / 2 ^ (bit + 1) * 2 ^ (bit + 1) := by
  have hall : ∀ bit < 8, ∀ value : Bool, ∀ n < 256, (setBit value (UInt8.ofNat n) bit).toNat =
      n % 2 ^ bit + value.toNat * 2 ^ bit + n / 2 ^ (bit + 1) * 2 ^ (bit + 1) := by
    decide +kernel
  have hb := hall bit hbit value b.toNat b.toNat_lt
  rwa [UInt8.ofNat_toNat] at hb

theorem toNat_versionByte (b : UInt8) (v : BitVec 32) :
    (toByte ((toInt b &&& 0x3F) ||| ((v &&& 0x03) <<< 6))).toNat =
      b.toNat % 64 + v.toNat % 4 * 64 := by
  have hall : ∀ n < 256, ∀ m < 4,
      (toByte ((toInt (UInt8.ofNat n) &&& 0x3F) ||| (BitVec.ofNat 32 m <<< 6))).toNat =
        n % 64 + m * 64 := by
    decide +kernel
  have hv : v &&& 0x03 = BitVec.ofNat 32 (v.toNat % 4) := by
    refine BitVec.eq_of_toNat_eq ?_
    rw [BitVec.toNat_and, BitVec.toNat_ofNat]
    refine (Nat.and_two_pow_sub_one_eq_mod v.toNat 2).trans ?_
    omega
  have hb := hall b.toNat b.toNat_lt (v.toNat % 4) (by omega)
  rwa [UInt8.ofNat_toNat, ← hv] at hb

theorem toNat_payloadTypeByte (b : UInt8) (pt : BitVec 32) :
    (toByte ((toInt b &&& 0x80) ||| (pt &&& 0x7F))).toNat =
      b.toNat / 128 * 128 + pt.toNat % 128 := by
  have hmarker : ∀ n < 256, toInt (UInt8.ofNat n) &&& 0x80 = BitVec.ofNat 32 (n / 128 * 128) := by
    decide +kernel
  have hall : ∀ n < 2, ∀ m < 128,
      (toByte (BitVec.ofNat 32 (n * 128) ||| BitVec.ofNat 32 m)).toNat = n * 128 + m := by
    decide +kernel
  have hpt : pt &&& 0x7F = BitVec.ofNat 32 (pt.toNat % 128) := by
    refine BitVec.eq_of_toNat_eq ?_
    rw [BitVec.toNat_and, BitVec.toNat_ofNat]
    refine (Nat.and_two_pow_sub_one_eq_mod pt.toNat 7).trans ?_
    omega
  have hlt := b.toNat_lt
  have hb := hmarker b.toNat hlt
  rw [UInt8.ofNat_toNat] at hb
  rw [hb, hpt]
  exact hall _ (by omega) _ (by omega)

end Bytes

/-! ## The header as numbers -/

section Numbers

open Words

/-- What the getters return, by the first two bytes and the words. -/
def Header.ofNumbers (b0 b1 sn ts ss : ℕ) : Header where
  version := BitVec.ofNat 32 (b0 / 64)
  padding := decide (b0 / 32 = 1)
  extension := decide (b0 / 16 = 1)
  cscrCount := BitVec.ofNat 32 (b0 % 16)
  marker := false
  payloadType := BitVec.ofNat 32 (b1 % 128)
  sequenceNumber := BitVec.ofNat 32 sn
  timestamp := BitVec.ofNat 64 ts
  sscr := BitVec.ofNat 64 ss

/-- What the getters return, by the buffer. -/
def Header.ofBuffer (buffer : List UInt8) : Header :=
  .ofNumbers (buffer.getD 0 0).toNat (buffer.getD 1 0).toNat (value (slice buffer 2 2))
    (value (slice buffer 4 4)) (value (slice buffer 8 4))

variable {p : RtpPacket}

theorem read_eq {α : Type} (h : 12 ≤ p.length) (get : List UInt8 → Option α) (broken : α) :
    p.read get broken = get p.buffer := if_pos h

theorem read_broken {α : Type} (h : ¬12 ≤ p.length) (get : List UInt8 → Option α) (broken : α) :
    p.read get broken = some broken := if_neg h

/-- A getter of a bit field of a byte. -/
theorem read_byte {α : Type} (h : 12 ≤ p.length) {i : ℕ} (hi : i < p.buffer.length)
    (f : UInt8 → α) (broken : α) :
    p.read (fun buffer => buffer[i]?.map f) broken = some (f (p.buffer.getD i 0)) := by
  rw [read_eq h, List.getElem?_eq_getElem hi, List.getD_eq_getElem p.buffer 0 hi]
  rfl

/-- **The getters, as numbers.** -/
theorem header_eq (h : 12 ≤ p.length) (hb : 12 ≤ p.buffer.length) :
    p.header = some (.ofBuffer p.buffer) := by
  have hword {i j : ℕ} (hle : i ≤ j) (hj : j ≤ 12) := getLong_eq hle (hj.trans hb)
  have hsn : p.getSequenceNumber = some (BitVec.ofNat 32 (value (slice p.buffer 2 2))) := by
    rw [getSequenceNumber, read_eq h, getInt, hword (by omega) (by omega), Option.map_some]
    congr 1
    refine BitVec.eq_of_toNat_eq ?_
    rw [BitVec.toNat_setWidth, BitVec.toNat_ofNat, BitVec.toNat_ofNat, Nat.mod_mod_of_dvd]
    exact pow_dvd_pow 2 (by omega)
  have hts : p.getTimestamp = some (BitVec.ofNat 64 (value (slice p.buffer 4 4))) := by
    rw [getTimestamp, read_eq h, hword (by omega) (by omega)]
  have hss : p.getSscr = some (BitVec.ofNat 64 (value (slice p.buffer 8 4))) := by
    rw [getSscr, read_eq h, hword (by omega) (by omega)]
  obtain ⟨hv, hp, hx, hcc, -, -⟩ := toInt_fields (p.buffer.getD 0 0)
  obtain ⟨-, -, -, -, hm, hpt⟩ := toInt_fields (p.buffer.getD 1 0)
  rw [header, getVersion, hasPadding, hasExtension, getCscrCount, hasMarker, getPayloadType,
    read_byte h (by omega), read_byte h (by omega), read_byte h (by omega), read_byte h (by omega),
    read_byte h (by omega), read_byte h (by omega), hsn, hts, hss, hv, hp, hx, hcc, hm, hpt]
  rfl

theorem header_broken (h : ¬12 ≤ p.length) :
    p.header = some ⟨0, false, false, 0, false, -1, 0, 0, 0⟩ := by
  rw [header, getVersion, hasPadding, hasExtension, getCscrCount, hasMarker, getPayloadType,
    getSequenceNumber, getTimestamp, getSscr, read_broken h, read_broken h, read_broken h,
    read_broken h, read_broken h, read_broken h, read_broken h, read_broken h, read_broken h]
  rfl

section Frame

variable {l : List UInt8} {i j k n : ℕ}

/-- A part of the header that is not overwritten. -/
theorem value_frame (hb : 12 ≤ p.buffer.length) (hl : l.length = n) (hi : i + n ≤ 12)
    (hd : j + k ≤ i ∨ i + n ≤ j) :
    value (slice (splice p.buffer i l) j k) = value (slice p.buffer j k) :=
  congrArg value (slice_splice_of_disjoint (by omega) (by omega))

/-- The part of the header that is overwritten. -/
theorem value_own (hb : 12 ≤ p.buffer.length) (hl : l.length = n) (hi : i + n ≤ 12) :
    value (slice (splice p.buffer i l) i n) = value l := by
  subst hl
  rw [slice_splice (by omega)]

/-- A byte of the header that is not overwritten. -/
theorem byte_frame (hb : 12 ≤ p.buffer.length) (hl : l.length = n) (hi : i + n ≤ 12)
    (hd : j + 1 ≤ i ∨ i + n ≤ j) (hj : j < 12) :
    value (slice (splice p.buffer i l) j 1) = (p.buffer.getD j 0).toNat :=
  (value_frame hb hl hi hd).trans (value_slice_one (by omega))

variable (h : 12 ≤ p.length) (hb : 12 ≤ p.buffer.length)
include h hb

/-- A setter that overwrites some bytes of the header, and the parts of the header behind it. -/
theorem header_write {set : List UInt8 → Option (List UInt8)} {b0 b1 sn ts ss : ℕ}
    (hset : set p.buffer = some (splice p.buffer i l)) (hl : l.length = n) (hi : i + n ≤ 12)
    (h0 : value (slice (splice p.buffer i l) 0 1) = b0)
    (h1 : value (slice (splice p.buffer i l) 1 1) = b1)
    (hsn : value (slice (splice p.buffer i l) 2 2) = sn)
    (hts : value (slice (splice p.buffer i l) 4 4) = ts)
    (hss : value (slice (splice p.buffer i l) 8 4) = ss) :
    (p.write set).bind header = some (.ofNumbers b0 b1 sn ts ss) := by
  have hlen : (splice p.buffer i l).length = p.buffer.length := length_splice (by omega)
  have heq : header ⟨splice p.buffer i l, p.length⟩ = some (.ofBuffer (splice p.buffer i l)) :=
    header_eq h (hb.trans hlen.ge)
  rw [write, if_pos h, hset]
  refine heq.trans ?_
  rw [Header.ofBuffer, ← value_slice_one (by omega), ← value_slice_one (by omega), h0, h1, hsn, hts,
    hss]

/-- A setter of a field of the first byte. -/
theorem header_byte0 (f : UInt8 → UInt8) :
    (p.write (modify 0 f)).bind header =
      some (.ofNumbers (f (p.buffer.getD 0 0)).toNat (p.buffer.getD 1 0).toNat
        (value (slice p.buffer 2 2)) (value (slice p.buffer 4 4)) (value (slice p.buffer 8 4))) := by
  have hl : [f (p.buffer.getD 0 0)].length = 1 := List.length_singleton
  exact header_write h hb (modify_eq (by omega) f) hl (by omega)
    ((value_own hb hl (by omega)).trans (value_singleton _))
    (byte_frame hb hl (by omega) (by omega) (by omega)) (value_frame hb hl (by omega) (by omega))
    (value_frame hb hl (by omega) (by omega)) (value_frame hb hl (by omega) (by omega))

/-- A setter of a field of the second byte. -/
theorem header_byte1 (f : UInt8 → UInt8) :
    (p.write (modify 1 f)).bind header =
      some (.ofNumbers (p.buffer.getD 0 0).toNat (f (p.buffer.getD 1 0)).toNat
        (value (slice p.buffer 2 2)) (value (slice p.buffer 4 4)) (value (slice p.buffer 8 4))) := by
  have hl : [f (p.buffer.getD 1 0)].length = 1 := List.length_singleton
  exact header_write h hb (modify_eq (by omega) f) hl (by omega)
    (byte_frame hb hl (by omega) (by omega) (by omega))
    ((value_own hb hl (by omega)).trans (value_singleton _)) (value_frame hb hl (by omega) (by omega))
    (value_frame hb hl (by omega) (by omega)) (value_frame hb hl (by omega) (by omega))

/-- The setters of the words. -/
theorem header_words (n : BitVec 64) :
    (p.write fun buffer => setLong n buffer 2 4).bind header =
        some (.ofNumbers (p.buffer.getD 0 0).toNat (p.buffer.getD 1 0).toNat (value (bytes 2 n.toNat))
          (value (slice p.buffer 4 4)) (value (slice p.buffer 8 4))) ∧
      (p.write fun buffer => setLong n buffer 4 8).bind header =
        some (.ofNumbers (p.buffer.getD 0 0).toNat (p.buffer.getD 1 0).toNat
          (value (slice p.buffer 2 2)) (value (bytes 4 n.toNat)) (value (slice p.buffer 8 4))) ∧
      (p.write fun buffer => setLong n buffer 8 12).bind header =
        some (.ofNumbers (p.buffer.getD 0 0).toNat (p.buffer.getD 1 0).toNat
          (value (slice p.buffer 2 2)) (value (slice p.buffer 4 4)) (value (bytes 4 n.toNat))) := by
  refine ⟨?_, ?_, ?_⟩
  · have hl := length_bytes 2 n.toNat
    exact header_write h hb (setLong_eq (by omega) (by omega) (by omega) n) hl (by omega)
      (byte_frame hb hl (by omega) (by omega) (by omega))
      (byte_frame hb hl (by omega) (by omega) (by omega)) (value_own hb hl (by omega))
      (value_frame hb hl (by omega) (by omega)) (value_frame hb hl (by omega) (by omega))
  · have hl := length_bytes 4 n.toNat
    exact header_write h hb (setLong_eq (by omega) (by omega) (by omega) n) hl (by omega)
      (byte_frame hb hl (by omega) (by omega) (by omega))
      (byte_frame hb hl (by omega) (by omega) (by omega)) (value_frame hb hl (by omega) (by omega))
      (value_own hb hl (by omega)) (value_frame hb hl (by omega) (by omega))
  · have hl := length_bytes 4 n.toNat
    exact header_write h hb (setLong_eq (by omega) (by omega) (by omega) n) hl (by omega)
      (byte_frame hb hl (by omega) (by omega) (by omega))
      (byte_frame hb hl (by omega) (by omega) (by omega)) (value_frame hb hl (by omega) (by omega))
      (value_frame hb hl (by omega) (by omega)) (value_own hb hl (by omega))

end Frame

end Numbers

/-! ## The exact conditions -/

section Setting

/-- **When a setter of a packet that is not broken does what is expected of it**, by the first byte:
the two bits of the version, and the bits of the padding and of the extension. -/
def Setting.Kept (b0 : ℕ) : Setting → Prop
  | .version v => b0 / 16 % 4 = 0 ∨ (b0 / 64 = 0 ↔ v % 4 = 0)
  | .padding value =>
    (value = true → b0 / 64 = 0) ∧
      (b0 / 64 = 0 ∧ b0 / 16 % 2 = 1 → (value = true ↔ b0 / 32 % 2 = 1))
  | .extension x => x = true → b0 / 32 = 0
  | .marker m => m = false
  | _ => True

/-- When the value is what the getter of a broken packet returns. -/
def Setting.Broken : Setting → Prop
  | .version v => v % 4 = 0
  | .padding value => value = false
  | .extension x => x = false
  | .marker m => m = false
  | .payloadType _ => False
  | .sequenceNumber sn => sn % 0x10000 = 0
  | .timestamp t => t % 0x100000000 = 0
  | .sscr ssrc => ssrc % 0x100000000 = 0

instance (b0 : ℕ) : DecidablePred (Setting.Kept b0)
  | .version _ => inferInstanceAs (Decidable (_ ∨ _))
  | .padding _ => inferInstanceAs (Decidable (_ ∧ _))
  | .extension _ => inferInstanceAs (Decidable (_ → _))
  | .marker _ => inferInstanceAs (Decidable (_ = _))
  | .payloadType _ | .sequenceNumber _ | .timestamp _ | .sscr _ => inferInstanceAs (Decidable True)

variable {b0 b1 sn ts ss : ℕ}

theorem eq_zero_iff_toNat (v : BitVec 32) : v % 4 = 0 ↔ v.toNat % 4 = 0 :=
  BitVec.toNat_inj.symm

theorem update_version_iff (v : BitVec 32) (h0 : b0 < 256) :
    Header.ofNumbers (b0 % 64 + v.toNat % 4 * 64) b1 sn ts ss =
        (Header.ofNumbers b0 b1 sn ts ss).update (.version v) ↔ (Setting.version v).Kept b0 := by
  have hv : BitVec.ofNat 32 ((b0 % 64 + v.toNat % 4 * 64) / 64) = v % 4 := by
    refine BitVec.eq_of_toNat_eq ?_
    rw [BitVec.toNat_ofNat, BitVec.toNat_umod]
    show _ = v.toNat % 4
    omega
  have hcc : (b0 % 64 + v.toNat % 4 * 64) % 16 = b0 % 16 := by omega
  simp only [Header.ofNumbers, Header.update, Setting.Kept, Header.mk.injEq, decide_eq_decide, hv,
    hcc, true_and, and_true, eq_zero_iff_toNat]
  omega

theorem update_padding_iff (value : Bool) (h0 : b0 < 256) :
    Header.ofNumbers (b0 % 2 ^ 5 + value.toNat * 2 ^ 5 + b0 / 2 ^ 6 * 2 ^ 6) b1 sn ts ss =
        (Header.ofNumbers b0 b1 sn ts ss).update (.padding value) ↔
      (Setting.padding value).Kept b0 := by
  have hle := Bool.toNat_le value
  have hv : (b0 % 2 ^ 5 + value.toNat * 2 ^ 5 + b0 / 2 ^ 6 * 2 ^ 6) / 64 = b0 / 64 := by omega
  have hp : (b0 % 2 ^ 5 + value.toNat * 2 ^ 5 + b0 / 2 ^ 6 * 2 ^ 6) / 32 =
      b0 / 64 * 2 + value.toNat := by omega
  have hx : (b0 % 2 ^ 5 + value.toNat * 2 ^ 5 + b0 / 2 ^ 6 * 2 ^ 6) / 16 =
      b0 / 64 * 4 + value.toNat * 2 + b0 / 16 % 2 := by omega
  have hcc : (b0 % 2 ^ 5 + value.toNat * 2 ^ 5 + b0 / 2 ^ 6 * 2 ^ 6) % 16 = b0 % 16 := by omega
  simp only [Header.ofNumbers, Header.update, Setting.Kept, Header.mk.injEq, decide_eq_decide, hv,
    hp, hx, hcc, true_and, and_true]
  cases value with
  | false =>
    simp only [Bool.toNat_false, decide_eq_false_iff_not, Bool.false_eq_true, false_implies,
      false_iff, true_and]
    constructor
    · rintro ⟨-, h⟩ ⟨hv0, hx1⟩
      omega
    · intro h
      by_cases hc : b0 / 64 = 0 ∧ b0 / 16 % 2 = 1
      · have hp0 := h hc
        omega
      · omega
  | true =>
    simp only [Bool.toNat_true, decide_eq_true_eq, true_implies, true_iff]
    omega

theorem update_extension_iff (x : Bool) :
    Header.ofNumbers (b0 % 2 ^ 4 + x.toNat * 2 ^ 4 + b0 / 2 ^ 5 * 2 ^ 5) b1 sn ts ss =
        (Header.ofNumbers b0 b1 sn ts ss).update (.extension x) ↔
      (Setting.extension x).Kept b0 := by
  have hle := Bool.toNat_le x
  have hv : (b0 % 2 ^ 4 + x.toNat * 2 ^ 4 + b0 / 2 ^ 5 * 2 ^ 5) / 64 = b0 / 64 := by omega
  have hp : (b0 % 2 ^ 4 + x.toNat * 2 ^ 4 + b0 / 2 ^ 5 * 2 ^ 5) / 32 = b0 / 32 := by omega
  have hx : (b0 % 2 ^ 4 + x.toNat * 2 ^ 4 + b0 / 2 ^ 5 * 2 ^ 5) / 16 = b0 / 32 * 2 + x.toNat := by
    omega
  have hcc : (b0 % 2 ^ 4 + x.toNat * 2 ^ 4 + b0 / 2 ^ 5 * 2 ^ 5) % 16 = b0 % 16 := by omega
  simp only [Header.ofNumbers, Header.update, Setting.Kept, Header.mk.injEq, hv, hp, hx, hcc,
    true_and, and_true]
  cases x with
  | false =>
    simp only [Bool.toNat_false, decide_eq_false_iff_not, Bool.false_eq_true, false_implies,
      iff_true]
    omega
  | true =>
    simp only [Bool.toNat_true, decide_eq_true_eq, true_implies]
    omega

theorem update_marker_iff (m : Bool) :
    Header.ofNumbers b0 (b1 % 2 ^ 7 + m.toNat * 2 ^ 7 + b1 / 2 ^ 8 * 2 ^ 8) sn ts ss =
        (Header.ofNumbers b0 b1 sn ts ss).update (.marker m) ↔ (Setting.marker m).Kept b0 := by
  have hpt : (b1 % 2 ^ 7 + m.toNat * 2 ^ 7 + b1 / 2 ^ 8 * 2 ^ 8) % 128 = b1 % 128 := by omega
  simp only [Header.ofNumbers, Header.update, Setting.Kept, Header.mk.injEq, hpt, true_and,
    and_true]
  exact eq_comm

theorem update_payloadType (pt : BitVec 32) :
    Header.ofNumbers b0 (b1 / 128 * 128 + pt.toNat % 128) sn ts ss =
      (Header.ofNumbers b0 b1 sn ts ss).update (.payloadType pt) := by
  have hpt : BitVec.ofNat 32 ((b1 / 128 * 128 + pt.toNat % 128) % 128) = pt % 128 := by
    refine BitVec.eq_of_toNat_eq ?_
    rw [BitVec.toNat_ofNat, BitVec.toNat_umod]
    show _ = pt.toNat % 128
    omega
  simp only [Header.ofNumbers, Header.update, hpt]

/-- The words hold what is set, modulo what there is place for. -/
theorem ofNat_value_bytes {w k : ℕ} (n : BitVec w) (h : 256 ^ k < 2 ^ w) :
    BitVec.ofNat w (Words.value (Words.bytes k n.toNat)) = n % BitVec.ofNat w (256 ^ k) := by
  refine BitVec.eq_of_toNat_eq ?_
  rw [Words.value_bytes, BitVec.toNat_umod, BitVec.toNat_ofNat, BitVec.toNat_ofNat,
    Nat.mod_eq_of_lt h]
  exact Nat.mod_eq_of_lt ((Nat.mod_le _ _).trans_lt n.isLt)

/-- A sequence number is an `int`, and is written as a `long`. -/
theorem bytes_signExtend (sn : BitVec 32) :
    Words.bytes 2 (sn.signExtend 64).toNat = Words.bytes 2 sn.toNat := by
  refine Words.bytes_congr ?_
  have h := BitVec.toInt_signExtend_of_le (x := sn) (v := 64) (by omega)
  have hext := BitVec.toInt_eq_toNat_cond (x := sn.signExtend 64)
  have hsn := BitVec.toInt_eq_toNat_cond (x := sn)
  omega

/-- Every setter leaves a broken packet as it is. -/
theorem set_broken {p : RtpPacket} (h : ¬12 ≤ p.length) (s : Setting) : p.set s = some p := by
  cases s <;> exact if_neg h

theorem update_broken_iff (s : Setting) :
    (⟨0, false, false, 0, false, -1, 0, 0, 0⟩ : Header) =
        Header.update ⟨0, false, false, 0, false, -1, 0, 0, 0⟩ s ↔ s.Broken := by
  cases s with
  | payloadType pt =>
    have hne : (-1 : BitVec 32) ≠ pt % 128 := by
      intro heq
      have hnat := congrArg BitVec.toNat heq
      have hlt := Nat.mod_lt pt.toNat (show 0 < 128 by omega)
      rw [BitVec.toNat_umod, show (-1 : BitVec 32).toNat = 4294967295 from rfl,
        show (128 : BitVec 32).toNat = 128 from rfl] at hnat
      omega
    simp only [Header.update, Setting.Broken, Header.mk.injEq, hne, false_and, and_false]
  | _ => simp only [Header.update, Setting.Broken, Header.mk.injEq, true_and, and_true, eq_comm]

open Words in
/-- **When a setter, followed by all getters, does what is expected of it.** -/
theorem header_set_iff (p : RtpPacket) (s : Setting) (hb : 12 ≤ p.buffer.length) :
    (p.set s).bind header = p.header.map (fun h => h.update s) ↔
      if 12 ≤ p.length then s.Kept (p.buffer.getD 0 0).toNat else s.Broken := by
  by_cases h : 12 ≤ p.length
  swap
  · rw [if_neg h, set_broken h, header_broken h]
    refine Iff.trans ?_ (update_broken_iff s)
    exact ⟨fun heq => Option.some.inj ((header_broken h).symm.trans heq),
      fun heq => (header_broken h).trans (congrArg some heq)⟩
  have h0 := (p.buffer.getD 0 0).toNat_lt
  rw [if_pos h, header_eq h hb, Option.map_some]
  cases s with
  | version v =>
    rw [set, setVersion, header_byte0 h hb, Option.some_inj, toNat_versionByte]
    exact update_version_iff v h0
  | padding value =>
    rw [set, setPadding, header_byte0 h hb, Option.some_inj, toNat_setBit (by omega)]
    exact update_padding_iff value h0
  | extension x =>
    rw [set, setExtension, header_byte0 h hb, Option.some_inj, toNat_setBit (by omega)]
    exact update_extension_iff x
  | marker m =>
    rw [set, setMarker, header_byte1 h hb, Option.some_inj, toNat_setBit (by omega)]
    exact update_marker_iff m
  | payloadType pt =>
    rw [set, setPayloadType, header_byte1 h hb, Option.some_inj, toNat_payloadTypeByte]
    exact iff_true_intro (update_payloadType pt)
  | sequenceNumber sn =>
    rw [set, setSequenceNumber]
    refine iff_true_intro ((header_words h hb _).1.trans ?_)
    rw [bytes_signExtend, Header.ofBuffer, Header.ofNumbers, ofNat_value_bytes sn (by omega)]
    rfl
  | timestamp t =>
    rw [set, setTimestamp, (header_words h hb t).2.1]
    refine iff_true_intro ?_
    rw [Header.ofBuffer, Header.ofNumbers, ofNat_value_bytes t (by omega)]
    rfl
  | sscr ssrc =>
    rw [set, setSscr, (header_words h hb ssrc).2.2]
    refine iff_true_intro ?_
    rw [Header.ofBuffer, Header.ofNumbers, ofNat_value_bytes ssrc (by omega)]
    rfl

/-- The payload type, in a packet of which all bits are zero. -/
theorem header_setPayloadType_zero :
    (set ⟨List.replicate 12 0, 12⟩ (.payloadType 0x1FF)).bind header =
      (header ⟨List.replicate 12 0, 12⟩).map (fun h => h.update (.payloadType 0x1FF)) := by
  refine (header_set_iff ⟨List.replicate 12 0, 12⟩ (.payloadType 0x1FF) (by decide)).mpr ?_
  rw [if_pos (by decide)]
  trivial

/-- The marker is set, and the getter does not see it. -/
theorem header_setMarker_lost : ¬∀ (p : RtpPacket) (s : Setting), 12 ≤ p.buffer.length →
    (p.set s).bind header = p.header.map (fun h => h.update s) := by
  intro hall
  have heq := hall ⟨List.replicate 12 0, 12⟩ (.marker true) (by decide)
  exact absurd heq (by decide +kernel)

end Setting

end RtpPacket
end SoftPhone
