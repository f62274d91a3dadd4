import Mathlib.Data.Int.Notation
import SoftPhone.Util.Blocks

/-!
# The MD5 digest

`MD5.update` takes the bytes in pieces.  What does not fill a block of 64 bytes waits in `block`, and
`doFinal` feeds the padding through `update` like any other piece.

* `Represents.update`: an update adds its bytes to what the state stands for.
* `doFinal_blocks`: the digest is that of the blocks of the padded message (`padded`), wherever the
  message was cut, and it stays.
-/

namespace SoftPhone

open Words Blocks

namespace MD5

/-! ## The transformation of a block -/

/-- The four words of the state. -/
structure State where
  a : UInt32
  b : UInt32
  c : UInt32
  d : UInt32
  deriving DecidableEq

/-- The magic initialization constants. -/
def magic : State := ⟨0x67452301, 0xefcdab89, 0x98badcfe, 0x10325476⟩

/-- The word of a block at an index, with the low byte first. -/
def word (block : List UInt8) (i : ℕ) : UInt32 :=
  (block.getD i 0).toUInt32 ||| (block.getD (i + 1) 0).toUInt32 <<< 8 |||
    (block.getD (i + 2) 0).toUInt32 <<< 16 ||| (block.getD (i + 3) 0).toUInt32 <<< 24

/-- `a+= f+x+t; a=((a << s) | (a >>> 32-s))+b`. -/
def mix (f a b x s t : UInt32) : UInt32 :=
  let a := a + (f + x + t)
  (a <<< s ||| a >>> (32 - s)) + b

/-- A step of round 1. -/
def ff (a b c d x s t : UInt32) : UInt32 := mix (b &&& c ||| ~~~b &&& d) a b x s t

/-- A step of round 2. -/
def gg (a b c d x s t : UInt32) : UInt32 := mix (b &&& d ||| c &&& ~~~d) a b x s t

/-- A step of round 3. -/
def hh (a b c d x s t : UInt32) : UInt32 := mix (b ^^^ c ^^^ d) a b x s t

/-- A step of round 4. -/
def ii (a b c d x s t : UInt32) : UInt32 := mix (c ^^^ (b ||| ~~~d)) a b x s t

/-- `transform(state,block)`. -/
def transform (state : State) (block : List UInt8) : State :=
  let x := fun i => word block (4 * i)
  let a := state.a
  let b := state.b
  let c := state.c
  let d := state.d
  -- round 1
  let a := ff a b c d (x 0) 7 0xd76aa478
  let d := ff d a b c (x 1) 12 0xe8c7b756
  let c := ff c d a b (x 2) 17 0x242070db
  let b := ff b c d a (x 3) 22 0xc1bdceee
  let a := ff a b c d (x 4) 7 0xf57c0faf
  let d := ff d a b c (x 5) 12 0x4787c62a
  let c := ff c d a b (x 6) 17 0xa8304613
  let b := ff b c d a (x 7) 22 0xfd469501
  let a := ff a b c d (x 8) 7 0x698098d8
  let d := ff d a b c (x 9) 12 0x8b44f7af
  let c := ff c d a b (x 10) 17 0xffff5bb1
  let b := ff b c d a (x 11) 22 0x895cd7be
  let a := ff a b c d (x 12) 7 0x6b901122
  let d := ff d a b c (x 13) 12 0xfd987193
  let c := ff c d a b (x 14) 17 0xa679438e
  let b := ff b c d a (x 15) 22 0x49b40821
  -- round 2
  let a := gg a b c d (x 1) 5 0xf61e2562
  let d := gg d a b c (x 6) 9 0xc040b340
  let c := gg c d a b (x 11) 14 0x265e5a51
  let b := gg b c d a (x 0) 20 0xe9b6c7aa
  let a := gg a b c d (x 5) 5 0xd62f105d
  let d := gg d a b c (x 10) 9 0x02441453
  let c := gg c d a b (x 15) 14 0xd8a1e681
  let b := gg b c d a (x 4) 20 0xe7d3fbc8
  let a := gg a b c d (x 9) 5 0x21e1cde6
  let d := gg d a b c (x 14) 9 0xc33707d6
  let c := gg c d a b (x 3) 14 0xf4d50d87
  let b := gg b c d a (x 8) 20 0x455a14ed
  let a := gg a b c d (x 13) 5 0xa9e3e905
  let d := gg d a b c (x 2) 9 0xfcefa3f8
  let c := gg c d a b (x 7) 14 0x676f02d9
  let b := gg b c d a (x 12) 20 0x8d2a4c8a
  -- round 3
  let a := hh a b c d (x 5) 4 0xfffa3942
  let d := hh d a b c (x 8) 11 0x8771f681
  let c := hh c d a b (x 11) 16 0x6d9d6122
  let b := hh b c d a (x 14) 23 0xfde5380c
  let a := hh a b c d (x 1) 4 0xa4beea44
  let d := hh d a b c (x 4) 11 0x4bdecfa9
  let c := hh c d a b (x 7) 16 0xf6bb4b60
  let b := hh b c d a (x 10) 23 0xbebfbc70
  let a := hh a b c d (x 13) 4 0x289b7ec6
  let d := hh d a b c (x 0) 11 0xeaa127fa
  let c := hh c d a b (x 3) 16 0xd4ef3085
  let b := hh b c d a (x 6) 23 0x04881d05
  let a := hh a b c d (x 9) 4 0xd9d4d039
  let d := hh d a b c (x 12) 11 0xe6db99e5
  let c := hh c d a b (x 15) 16 0x1fa27cf8
  let b := hh b c d a (x 2) 23 0xc4ac5665
  -- round 4
  let a := ii a b c d (x 0) 6 0xf4292244
  let d := ii d a b c (x 7) 10 0x432aff97
  let c := ii c d a b (x 14) 15 0xab9423a7
  let b := ii b c d a (x 5) 21 0xfc93a039
  let a := ii a b c d (x 12) 6 0x655b59c3
  let d := ii d a b c (x 3) 10 0x8f0ccc92
  let c := ii c d a b (x 10) 15 0xffeff47d
  let b := ii b c d a (x 1) 21 0x85845dd1
  let a := ii a b c d (x 8) 6 0x6fa87e4f
  let d := ii d a b c (x 15) 10 0xfe2ce6e0
  let c := ii c d a b (x 6) 15 0xa3014314
  let b := ii b c d a (x 13) 21 0x4e0811a1
  let a := ii a b c d (x 4) 6 0xf7537e82
  let d := ii d a b c (x 11) 10 0xbd3af235
  let c := ii c d a b (x 2) 15 0x2ad7d2bb
  let b := ii b c d a (x 9) 21 0xeb86d391
  ⟨state.a + a, state.b + b, state.c + c, state.d + d⟩

end MD5

/-! ## The digest of a stream -/

/-- A digest under way. -/
structure MD5 where
  messageDigest : Option (List UInt8)
  count : ℤ
  state : MD5.State
  block : List UInt8
  blockOffset : ℕ

namespace MD5

/-- A value of `long`. -/
def long (x : ℤ) : ℤ := Int.bmod x (2 ^ 64)

/-- `init()`. -/
def init : MD5 := ⟨none, 0, magic, List.replicate 64 0, 0⟩

/-- The arguments of an update: `len` bytes of a buffer, from an offset on. -/
structure Chunk where
  buffer : List UInt8
  offset : ℕ
  len : ℕ
  fits : offset + len ≤ buffer.length

namespace Chunk

/-- The bytes of an update. -/
def bytes (chunk : Chunk) : List UInt8 := slice chunk.buffer chunk.offset chunk.len

/-- A whole buffer. -/
def whole (buffer : List UInt8) : Chunk := ⟨buffer, 0, buffer.length, (Nat.zero_add _).le⟩

theorem bytes_whole (buffer : List UInt8) : (whole buffer).bytes = buffer := List.take_length

end Chunk

/-- The loop of `update`: the block is filled and transformed as long as there are bytes for it, and
what remains is copied. -/
def updateLoop (m : MD5) (buffer : List UInt8) (offset len : ℕ) : MD5 :=
  let size := 64 - m.blockOffset
  if size ≤ len then
    let block := splice m.block m.blockOffset (slice buffer offset size)
    updateLoop { m with state := transform m.state block, block := block, blockOffset := 0 } buffer
      (offset + size) (len - size)
  else
    { m with
      block := splice m.block m.blockOffset (slice buffer offset len)
      blockOffset := m.blockOffset + len }
termination_by len + m.blockOffset
decreasing_by show len - (64 - m.blockOffset) + 0 < len + m.blockOffset; omega

/-- `update(buffer,offset,len)`. -/
def update (m : MD5) (chunk : Chunk) : MD5 :=
  match m.messageDigest with
  | some _ => m
  | none =>
    updateLoop { m with count := long (m.count + chunk.len) } chunk.buffer chunk.offset chunk.len

/-- `zeropadding`. -/
def zeropadding : List UInt8 := 0x80 :: List.replicate 63 0

theorem length_zeropadding : zeropadding.length = 64 := by
  rw [zeropadding, List.length_cons, List.length_replicate]

/-- `for (int i=0; i<k; i++) { len_field[i]=(byte)(len%256); len>>=8; }`. -/
def lenField : ℕ → ℤ → List UInt8
  | 0, _ => []
  | k + 1, len => UInt8.ofInt (len.tmod 256) :: lenField k (len >>> (8 : ℕ))

/-- The four words as 16 bytes. -/
def digest (state : State) : List UInt8 :=
  [state.a, state.b, state.c, state.d].flatMap fun w : UInt32 =>
    [w.toUInt8, (w >>> 8).toUInt8, (w >>> 16).toUInt8, (w >>> 24).toUInt8]

/-- The first `npad` bytes of the padding, as they are fed to `update`. -/
def padding (blockOffset : ℕ) : Chunk :=
  ⟨zeropadding, 0, 64 - (blockOffset + 8) % 64, by rw [length_zeropadding]; omega⟩

/-- `doFinal()`: the digest, and the state with the digest in it. -/
def doFinal (m : MD5) : List UInt8 × MD5 :=
  match m.messageDigest with
  | some messageDigest => (messageDigest, m)
  | none =>
    let len := long (m.count * 8)
    let m := update (update m (padding m.blockOffset)) (Chunk.whole (lenField 8 len))
    let messageDigest := digest m.state
    (messageDigest, { m with messageDigest := some messageDigest })

/-! ## What the state stands for -/

/-- A length with the low byte first. -/
def lengthField (n : ℕ) : List UInt8 := (Words.bytes 8 n).reverse

/-- **The padded message**: a byte `0x80`, zeros up to 8 bytes before the end of a block, and the
length in bits. -/
def padded (msg : List UInt8) : List UInt8 :=
  msg ++ (0x80 :: List.replicate ((119 - msg.length % 64) % 64) 0 ++ lengthField (8 * msg.length))

theorem dvd_length_padded (msg : List UInt8) : 64 ∣ (padded msg).length := by
  rw [padded, lengthField, List.length_append, List.length_append, List.length_cons,
    List.length_replicate, List.length_reverse, Words.length_bytes]
  omega

/-- The bytes that wait for the rest of their block. -/
def pending (m : MD5) : List UInt8 := m.block.take m.blockOffset

/-- The state after some bytes. -/
structure Represents (m : MD5) (msg : List UInt8) : Prop where
  messageDigest : m.messageDigest = none
  count : m.count = long msg.length
  length_block : m.block.length = 64
  blockOffset_lt : m.blockOffset < 64
  absorbed : (m.state, m.pending) = absorb 64 transform magic msg

theorem init_represents : Represents init [] where
  messageDigest := rfl
  count := rfl
  length_block := List.length_replicate
  blockOffset_lt := Nat.zero_lt_succ 63
  absorbed := (absorb_of_lt (Nat.zero_lt_succ 63)).symm

theorem length_pending {m : MD5} (hblock : m.block.length = 64) (hlt : m.blockOffset < 64) :
    m.pending.length = m.blockOffset :=
  List.length_take_of_le (by omega)

theorem pending_splice {m : MD5} (hblock : m.block.length = 64) (hlt : m.blockOffset < 64)
    (l : List UInt8) :
    (splice m.block m.blockOffset l).take (m.blockOffset + l.length) = m.pending ++ l := by
  have hlen : (m.block.take m.blockOffset ++ l).length = m.blockOffset + l.length := by
    rw [List.length_append, List.length_take_of_le (by omega)]
  rw [splice, ← hlen, List.take_left, pending]

/-- **The loop absorbs its bytes behind those that wait.** -/
theorem updateLoop_spec (m : MD5) (buffer : List UInt8) (offset len : ℕ)
    (hfits : offset + len ≤ buffer.length) (hblock : m.block.length = 64)
    (hlt : m.blockOffset < 64) :
    let m' := updateLoop m buffer offset len
    m'.messageDigest = m.messageDigest ∧ m'.count = m.count ∧ m'.block.length = 64 ∧
      m'.blockOffset < 64 ∧
      (m'.state, m'.pending) =
        absorb 64 transform m.state (m.pending ++ slice buffer offset len) := by
  induction m, offset, len using updateLoop.induct buffer with
  | case1 m offset len size hle block ih =>
    have hsize : m.blockOffset + size = 64 := by omega
    have hslice : (slice buffer offset size).length = size := length_slice (by omega)
    have hlen : block.length = 64 := (length_splice (by rw [hslice]; omega)).trans hblock
    have hfull : block = m.pending ++ slice buffer offset size := by
      have htake := pending_splice hblock hlt (slice buffer offset size)
      rw [hslice, hsize] at htake
      exact (List.take_of_length_le hlen.le).symm.trans htake
    have hdata : slice buffer offset len =
        slice buffer offset size ++ slice buffer (offset + size) (len - size) := by
      rw [← slice_add, Nat.add_sub_cancel' hle]
    rw [updateLoop, if_pos hle]
    obtain ⟨hdigest, hcount, hlen', hlt', habsorb⟩ := ih (by omega) hlen (Nat.zero_lt_succ 63)
    refine ⟨hdigest, hcount, hlen', hlt', habsorb.trans ?_⟩
    rw [hdata, ← List.append_assoc, ← hfull, absorb_block (Nat.zero_lt_succ 63) hlen]
    rfl
  | case2 m offset len size hle =>
    have hslice : (slice buffer offset len).length = len := length_slice hfits
    have hpending := pending_splice hblock hlt (slice buffer offset len)
    rw [hslice] at hpending
    have hshort : (m.pending ++ slice buffer offset len).length < 64 := by
      rw [List.length_append, length_pending hblock hlt, hslice]
      omega
    rw [updateLoop, if_neg hle, absorb_of_lt hshort]
    refine ⟨rfl, rfl, ?_, ?_, congrArg (Prod.mk m.state) hpending⟩
    · exact (length_splice (by rw [hslice]; omega)).trans hblock
    · show m.blockOffset + len < 64
      omega

theorem long_add (n k : ℕ) : long (long n + k) = long (n + k : ℕ) := by
  rw [long, long, Int.bmod_add_bmod, long, Nat.cast_add]

/-- **An update adds its bytes.** -/
theorem Represents.update {m : MD5} {msg : List UInt8} (h : Represents m msg) (chunk : Chunk) :
    Represents (m.update chunk) (msg ++ chunk.bytes) := by
  have hspec := updateLoop_spec { m with count := long (m.count + chunk.len) } chunk.buffer
    chunk.offset chunk.len chunk.fits h.length_block h.blockOffset_lt
  have hupdate : m.update chunk = updateLoop { m with count := long (m.count + chunk.len) }
      chunk.buffer chunk.offset chunk.len := by
    rw [MD5.update, h.messageDigest]
  obtain ⟨hdigest, hcount, hlen, hlt, habsorb⟩ := hspec
  have hbytes : chunk.bytes.length = chunk.len := length_slice chunk.fits
  rw [hupdate]
  refine ⟨hdigest.trans h.messageDigest, hcount.trans ?_, hlen, hlt, habsorb.trans ?_⟩
  · show long (m.count + chunk.len) = long ((msg ++ chunk.bytes).length : ℕ)
    rw [h.count, long_add, List.length_append, hbytes]
  · show absorb 64 transform m.state (m.pending ++ chunk.bytes) = _
    rw [absorb_append (n := 64) (by omega) magic, ← h.absorbed]

theorem Represents.foldl {m : MD5} {msg : List UInt8} (h : Represents m msg)
    (chunks : List Chunk) :
    Represents (chunks.foldl MD5.update m) (msg ++ chunks.flatMap Chunk.bytes) := by
  induction chunks generalizing m msg with
  | nil => rwa [List.flatMap_nil, List.append_nil]
  | cons chunk chunks ih =>
    rw [List.foldl_cons, List.flatMap_cons, ← List.append_assoc]
    exact ih (h.update chunk)

theorem Represents.blockOffset_eq {m : MD5} {msg : List UInt8} (h : Represents m msg) :
    m.blockOffset = msg.length % 64 := by
  rw [← length_pending h.length_block h.blockOffset_lt, ← length_absorb (Nat.zero_lt_succ 63),
    ← h.absorbed]

/-! ## The padding -/

/-- The bytes of a sum of `long`s are those of the number that it stands for. -/
theorem lenField_eq (k n : ℕ) (q : ℤ) :
    lenField k (n + 256 ^ k * q) = (Words.bytes k n).reverse := by
  induction k generalizing n q with
  | zero => rfl
  | succ k ih =>
    have hshift : ((n : ℤ) + 256 ^ (k + 1) * q) >>> (8 : ℕ) = (n / 256 : ℕ) + 256 ^ k * q := by
      rw [Int.shiftRight_eq_div_pow, pow_succ', Int.mul_assoc]
      show ((n : ℤ) + 256 * (256 ^ k * q)) / 256 = _
      rw [Int.add_mul_ediv_left _ _ (by omega), Int.natCast_ediv, Nat.cast_ofNat]
    have hbyte : UInt8.ofInt (((n : ℤ) + 256 ^ (k + 1) * q).tmod 256) = UInt8.ofNat n := by
      rw [Int.tmod_def, pow_succ', Int.mul_assoc, Int.add_sub_assoc, ← Int.mul_sub,
        UInt8.ofInt_add, UInt8.ofInt_mul]
      show UInt8.ofInt n + 0 * _ = _
      rw [UInt8.zero_mul, UInt8.add_zero, UInt8.ofInt, ← UInt8.toNat_inj, UInt8.toNat_ofNat',
        UInt8.toNat_ofNat']
      omega
    rw [lenField, hshift, ih, hbyte, Words.bytes, List.reverse_append, List.reverse_singleton,
      List.singleton_append]

/-- The field for the length of a message. -/
theorem lenField_long (n : ℕ) : lenField 8 (long (long n * 8)) = lengthField (8 * n) := by
  have hlong : long (long n * 8) = (8 * n : ℕ) + 256 ^ 8 * -Int.bdiv (n * 8) (2 ^ 64) := by
    rw [long, long, Int.bmod_mul_bmod, Int.bmod_eq_self_sub_mul_bdiv]
    omega
  rw [hlong, lenField_eq, lengthField]

theorem bytes_padding (k : ℕ) :
    (padding k).bytes = 0x80 :: List.replicate (63 - (k + 8) % 64) 0 := by
  have hsucc : 64 - (k + 8) % 64 = 63 - (k + 8) % 64 + 1 := by omega
  show zeropadding.take (64 - (k + 8) % 64) = _
  rw [hsucc, zeropadding, List.take_succ_cons, List.take_replicate, Nat.min_eq_left (by omega)]

/-- **The digest is that of the padded message.** -/
theorem Represents.doFinal {m : MD5} {msg : List UInt8} (h : Represents m msg) :
    m.doFinal.1 = digest ((blocks 64 (padded msg)).foldl transform magic) := by
  have hlen : lenField 8 (long (m.count * 8)) = lengthField (8 * msg.length) := by
    rw [h.count, lenField_long]
  have hzeros : 63 - (m.blockOffset + 8) % 64 = (119 - msg.length % 64) % 64 := by
    rw [h.blockOffset_eq]
    omega
  have hpadded : msg ++ (padding m.blockOffset).bytes ++
      (Chunk.whole (lenField 8 (long (m.count * 8)))).bytes = padded msg := by
    rw [bytes_padding, Chunk.bytes_whole, hlen, hzeros, List.append_assoc, padded]
  have hfinal := (h.update (padding m.blockOffset)).update
    (Chunk.whole (lenField 8 (long (m.count * 8))))
  rw [hpadded] at hfinal
  have hstate := congrArg Prod.fst hfinal.absorbed
  rw [absorb_eq (by omega)] at hstate
  rw [MD5.doFinal, h.messageDigest]
  exact congrArg digest hstate

theorem doFinal_messageDigest (m : MD5) : m.doFinal.2.messageDigest = some m.doFinal.1 := by
  rw [doFinal]
  split
  · assumption
  · rfl

/-- **After the digest is computed, an update does nothing.** -/
theorem update_of_messageDigest {m : MD5} {l : List UInt8} (h : m.messageDigest = some l)
    (chunk : Chunk) : m.update chunk = m := by
  rw [update, h]

theorem doFinal_of_messageDigest {m : MD5} {l : List UInt8} (h : m.messageDigest = some l) :
    m.doFinal = (l, m) := by
  rw [doFinal, h]

/-- **The digest of a stream**: the one of the blocks of the padded message, wherever the message is
cut.  It stays, whatever is fed afterwards. -/
theorem doFinal_blocks (chunks later : List Chunk) :
    let msg := chunks.flatMap Chunk.bytes
    let m := chunks.foldl update init
    (blocks 64 (padded msg)).flatten = padded msg ∧
      m.doFinal.1 = digest ((blocks 64 (padded msg)).foldl transform magic) ∧
      later.foldl update m.doFinal.2 = m.doFinal.2 ∧
      m.doFinal.2.doFinal = m.doFinal := by
  refine ⟨flatten_blocks (by omega) (dvd_length_padded _), (init_represents.foldl chunks).doFinal,
    ?_, doFinal_of_messageDigest (doFinal_messageDigest _)⟩
  induction later with
  | nil => rfl
  | cons chunk later ih =>
    rw [List.foldl_cons, update_of_messageDigest (doFinal_messageDigest _), ih]

/-- The digest of no bytes. -/
example : digest ((blocks 64 (padded [])).foldl transform magic) =
    [0xd4, 0x1d, 0x8c, 0xd9, 0x8f, 0x00, 0xb2, 0x04, 0xe9, 0x80, 0x09, 0x98, 0xec, 0xf8, 0x42,
      0x7e] := by decide +kernel

end MD5
end SoftPhone
