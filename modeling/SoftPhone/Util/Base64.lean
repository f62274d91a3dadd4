import SoftPhone.Text.Parser

/-!
# Class `Base64`

`encode` writes three bytes as four characters of the alphabet, and the one or two bytes that are
left as two or three characters, with `=` behind.  `decode` counts the `=` at the end and goes the
same way back.  So a non-empty array that was encoded is decoded again (`decode_encode`).

Of what comes from elsewhere, `decode` returns null or an array, unless the length is a multiple of
four and there is nothing but `=`, or there are too many of them at the end (`decode_returns_iff`).
-/

namespace SoftPhone

namespace Base64

/-! ## Encoding -/

/-- `B64CHARS`. -/
def b64Chars : Text :=
  "ABCDEFGHIJKLMNOPQRSTUVWXYZabcdefghijklmnopqrstuvwxyz0123456789+/".toList

/-- `B64CHARS.charAt(ch)`; the numbers that `encode` takes are less than 64 (`toNat_parts`). -/
def charAt (ch : BitVec 32) : Char := b64Chars.getD ch.toNat '='

/-- A byte where an `int` is expected. -/
def toInt (b : UInt8) : BitVec 32 := b.toBitVec.signExtend 32

/-- `(byte)i`. -/
def toByte (i : BitVec 32) : UInt8 := ⟨i.setWidth 8⟩

/-- `ch0`. -/
def ch0 (bin0 : BitVec 32) : BitVec 32 := (bin0 >>> 2) &&& 0x3F

/-- `ch1`. -/
def ch1 (bin0 bin1 : BitVec 32) : BitVec 32 := ((bin0 &&& 0x3) <<< 4) + ((bin1 >>> 4) &&& 0xF)

/-- `ch2`. -/
def ch2 (bin1 bin2 : BitVec 32) : BitVec 32 := ((bin1 &&& 0xF) <<< 2) + ((bin2 >>> 6) &&& 0x3)

/-- `ch3`. -/
def ch3 (bin2 : BitVec 32) : BitVec 32 := bin2 &&& 0x3F

/-- `ch1` of a single byte. -/
def lastCh1 (bin0 : BitVec 32) : BitVec 32 := (bin0 &&& 0x3) <<< 4

/-- `ch2` of two bytes. -/
def lastCh2 (bin1 : BitVec 32) : BitVec 32 := (bin1 &&& 0xF) <<< 2

/-- `encode`. -/
def encode : List UInt8 → Text
  | bin0 :: bin1 :: bin2 :: rest =>
    charAt (ch0 (toInt bin0)) :: charAt (ch1 (toInt bin0) (toInt bin1)) ::
      charAt (ch2 (toInt bin1) (toInt bin2)) :: charAt (ch3 (toInt bin2)) :: encode rest
  | [bin0, bin1] =>
    [charAt (ch0 (toInt bin0)), charAt (ch1 (toInt bin0) (toInt bin1)),
      charAt (lastCh2 (toInt bin1)), '=']
  | [bin0] => [charAt (ch0 (toInt bin0)), charAt (lastCh1 (toInt bin0)), '=', '=']
  | [] => []

/-! ## Decoding -/

/-- `charToInt`. -/
def charToInt (c : Char) : BitVec 32 :=
  if 'a' ≤ c ∧ c ≤ 'z' then BitVec.ofNat 32 (26 + c.toNat - 'a'.toNat)
  else if 'A' ≤ c ∧ c ≤ 'Z' then BitVec.ofNat 32 (c.toNat - 'A'.toNat)
  else if '0' ≤ c ∧ c ≤ '9' then BitVec.ofNat 32 (52 + c.toNat - '0'.toNat)
  else if c = '+' then 62
  else if c = '/' then 63
  else -1

/-- `bin0`. -/
def bin0 (ch0 ch1 : BitVec 32) : BitVec 32 := (ch0 <<< 2) + (ch1 >>> 4)

/-- `bin1`. -/
def bin1 (ch1 ch2 : BitVec 32) : BitVec 32 := ((ch1.srem 16) <<< 4) + (ch2 >>> 2)

/-- `bin2`. -/
def bin2 (ch2 ch3 : BitVec 32) : BitVec 32 := ((ch2.srem 4) <<< 6) + ch3

/-- The loop that counts `pad_len`, over the characters from the last one on; none is an index out
of range. -/
def padLoop : Text → Option ℕ
  | [] => none
  | c :: s => if c = '=' then (padLoop s).map (· + 1) else some 0

/-- `new byte[n]`; none is a negative size. -/
def newArray (n : ℤ) : Option (List UInt8) :=
  if 0 ≤ n then some (List.replicate n.toNat 0) else none

/-- `output[k]=b`; none is an index out of range. -/
def store (output : List UInt8) (k : ℕ) (b : UInt8) : Option (List UInt8) :=
  if k < output.length then some (output.set k b) else none

/-- The loop over groups of four characters. -/
def decodeGroups : ℕ → ℕ → Text → List UInt8 → Option (List UInt8)
  | 0, _, _, output => some output
  | n + 1, k, c0 :: c1 :: c2 :: c3 :: s, output => do
    let output ← store output k (toByte (bin0 (charToInt c0) (charToInt c1)))
    let output ← store output (k + 1) (toByte (bin1 (charToInt c1) (charToInt c2)))
    let output ← store output (k + 2) (toByte (bin2 (charToInt c2) (charToInt c3)))
    decodeGroups n (k + 3) s output
  | _ + 1, _, _, _ => none

/-- What follows the loop: the one or two bytes that are left. -/
def decodeRest (lenMod3 : ℤ) (k : ℕ) (s : Text) (output : List UInt8) : Option (List UInt8) :=
  if lenMod3 = 1 then
    match s with
    | c0 :: c1 :: _ => store output k (toByte (bin0 (charToInt c0) (charToInt c1)))
    | _ => none
  else if lenMod3 = 2 then
    match s with
    | c0 :: c1 :: c2 :: _ => do
      let output ← store output k (toByte (bin0 (charToInt c0) (charToInt c1)))
      store output (k + 1) (toByte (bin1 (charToInt c1) (charToInt c2)))
    | _ => none
  else some output

/-- `decode`: null, or an array; the outer `none` is an exception. -/
def decode (s : Text) : Option (Option (List UInt8)) :=
  if s.length / 4 * 4 ≠ s.length then some none
  else do
    let padLen ← padLoop s.reverse
    let strLenFloor4 := (s.length - padLen) / 4 * 4
    let lenFloor3 := strLenFloor4 / 4 * 3
    let lenMod3 := (3 - (padLen : ℤ)).tmod 3
    let output ← newArray (lenFloor3 + lenMod3)
    let output ← decodeGroups (strLenFloor4 / 4) 0 s output
    let output ← decodeRest lenMod3 lenFloor3 (s.drop strLenFloor4) output
    some (some output)

/-! ## Six bits -/

section Bits

/-- The parts of a byte, as numbers. -/
theorem toNat_parts (b : UInt8) :
    (((toInt b >>> 2) &&& 0x3F).toNat = b.toNat / 4 ∧
      ((toInt b &&& 0x3) <<< 4).toNat = b.toNat % 4 * 16) ∧
    (((toInt b >>> 4) &&& 0xF).toNat = b.toNat / 16 ∧
      ((toInt b &&& 0xF) <<< 2).toNat = b.toNat % 16 * 4) ∧
    ((toInt b >>> 6) &&& 0x3).toNat = b.toNat / 64 ∧ (toInt b &&& 0x3F).toNat = b.toNat % 64 := by
  have hall : ∀ n < 256, let b := UInt8.ofNat n
      (((toInt b >>> 2) &&& 0x3F).toNat = n / 4 ∧ ((toInt b &&& 0x3) <<< 4).toNat = n % 4 * 16) ∧
      (((toInt b >>> 4) &&& 0xF).toNat = n / 16 ∧ ((toInt b &&& 0xF) <<< 2).toNat = n % 16 * 4) ∧
      ((toInt b >>> 6) &&& 0x3).toNat = n / 64 ∧ (toInt b &&& 0x3F).toNat = n % 64 := by
    decide +kernel
  have hb := hall b.toNat b.toNat_lt
  rwa [UInt8.ofNat_toNat] at hb

theorem toNat_ch0 (b : UInt8) : (ch0 (toInt b)).toNat = b.toNat / 4 := (toNat_parts b).1.1

theorem toNat_lastCh1 (b : UInt8) : (lastCh1 (toInt b)).toNat = b.toNat % 4 * 16 :=
  (toNat_parts b).1.2

theorem toNat_lastCh2 (b : UInt8) : (lastCh2 (toInt b)).toNat = b.toNat % 16 * 4 :=
  (toNat_parts b).2.1.2

theorem toNat_ch3 (b : UInt8) : (ch3 (toInt b)).toNat = b.toNat % 64 := (toNat_parts b).2.2.2

theorem toNat_ch1 (b c : UInt8) :
    (ch1 (toInt b) (toInt c)).toNat = b.toNat % 4 * 16 + c.toNat / 16 := by
  have hc := c.toNat_lt
  rw [ch1, BitVec.toNat_add, (toNat_parts b).1.2, (toNat_parts c).2.1.1]
  exact Nat.mod_eq_of_lt (by omega)

theorem toNat_ch2 (b c : UInt8) :
    (ch2 (toInt b) (toInt c)).toNat = b.toNat % 16 * 4 + c.toNat / 64 := by
  have hc := c.toNat_lt
  rw [ch2, BitVec.toNat_add, (toNat_parts b).2.1.2, (toNat_parts c).2.2.1]
  exact Nat.mod_eq_of_lt (by omega)

variable {c d : BitVec 32}

/-- What `decode` makes of six bits. -/
theorem toNat_shifts (hc : c.toNat < 64) : (c <<< 2).toNat = c.toNat * 4 ∧
    ((c.srem 16) <<< 4).toNat = c.toNat % 16 * 16 ∧ ((c.srem 4) <<< 6).toNat = c.toNat % 4 * 64 := by
  have hall : ∀ n < 64, let c := BitVec.ofNat 32 n
      (c <<< 2).toNat = n * 4 ∧ ((c.srem 16) <<< 4).toNat = n % 16 * 16 ∧
        ((c.srem 4) <<< 6).toNat = n % 4 * 64 := by
    decide +kernel
  have hn := hall c.toNat hc
  rwa [BitVec.ofNat_toNat, BitVec.setWidth_eq] at hn

theorem toByte_eq {i : BitVec 32} {b : UInt8} (h : i.toNat % 256 = b.toNat) : toByte i = b := by
  refine UInt8.toNat_inj.mp ?_
  show (i.setWidth 8).toNat = _
  rw [BitVec.toNat_setWidth]
  exact h

theorem toByte_bin0 {b : UInt8} (hc : c.toNat < 64)
    (h : c.toNat * 4 + d.toNat / 16 = b.toNat) : toByte (bin0 c d) = b := by
  have hb := b.toNat_lt
  refine toByte_eq ?_
  rw [bin0, BitVec.toNat_add, (toNat_shifts hc).1, BitVec.toNat_ushiftRight,
    Nat.shiftRight_eq_div_pow]
  omega

theorem toByte_bin1 {b : UInt8} (hc : c.toNat < 64)
    (h : c.toNat % 16 * 16 + d.toNat / 4 = b.toNat) : toByte (bin1 c d) = b := by
  have hb := b.toNat_lt
  refine toByte_eq ?_
  rw [bin1, BitVec.toNat_add, (toNat_shifts hc).2.1, BitVec.toNat_ushiftRight,
    Nat.shiftRight_eq_div_pow]
  omega

theorem toByte_bin2 {b : UInt8} (hc : c.toNat < 64)
    (h : c.toNat % 4 * 64 + d.toNat = b.toNat) : toByte (bin2 c d) = b := by
  have hb := b.toNat_lt
  refine toByte_eq ?_
  rw [bin2, BitVec.toNat_add, (toNat_shifts hc).2.2]
  omega

/-- A character of the alphabet is read as its number, and it is no `=`. -/
theorem charToInt_charAt (hc : c.toNat < 64) : charToInt (charAt c) = c ∧ charAt c ≠ '=' := by
  have hall : ∀ n < 64, charToInt (b64Chars.getD n '=') = BitVec.ofNat 32 n ∧
      b64Chars.getD n '=' ≠ '=' := by
    decide +kernel
  have hn := hall c.toNat hc
  rwa [BitVec.ofNat_toNat, BitVec.setWidth_eq] at hn

/-- The characters that `encode` takes are in the alphabet. -/
theorem lt_chars (x y z : UInt8) :
    (ch0 (toInt x)).toNat < 64 ∧ (ch1 (toInt x) (toInt y)).toNat < 64 ∧
      (ch2 (toInt y) (toInt z)).toNat < 64 ∧ (ch3 (toInt z)).toNat < 64 ∧
      (lastCh1 (toInt x)).toNat < 64 ∧ (lastCh2 (toInt y)).toNat < 64 := by
  have hx := x.toNat_lt
  have hy := y.toNat_lt
  have hz := z.toNat_lt
  rw [toNat_ch0, toNat_ch1, toNat_ch2, toNat_ch3, toNat_lastCh1, toNat_lastCh2]
  omega

end Bits

/-! ## What was encoded is decoded -/

section RoundTrip

theorem store_append (pre : List UInt8) (a b : UInt8) (l : List UInt8) {k : ℕ}
    (hk : k = pre.length) : store (pre ++ a :: l) k b = some ((pre ++ [b]) ++ l) := by
  subst hk
  rw [store, if_pos (by simp), List.set_append_right _ _ le_rfl, Nat.sub_self, List.set_cons_zero,
    List.append_cons]

/-- A list of three times `n + 1` elements. -/
theorem exists_three {α : Type*} {n : ℕ} {l : List α} (hl : l.length = 3 * (n + 1)) :
    ∃ x y z l', l = x :: y :: z :: l' ∧ l'.length = 3 * n := by
  obtain _ | ⟨x, _ | ⟨y, _ | ⟨z, l'⟩⟩⟩ := l
  · exact absurd hl (by simp)
  · exact absurd hl (by simp; omega)
  · exact absurd hl (by simp; omega)
  · refine ⟨x, y, z, l', rfl, ?_⟩
    simp only [List.length_cons] at hl
    omega

/-- Full groups are encoded one by one. -/
theorem encode_append {n : ℕ} {bs : List UInt8} (hbs : bs.length = 3 * n) (rest : List UInt8) :
    encode (bs ++ rest) = encode bs ++ encode rest ∧ (encode bs).length = 4 * n ∧
      ∀ c ∈ encode bs, c ≠ '=' := by
  induction n generalizing bs with
  | zero =>
    obtain rfl : bs = [] := List.length_eq_zero_iff.mp hbs
    exact ⟨rfl, rfl, nofun⟩
  | succ n ih =>
    obtain ⟨x, y, z, bs, rfl, hlen⟩ := exists_three hbs
    obtain ⟨happend, hlength, hnot⟩ := ih hlen
    obtain ⟨h0, h1, h2, h3, -, -⟩ := lt_chars x y z
    refine ⟨?_, ?_, ?_⟩
    · show _ :: _ :: _ :: _ :: encode (bs ++ rest) = _
      rw [happend]
      rfl
    · show (_ :: _ :: _ :: _ :: encode bs).length = _
      simp only [List.length_cons, hlength]
      omega
    · show ∀ c ∈ _ :: _ :: _ :: _ :: encode bs, c ≠ '='
      simp only [List.forall_mem_cons]
      exact ⟨(charToInt_charAt h0).2, (charToInt_charAt h1).2, (charToInt_charAt h2).2,
        (charToInt_charAt h3).2, hnot⟩

/-- **The loop of `decode` over what was encoded.** -/
theorem decodeGroups_encode {n : ℕ} {bs zeros : List UInt8} (hbs : bs.length = 3 * n)
    (hzeros : zeros.length = 3 * n) (pre post : List UInt8) (rest : Text) :
    decodeGroups n pre.length (encode bs ++ rest) (pre ++ (zeros ++ post)) =
      some (pre ++ (bs ++ post)) := by
  induction n generalizing bs zeros pre with
  | zero =>
    obtain rfl : bs = [] := List.length_eq_zero_iff.mp hbs
    obtain rfl : zeros = [] := List.length_eq_zero_iff.mp hzeros
    rfl
  | succ n ih =>
    obtain ⟨x, y, z, bs, rfl, hlen⟩ := exists_three hbs
    obtain ⟨a, b, c, zeros, rfl, hlen'⟩ := exists_three hzeros
    obtain ⟨h0, h1, h2, h3, -, -⟩ := lt_chars x y z
    have hx := x.toNat_lt
    have hy := y.toNat_lt
    have hz := z.toNat_lt
    have hbin0 : toByte (bin0 (ch0 (toInt x)) (ch1 (toInt x) (toInt y))) = x :=
      toByte_bin0 h0 (by rw [toNat_ch0, toNat_ch1]; omega)
    have hbin1 : toByte (bin1 (ch1 (toInt x) (toInt y)) (ch2 (toInt y) (toInt z))) = y :=
      toByte_bin1 h1 (by rw [toNat_ch1, toNat_ch2]; omega)
    have hbin2 : toByte (bin2 (ch2 (toInt y) (toInt z)) (ch3 (toInt z))) = z :=
      toByte_bin2 h2 (by rw [toNat_ch2, toNat_ch3]; omega)
    have hnext := ih hlen hlen' (pre ++ [x] ++ [y] ++ [z])
    simp only [List.length_append, List.length_singleton] at hnext
    show decodeGroups (n + 1) pre.length (_ :: _ :: _ :: _ :: (encode bs ++ rest))
      (pre ++ a :: b :: c :: (zeros ++ post)) = _
    simp only [decodeGroups, (charToInt_charAt h0).1, (charToInt_charAt h1).1,
      (charToInt_charAt h2).1, (charToInt_charAt h3).1, hbin0, hbin1, hbin2]
    rw [store_append _ _ _ _ rfl, Option.bind_eq_bind, Option.bind_some,
      store_append _ _ _ _ (by simp), Option.bind_some, store_append _ _ _ _ (by simp),
      Option.bind_some, hnext]
    simp

/-- `decode` after `pad_len` has been counted. -/
theorem decode_eq {s : Text} {p n : ℕ} (h4 : s.length % 4 = 0) (hp : padLoop s.reverse = some p)
    (hn : (s.length - p) / 4 = n) :
    decode s = ((newArray ((n * 3 : ℕ) + (3 - (p : ℤ)).tmod 3)).bind fun output =>
      (decodeGroups n 0 s output).bind fun output =>
        decodeRest ((3 - (p : ℤ)).tmod 3) (n * 3) (s.drop (n * 4)) output).map some := by
  rw [decode, if_neg (by omega), hp]
  simp only [Option.bind_eq_bind, Option.bind_some, hn, Nat.mul_div_cancel n (by decide : 0 < 4)]
  cases newArray ((n * 3 : ℕ) + (3 - (p : ℤ)).tmod 3) with
  | none => rfl
  | some output =>
    rw [Option.bind_some, Option.bind_some]
    cases decodeGroups n 0 s output with
    | none => rfl
    | some output =>
      rw [Option.bind_some, Option.bind_some]
      cases decodeRest ((3 - (p : ℤ)).tmod 3) (n * 3) (s.drop (n * 4)) output <;> rfl

theorem padLoop_append {s : Text} {c : Char} (hc : c ≠ '=') (p : ℕ) :
    padLoop (s ++ c :: List.replicate p '=').reverse = some p := by
  rw [List.reverse_append, List.reverse_cons, List.reverse_replicate, List.append_assoc]
  induction p with
  | zero =>
    show padLoop (c :: s.reverse) = some 0
    rw [padLoop, if_neg hc]
  | succ p ih =>
    show padLoop ('=' :: (List.replicate p '=' ++ _)) = _
    rw [padLoop, if_pos rfl, ih]
    rfl

/-- The array is divided into groups of three bytes, and what is left. -/
theorem exists_groups (k : List UInt8) : ∃ n bs rest, k = bs ++ rest ∧ bs.length = 3 * n ∧
    (rest = [] ∨ (∃ x, rest = [x]) ∨ ∃ x y, rest = [x, y]) := by
  refine ⟨k.length / 3, k.take (3 * (k.length / 3)), k.drop (3 * (k.length / 3)),
    (List.take_append_drop _ k).symm, ?_, ?_⟩
  · rw [List.length_take]
    omega
  · have hlength : (k.drop (3 * (k.length / 3))).length = k.length % 3 := by
      rw [List.length_drop]
      omega
    generalize k.drop (3 * (k.length / 3)) = rest at hlength
    obtain _ | ⟨x, _ | ⟨y, _ | ⟨z, l⟩⟩⟩ := rest
    · exact .inl rfl
    · exact .inr (.inl ⟨x, rfl⟩)
    · exact .inr (.inr ⟨x, y, rfl⟩)
    · simp only [List.length_cons] at hlength
      omega

theorem newArray_append (n m : ℕ) :
    newArray ((n * 3 : ℕ) + (m : ℤ)) =
      some ([] ++ (List.replicate (3 * n) 0 ++ List.replicate m 0)) := by
  have hsize : ((n * 3 : ℕ) + (m : ℤ)).toNat = 3 * n + m := by omega
  rw [newArray, if_pos (by omega), hsize, List.replicate_add]
  rfl

/-- **A non-empty array is encoded and decoded again.** -/
theorem decode_encode {k : List UInt8} (hk : k ≠ []) : decode (encode k) = some (some k) := by
  obtain ⟨n, bs, rest, rfl, hbs, hrest⟩ := exists_groups k
  obtain ⟨happend, hlength, hnot⟩ := encode_append hbs rest
  have hzeros : (List.replicate (3 * n) (0 : UInt8)).length = 3 * n := List.length_replicate
  have hgroups (post : List UInt8) (u : Text) := decodeGroups_encode hbs hzeros [] post u
  have hdrop (u : Text) : (encode bs ++ u).drop (n * 4) = u := List.drop_left' (by omega)
  rw [happend]
  rcases hrest with rfl | ⟨x, rfl⟩ | ⟨x, y, rfl⟩
  · -- nothing is left, and the last character is no `=`
    have hne : encode bs ≠ [] := by
      intro hnil
      rw [hnil, List.length_nil] at hlength
      rw [List.append_nil] at hk
      exact hk (List.length_eq_zero_iff.mp (by omega))
    have hpad : padLoop (encode bs ++ encode []).reverse = some 0 := by
      have hlast := List.dropLast_append_getLast hne
      rw [show encode [] = [] from rfl, List.append_nil, ← hlast]
      exact padLoop_append (hnot _ (List.getLast_mem hne)) 0
    have hlen : (encode bs ++ encode []).length = 4 * n := by
      rw [show encode [] = [] from rfl, List.append_nil, hlength]
    rw [decode_eq (n := n) (by omega) hpad (by omega),
      show (3 - ((0 : ℕ) : ℤ)).tmod 3 = ((0 : ℕ) : ℤ) from rfl, newArray_append, Option.bind_some,
      show (0 : ℕ) = ([] : List UInt8).length from rfl, hgroups]
    rfl
  · obtain ⟨h0, -, -, -, h1, -⟩ := lt_chars x x x
    have hx := x.toNat_lt
    have hbin0 : toByte (bin0 (ch0 (toInt x)) (lastCh1 (toInt x))) = x :=
      toByte_bin0 h0 (by rw [toNat_ch0, toNat_lastCh1]; omega)
    have hpad : padLoop (encode bs ++ encode [x]).reverse = some 2 := by
      have happ := padLoop_append (s := encode bs ++ [charAt (ch0 (toInt x))])
        (charToInt_charAt h1).2 2
      rwa [List.append_assoc] at happ
    have hlen : (encode bs ++ encode [x]).length = 4 * n + 4 := by
      rw [List.length_append, hlength]
      rfl
    rw [decode_eq (n := n) (by omega) hpad (by omega),
      show (3 - ((2 : ℕ) : ℤ)).tmod 3 = ((1 : ℕ) : ℤ) from rfl, newArray_append, Option.bind_some,
      show (0 : ℕ) = ([] : List UInt8).length from rfl, hgroups, Option.bind_some, hdrop]
    simp only [encode, decodeRest, (charToInt_charAt h0).1, (charToInt_charAt h1).1, hbin0]
    rw [if_pos (by decide), List.nil_append, List.replicate_one, store_append _ _ _ _ (by omega)]
    simp
  · obtain ⟨h0, h1, -, -, -, h2⟩ := lt_chars x y x
    have hx := x.toNat_lt
    have hy := y.toNat_lt
    have hbin0 : toByte (bin0 (ch0 (toInt x)) (ch1 (toInt x) (toInt y))) = x :=
      toByte_bin0 h0 (by rw [toNat_ch0, toNat_ch1]; omega)
    have hbin1 : toByte (bin1 (ch1 (toInt x) (toInt y)) (lastCh2 (toInt y))) = y :=
      toByte_bin1 h1 (by rw [toNat_ch1, toNat_lastCh2]; omega)
    have hpad : padLoop (encode bs ++ encode [x, y]).reverse = some 1 := by
      have happ := padLoop_append
        (s := encode bs ++ [charAt (ch0 (toInt x)), charAt (ch1 (toInt x) (toInt y))])
        (charToInt_charAt h2).2 1
      rwa [List.append_assoc] at happ
    have hlen : (encode bs ++ encode [x, y]).length = 4 * n + 4 := by
      rw [List.length_append, hlength]
      rfl
    rw [decode_eq (n := n) (by omega) hpad (by omega),
      show (3 - ((1 : ℕ) : ℤ)).tmod 3 = ((2 : ℕ) : ℤ) from rfl, newArray_append, Option.bind_some,
      show (0 : ℕ) = ([] : List UInt8).length from rfl, hgroups, Option.bind_some, hdrop]
    simp only [encode, decodeRest, (charToInt_charAt h0).1, (charToInt_charAt h1).1,
      (charToInt_charAt h2).1, hbin0, hbin1]
    rw [if_neg (by decide), if_pos (by decide), List.nil_append,
      show List.replicate 2 (0 : UInt8) = 0 :: [0] from rfl, store_append _ _ _ _ (by omega),
      Option.bind_eq_bind, Option.bind_some, store_append _ _ _ _ (by simp; omega)]
    simp

end RoundTrip

theorem charAt_mem (c : BitVec 32) : charAt c ∈ '=' :: b64Chars := by
  unfold charAt
  rw [List.getD_eq_getElem?_getD]
  cases h : b64Chars[c.toNat]? with
  | none => exact List.mem_cons_self ..
  | some d => exact List.mem_cons_of_mem _ (List.mem_of_getElem? h)

/-- What is encoded has no characters of its own. -/
theorem mem_encode {bs : List UInt8} {c : Char} (h : c ∈ encode bs) : c ∈ '=' :: b64Chars := by
  fun_induction encode bs with
  | case1 x y z bs ih =>
    simp only [List.mem_cons] at h
    rcases h with rfl | rfl | rfl | rfl | h
    · exact charAt_mem _
    · exact charAt_mem _
    · exact charAt_mem _
    · exact charAt_mem _
    · exact ih h
  | case2 x y =>
    simp only [List.mem_cons, List.not_mem_nil, or_false] at h
    rcases h with rfl | rfl | rfl | rfl
    · exact charAt_mem _
    · exact charAt_mem _
    · exact charAt_mem _
    · exact List.mem_cons_self ..
  | case3 x =>
    simp only [List.mem_cons, List.not_mem_nil, or_false] at h
    rcases h with rfl | rfl | rfl | rfl
    · exact charAt_mem _
    · exact charAt_mem _
    · exact List.mem_cons_self ..
    · exact List.mem_cons_self ..
  | case4 => exact absurd h List.not_mem_nil

theorem encode_ne_nil {bs : List UInt8} (h : bs ≠ []) : encode bs ≠ [] := by
  obtain _ | ⟨x, _ | ⟨y, _ | ⟨z, bs⟩⟩⟩ := bs
  · exact absurd rfl h
  · exact List.cons_ne_nil _ _
  · exact List.cons_ne_nil _ _
  · exact List.cons_ne_nil _ _

/-! ## What comes from elsewhere -/

/-- How many `=` stand at the end. -/
def padLength (s : Text) : ℕ := (s.reverse.takeWhile (· = '=')).length

section Total

/-- The loop stops at a character that is no `=`. -/
theorem padLoop_of_exists {s : Text} (h : ∃ c ∈ s, c ≠ '=') :
    padLoop s = some (s.takeWhile (· = '=')).length := by
  induction s with
  | nil =>
    obtain ⟨c, hc, -⟩ := h
    exact absurd hc List.not_mem_nil
  | cons c s ih =>
    by_cases hc : c = '='
    · subst hc
      obtain ⟨d, hd, hne⟩ := h
      have hs : d ∈ s := (List.mem_cons.mp hd).resolve_left hne
      rw [padLoop, if_pos rfl, ih ⟨d, hs, hne⟩]
      simp
    · rw [padLoop, if_neg hc]
      simp [hc]

/-- Without one, it leaves the text. -/
theorem padLoop_of_forall {s : Text} (h : ∀ c ∈ s, c = '=') : padLoop s = none := by
  induction s with
  | nil => rfl
  | cons c s ih =>
    obtain ⟨hc, hs⟩ := List.forall_mem_cons.mp h
    rw [padLoop, if_pos hc, ih hs]
    rfl

theorem store_eq_none {output : List UInt8} {k : ℕ} (h : output.length ≤ k) (b : UInt8) :
    store output k b = none := if_neg (by omega)

theorem store_eq_some {o : List UInt8} {k : ℕ} (h : k < o.length) (b : UInt8) :
    ∃ output, store o k b = some output ∧ output.length = o.length :=
  ⟨_, if_pos h, List.length_set⟩

/-- **How far the loop of `decode` goes**: all groups are stored, or an index is out of range. -/
theorem decodeGroups_spec {n k : ℕ} {s : Text} {o : List UInt8} (hs : 4 * n ≤ s.length) :
    if n = 0 ∨ k + 3 * n ≤ o.length then
      ∃ o', decodeGroups n k s o = some o' ∧ o'.length = o.length
    else decodeGroups n k s o = none := by
  induction n generalizing k s o with
  | zero =>
    rw [if_pos (.inl rfl)]
    exact ⟨o, rfl, rfl⟩
  | succ n ih =>
    obtain _ | ⟨c0, _ | ⟨c1, _ | ⟨c2, _ | ⟨c3, s⟩⟩⟩⟩ := s
    · exact absurd hs (by simp)
    · exact absurd hs (by simp; omega)
    · exact absurd hs (by simp; omega)
    · exact absurd hs (by simp; omega)
    · simp only [List.length_cons] at hs
      rw [decodeGroups]
      by_cases h0 : k < o.length
      · obtain ⟨output0, heq0, hlen0⟩ := store_eq_some h0 (toByte (bin0 (charToInt c0) (charToInt c1)))
        rw [heq0, Option.bind_eq_bind, Option.bind_some]
        by_cases h1 : k + 1 < o.length
        · obtain ⟨output1, heq1, hlen1⟩ := store_eq_some (o := output0) (hlen0 ▸ h1)
            (toByte (bin1 (charToInt c1) (charToInt c2)))
          rw [heq1, Option.bind_some]
          by_cases h2 : k + 2 < o.length
          · obtain ⟨output2, heq2, hlen2⟩ := store_eq_some (o := output1)
              (hlen1 ▸ hlen0 ▸ h2) (toByte (bin2 (charToInt c2) (charToInt c3)))
            have hlen : output2.length = o.length := by omega
            have hnext := ih (k := k + 3) (s := s) (o := output2) (by omega)
            rw [heq2, Option.bind_some]
            by_cases hroom : n = 0 ∨ k + 3 + 3 * n ≤ output2.length
            · rw [if_pos hroom, hlen] at hnext
              rw [if_pos (by omega)]
              exact hnext
            · rw [if_neg hroom] at hnext
              rw [if_neg (by omega)]
              exact hnext
          · rw [store_eq_none (by omega), if_neg (by omega)]
            rfl
        · rw [store_eq_none (by omega), if_neg (by omega)]
          rfl
      · rw [store_eq_none (by omega), if_neg (by omega)]
        rfl

/-- What follows the loop, where there are enough characters and enough room. -/
theorem decodeRest_spec {r k : ℕ} (hr : r < 3) {s : Text} {o : List UInt8}
    (hs : 0 < r → r < s.length) (hk : k + r ≤ o.length) :
    decodeRest r k s o ≠ none := by
  obtain rfl | rfl | rfl : r = 0 ∨ r = 1 ∨ r = 2 := by omega
  · exact Option.some_ne_none _
  · obtain _ | ⟨c0, _ | ⟨c1, s⟩⟩ := s
    · exact absurd (hs (by decide)) (by simp)
    · exact absurd (hs (by decide)) (by simp)
    · obtain ⟨output', heq, -⟩ := store_eq_some (o := o) (k := k) (by omega)
        (toByte (bin0 (charToInt c0) (charToInt c1)))
      show store _ _ _ ≠ none
      rw [heq]
      exact Option.some_ne_none _
  · obtain _ | ⟨c0, _ | ⟨c1, _ | ⟨c2, s⟩⟩⟩ := s
    · exact absurd (hs (by decide)) (by simp)
    · exact absurd (hs (by decide)) (by simp)
    · exact absurd (hs (by decide)) (by simp)
    · obtain ⟨output', heq, hlen⟩ := store_eq_some (o := o) (k := k) (by omega)
        (toByte (bin0 (charToInt c0) (charToInt c1)))
      obtain ⟨output'', heq', -⟩ := store_eq_some (o := output') (k := k + 1) (by omega)
        (toByte (bin1 (charToInt c1) (charToInt c2)))
      show (store _ _ _).bind _ ≠ none
      rw [heq, Option.bind_some, heq']
      exact Option.some_ne_none _

/-- With room for all groups and the rest, `decode` returns an array. -/
theorem decode_ne_none {s : Text} {p r : ℕ} (h4 : s.length % 4 = 0)
    (hp : padLoop s.reverse = some p) (hr : (3 - (p : ℤ)).tmod 3 = r) (hr3 : r < 3)
    (hrest : 0 < r → r < s.length - (s.length - p) / 4 * 4) : decode s ≠ none := by
  have hgroups := decodeGroups_spec (n := (s.length - p) / 4) (k := 0) (s := s)
    (o := [] ++ (List.replicate (3 * ((s.length - p) / 4)) 0 ++ List.replicate r 0)) (by omega)
  have hroom : (s.length - p) / 4 = 0 ∨ 0 + 3 * ((s.length - p) / 4) ≤
      ([] ++ (List.replicate (3 * ((s.length - p) / 4)) (0 : UInt8) ++
        List.replicate r 0)).length := by
    simp
  rw [if_pos hroom] at hgroups
  obtain ⟨output, heq, hlength⟩ := hgroups
  have hdone := decodeRest_spec (k := (s.length - p) / 4 * 3) (o := output)
    (s := s.drop ((s.length - p) / 4 * 4)) hr3
    (fun h => by
      rw [List.length_drop]
      exact hrest h)
    (by
      rw [hlength]
      simp
      omega)
  rw [decode_eq h4 hp rfl, hr, newArray_append, Option.bind_some, heq, Option.bind_some]
  simpa using hdone

/-- With less room than the groups need, there is an exception. -/
theorem decode_eq_none {s : Text} {p : ℕ} (h4 : s.length % 4 = 0)
    (hp : padLoop s.reverse = some p) (hr : (3 - (p : ℤ)).tmod 3 < 0) : decode s = none := by
  rw [decode_eq h4 hp rfl]
  unfold newArray
  by_cases hsize : 0 ≤ ((s.length - p) / 4 * 3 : ℕ) + (3 - (p : ℤ)).tmod 3
  · have hgroups := decodeGroups_spec (n := (s.length - p) / 4) (k := 0) (s := s)
      (o := List.replicate (((s.length - p) / 4 * 3 : ℕ) + (3 - (p : ℤ)).tmod 3).toNat 0)
      (by omega)
    rw [if_neg (by rw [List.length_replicate]; omega)] at hgroups
    rw [if_pos hsize, Option.bind_some, hgroups]
    rfl
  · rw [if_neg hsize]
    rfl

theorem padLength_lt {s : Text} (hs : ∃ c ∈ s, c ≠ '=') : padLength s < s.length := by
  obtain ⟨c, hc, hne⟩ := hs
  have hpre := List.takeWhile_prefix (· = '=') (l := s.reverse)
  refine lt_of_le_of_ne ?_ fun heq => hne ?_
  · have hlength : s.reverse.length = s.length := List.length_reverse
    exact hlength ▸ hpre.length_le
  · have hall := hpre.eq_of_length (heq.trans List.length_reverse.symm)
    have hmem : c ∈ s.reverse.takeWhile (· = '=') := by
      rw [hall]
      exact List.mem_reverse.mpr hc
    simpa using List.mem_takeWhile_imp hmem

/-- **`decode` returns null or an array if and only if** the length is no multiple of four, or there
is something else than `=`, and the number of `=` at the end is less than four or a multiple of
three. -/
theorem decode_returns_iff (s : Text) :
    decode s ≠ none ↔ s.length % 4 ≠ 0 ∨
      (∃ c ∈ s, c ≠ '=') ∧ (padLength s < 4 ∨ padLength s % 3 = 0) := by
  by_cases h4 : s.length % 4 = 0
  · rw [or_iff_right (not_not.mpr h4)]
    by_cases hex : ∃ c ∈ s, c ≠ '='
    · have hloop : padLoop s.reverse = some (padLength s) := by
        obtain ⟨c, hc, hne⟩ := hex
        exact padLoop_of_exists ⟨c, List.mem_reverse.mpr hc, hne⟩
      have hlt := padLength_lt hex
      rw [and_iff_right hex]
      constructor
      · intro h
        by_contra hnot
        refine h (decode_eq_none h4 hloop ?_)
        rw [show 3 - (padLength s : ℤ) = -((padLength s - 3 : ℕ) : ℤ) by omega, Int.neg_tmod]
        have hmod : ((padLength s - 3 : ℕ) : ℤ).tmod 3 = ((padLength s - 3) % 3 : ℕ) := rfl
        rw [hmod]
        omega
      · intro h
        rcases Nat.lt_or_ge (padLength s) 4 with h' | h'
        · obtain h' | h' | h' | h' : padLength s = 0 ∨ padLength s = 1 ∨ padLength s = 2 ∨
              padLength s = 3 := by omega
          · rw [h'] at hloop
            exact decode_ne_none h4 hloop (r := 0) rfl (by decide) nofun
          · rw [h'] at hloop
            exact decode_ne_none h4 hloop (r := 2) rfl (by decide) fun _ => by omega
          · rw [h'] at hloop
            exact decode_ne_none h4 hloop (r := 1) rfl (by decide) fun _ => by omega
          · rw [h'] at hloop
            exact decode_ne_none h4 hloop (r := 0) rfl (by decide) nofun
        · refine decode_ne_none h4 hloop (r := 0) ?_ (by decide) nofun
          rw [show 3 - (padLength s : ℤ) = -((padLength s - 3 : ℕ) : ℤ) by omega, Int.neg_tmod]
          have hmod : ((padLength s - 3 : ℕ) : ℤ).tmod 3 = ((padLength s - 3) % 3 : ℕ) := rfl
          rw [hmod]
          omega
    · have hloop : padLoop s.reverse = none := by
        refine padLoop_of_forall fun c hc => ?_
        by_contra hne
        exact hex ⟨c, List.mem_reverse.mp hc, hne⟩
      have hnone : decode s = none := by
        rw [decode, if_neg (by omega), hloop]
        rfl
      exact ⟨fun h => absurd hnone h, fun h => absurd h.1 hex⟩
  · rw [decode, if_pos (by omega)]
    exact ⟨fun _ => .inl h4, fun _ => Option.some_ne_none _⟩

/-- **The empty string, and four `=` behind a group, are exceptions.** -/
theorem decode_throws : decode [] = none ∧ decode "QUJD====".toList = none := ⟨rfl, by decide⟩

end Total

end Base64
end SoftPhone
