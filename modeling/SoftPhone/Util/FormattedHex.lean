import SoftPhone.Auth.DigestAuthentication
import SoftPhone.Util.Arrays

/-!
# Formatted hexadecimal texts

`bytesToFormattedHexString` writes the bytes of an array in blocks, with a separator between them,
into an array of characters whose length is computed beforehand.  `formattedHexStringToBytes` skips
the separators.  An exception is `none`.

* `decodeLoop_of_filter`: what is read is what is left without the separators.
* `encodeLoop_eq`: what is written is `formatted`, if the length of the array is right.
* `strLen_of_lt`, `strLen_lt`: the length is right as long as nothing overflows, and otherwise too
  small.
-/

namespace SoftPhone
namespace ByteUtils

open Arrays
open Base64 (toInt)
open DigestAuthentication (asHex_cons mem_asHex)

/-! ## The functions -/

/-- `isHexDigit`. -/
def isHexDigit (c : Char) : Bool :=
  decide (('0' ≤ c ∧ c ≤ '9') ∨ ('a' ≤ c ∧ c ≤ 'f') ∨ ('A' ≤ c ∧ c ≤ 'F'))

/-- `hexValueWithException`. -/
def hexValueWithException (c : Char) : Option ℕ :=
  if '0' ≤ c ∧ c ≤ '9' then some (c.toNat - '0'.toNat)
  else if 'a' ≤ c ∧ c ≤ 'f' then some (c.toNat - 'W'.toNat)
  else if 'A' ≤ c ∧ c ≤ 'F' then some (c.toNat - '7'.toNat)
  else none

/-- `len*2+((len+num-1)/num)-1`. -/
def strLen (len num : ℤ) : ℤ :=
  int32 (int32 (int32 (len * 2) + (int32 (int32 (len + num) - 1)).tdiv num) - 1)

/-- The loop of `bytesToFormattedHexString` from the `i`-th byte on, with `k` bytes to go. -/
def encodeLoop (buf : List UInt8) (off : ℤ) (c : Char) (num len : ℤ) :
    ℕ → ℕ → ℤ → Text → Option Text
  | 0, _, _, str => some str
  | k + 1, i, index, str =>
    (load buf (off + i)).bind fun b =>
      (store str index (hexDigit ((toInt b &&& 0xF0).sshiftRight 4).toNat)).bind fun str =>
        (store str (index + 1) (hexDigit (toInt b &&& 0x0F).toNat)).bind fun str =>
          if ((i + 1 : ℕ) : ℤ).tmod num = 0 ∧ index + 1 + 1 < len then
            (store str (index + 1 + 1) c).bind fun str =>
              encodeLoop buf off c num len k (i + 1) (index + 1 + 1 + 1) str
          else encodeLoop buf off c num len k (i + 1) (index + 1 + 1) str

/-- `bytesToFormattedHexString(buf,off,len,c,num)`.  The array is filled with NULs. -/
def bytesToFormattedHexStringPart (buf : List UInt8) (off len : ℤ) (c : Char) (num : ℤ) :
    Option Text :=
  if num = 0 ∨ strLen len num < 0 then none
  else encodeLoop buf off c num (strLen len num) len.toNat 0 0
    (List.replicate (strLen len num).toNat (Char.ofNat 0))

/-- `bytesToFormattedHexString(data,c,num)`. -/
def bytesToFormattedHexString (data : List UInt8) (c : Char) (num : ℤ) : Option Text :=
  bytesToFormattedHexStringPart data 0 data.length c num

/-- `while ((c0=str.charAt(i++))==c);`: the character that is no separator, and what is behind it. -/
def charOtherThan (c : Char) : Text → Option (Char × Text)
  | [] => none
  | c0 :: str => if c0 = c then charOtherThan c str else some (c0, str)

theorem length_charOtherThan {c c0 : Char} {str rest : Text}
    (h : charOtherThan c str = some (c0, rest)) : rest.length < str.length := by
  induction str with
  | nil => nomatch h
  | cons c1 str ih =>
    rw [charOtherThan] at h
    rw [List.length_cons]
    split at h
    · exact Nat.lt_succ_of_lt (ih h)
    · obtain ⟨-, rfl⟩ := Prod.mk.inj (Option.some.inj h)
      exact Nat.lt_succ_self _

/-- The loop of `formattedHexStringToBytes(str,c,buf,off)`, with what is left of the text. -/
def decodeLoop (c : Char) (str : Text) (buf : List UInt8) (index : ℤ) : Option (List UInt8) :=
  if str = [] then some buf
  else
    match _ : charOtherThan c str with
    | none => none
    | some (c0, str0) =>
      match _ : charOtherThan c str0 with
      | none => none
      | some (c1, str1) =>
        (hexValueWithException c0).bind fun d0 =>
          (hexValueWithException c1).bind fun d1 =>
            (store buf index (UInt8.ofNat (d0 <<< 4 + d1))).bind fun buf =>
              decodeLoop c str1 buf (index + 1)
termination_by str.length
decreasing_by
  have hlt0 := length_charOtherThan ‹charOtherThan c str = some (c0, str0)›
  have hlt1 := length_charOtherThan ‹charOtherThan c str0 = some (c1, str1)›
  omega

/-- `formattedHexStringToBytes(str,c,len)`. -/
def formattedHexStringToBytesOfLen (str : Text) (c : Char) (len : ℤ) : Option (List UInt8) :=
  let count := str.countP (· ≠ c)
  if len < 0 then
    if count % 2 = 1 then none else decodeLoop c str (List.replicate (count / 2) 0) 0
  else decodeLoop c str (List.replicate len.toNat 0) 0

/-- `formattedHexStringToBytes(str,c)`. -/
def formattedHexStringToBytes (str : Text) (c : Char) : Option (List UInt8) :=
  formattedHexStringToBytesOfLen str c (-1)

/-! ## Reading -/

variable {c : Char} {str : Text} {data : List UInt8}

theorem charOtherThan_of_filter {c0 : Char} {l : Text} (h : str.filter (· ≠ c) = c0 :: l) :
    ∃ rest, charOtherThan c str = some (c0, rest) ∧ rest.filter (· ≠ c) = l ∧ rest <:+ str := by
  induction str with
  | nil => nomatch h
  | cons c1 str ih =>
    by_cases hc : c1 = c
    · rw [List.filter_cons_of_neg (by simp [hc])] at h
      obtain ⟨rest, hrest, hfilter, hsuffix⟩ := ih h
      exact ⟨rest, (if_pos hc).trans hrest, hfilter, hsuffix.trans (List.suffix_cons c1 str)⟩
    · rw [List.filter_cons_of_pos (by simp [hc])] at h
      obtain ⟨rfl, hl⟩ := List.cons.inj h
      exact ⟨str, if_neg hc, hl, List.suffix_cons c1 str⟩

/-- A round of the loop. -/
theorem decodeLoop_of_two {c0 c1 : Char} {str0 str1 : Text} {buf : List UInt8} {index : ℤ}
    (h0 : charOtherThan c str = some (c0, str0)) (h1 : charOtherThan c str0 = some (c1, str1)) :
    decodeLoop c str buf index =
      (hexValueWithException c0).bind fun d0 => (hexValueWithException c1).bind fun d1 =>
        (store buf index (UInt8.ofNat (d0 <<< 4 + d1))).bind fun buf =>
          decodeLoop c str1 buf (index + 1) := by
  have hne : str ≠ [] := by
    rintro rfl
    nomatch h0
  rw [decodeLoop, if_neg hne]
  split
  · next hnone => nomatch h0.symm.trans hnone
  · next c0' str0' hsome =>
    obtain ⟨rfl, rfl⟩ := Prod.mk.inj (Option.some.inj (h0.symm.trans hsome))
    split
    · next hnone => nomatch h1.symm.trans hnone
    · next c1' str1' hsome1 =>
      obtain ⟨rfl, rfl⟩ := Prod.mk.inj (Option.some.inj (h1.symm.trans hsome1))
      rfl

theorem hexValueWithException_hexDigit {d : ℕ} (h : d < 16) :
    hexValueWithException (hexDigit d) = some d := by
  have hall : ∀ d < 16, hexValueWithException (hexDigit d) = some d := by decide
  exact hall d h

theorem ofNat_digits (b : UInt8) : UInt8.ofNat ((b.toNat / 16) <<< 4 + b.toNat % 16) = b := by
  have hshift : (b.toNat / 16) <<< 4 = b.toNat / 16 * 16 := Nat.shiftLeft_eq _ 4
  rw [hshift, Nat.mul_comm, Nat.div_add_mod, UInt8.ofNat_toNat]

/-- **What is read is what is left without the separators.**  A separator at the end is not
skipped: there the loop asks for a character behind the end. -/
theorem decodeLoop_of_filter {buf : List UInt8} {index : ℤ}
    (h : str.filter (· ≠ c) = asHex data) (hlast : ∀ c' ∈ str.getLast?, c' ≠ c) :
    decodeLoop c str buf index = storeAll buf index data := by
  induction data generalizing str buf index with
  | nil =>
    have hnil : str = [] := by
      by_contra hne
      have hmem := List.getLast_mem hne
      have hother := hlast _ (List.getLast?_eq_some_getLast hne)
      exact List.filter_eq_nil_iff.mp h _ hmem (by simp [hother])
    rw [decodeLoop, if_pos hnil, storeAll]
  | cons b data ih =>
    have hlt := b.toNat_lt
    rw [asHex_cons] at h
    obtain ⟨str0, h0, hfilter0, hsuffix0⟩ := charOtherThan_of_filter h
    obtain ⟨str1, h1, hfilter1, hsuffix1⟩ := charOtherThan_of_filter hfilter0
    have hlast1 : ∀ c' ∈ str1.getLast?, c' ≠ c := by
      intro c' hc'
      obtain ⟨before, rfl⟩ := hsuffix1.trans hsuffix0
      refine hlast c' ?_
      rw [List.getLast?_append, Option.mem_def.mp hc']
      rfl
    rw [decodeLoop_of_two h0 h1, hexValueWithException_hexDigit (by omega), Option.bind_some,
      hexValueWithException_hexDigit (by omega), Option.bind_some, ofNat_digits, storeAll]
    congr 1
    funext buf
    exact ih hfilter1 hlast1

/-! ## Writing -/

/-- **The formatted text** of some bytes, the `i`-th one of the array and those behind it. -/
def formatted (c : Char) (num : ℕ) : ℕ → List UInt8 → Text
  | _, [] => []
  | i, b :: data =>
    asHex [b] ++ ((if num ∣ i + 1 ∧ data ≠ [] then [c] else []) ++ formatted c num (i + 1) data)

theorem length_asHex (data : List UInt8) : (asHex data).length = 2 * data.length := by
  induction data with
  | nil => rfl
  | cons b data ih =>
    rw [asHex_cons, List.length_cons, List.length_cons, ih, List.length_cons]
    omega

theorem isHexDigit_of_mem_asHex {c' : Char} (h : c' ∈ asHex data) : isHexDigit c' = true := by
  have hall : ∀ c' ∈ "0123456789abcdef".toList, isHexDigit c' = true := by decide
  exact hall c' (mem_asHex h)

theorem ne_of_mem_asHex (hc : isHexDigit c = false) {c' : Char} (h : c' ∈ asHex data) : c' ≠ c := by
  rintro rfl
  exact Bool.noConfusion (hc.symm.trans (isHexDigit_of_mem_asHex h))

/-- Without the separators there are the digits. -/
theorem filter_formatted (hc : isHexDigit c = false) (num i : ℕ) :
    (formatted c num i data).filter (· ≠ c) = asHex data := by
  induction data generalizing i with
  | nil => rfl
  | cons b data ih =>
    have hb : (asHex [b]).filter (· ≠ c) = asHex [b] :=
      List.filter_eq_self.mpr fun c' hc' => decide_eq_true (ne_of_mem_asHex hc hc')
    have hseparator : (if num ∣ i + 1 ∧ data ≠ [] then [c] else []).filter (· ≠ c) = [] := by
      split <;> simp
    rw [formatted, List.filter_append, List.filter_append, hb, hseparator, ih, List.nil_append]
    rfl

/-- There is no separator at the end. -/
theorem getLast?_formatted (hc : isHexDigit c = false) (num i : ℕ) :
    ∀ c' ∈ (formatted c num i data).getLast?, c' ≠ c := by
  induction data generalizing i with
  | nil => exact fun c' h => nomatch h
  | cons b data ih =>
    intro c' h
    cases data with
    | nil =>
      rw [formatted, if_neg (fun hd => hd.2 rfl), formatted, List.append_nil, List.append_nil] at h
      exact ne_of_mem_asHex hc (List.mem_of_mem_getLast? h)
    | cons b' data =>
      have hne : formatted c num (i + 1) (b' :: data) ≠ [] := by
        rw [formatted, asHex_cons]
        exact List.cons_ne_nil _ _
      rw [formatted, List.getLast?_append_of_ne_nil _ (List.append_ne_nil_of_right_ne_nil _ hne),
        List.getLast?_append_of_ne_nil _ hne] at h
      exact ih (i + 1) c' h

/-- The number of separators is that of the blocks but the last one. -/
theorem length_formatted (c : Char) (num i : ℕ) (hdata : data ≠ []) :
    (formatted c num i data).length + i / num = 2 * data.length + (i + data.length - 1) / num := by
  induction data generalizing i with
  | nil => exact absurd rfl hdata
  | cons b data ih =>
    rw [formatted, List.length_append, List.length_append, length_asHex, List.length_singleton,
      List.length_cons]
    cases data with
    | nil =>
      rw [if_neg (fun hd => hd.2 rfl), formatted, List.length_nil, List.length_nil, Nat.zero_add,
        Nat.add_sub_cancel]
    | cons b' data =>
      have ih := ih (i + 1) (List.cons_ne_nil b' data)
      have hdiv := Nat.succ_div (a := i) (b := num)
      have hsum : i + ((b' :: data).length + 1) - 1 = i + 1 + (b' :: data).length - 1 := by omega
      rw [hsum]
      by_cases hdvd : num ∣ i + 1
      · rw [if_pos hdvd] at hdiv
        rw [if_pos ⟨hdvd, List.cons_ne_nil b' data⟩, List.length_singleton]
        omega
      · rw [if_neg hdvd] at hdiv
        rw [if_neg fun hd => hdvd hd.1, List.length_nil]
        omega

/-- **What is written is the formatted text, if the length of the array is right.** -/
theorem encodeLoop_eq {buf : List UInt8} {off num i k : ℕ} {index len : ℤ}
    (hbuf : off + i + k ≤ buf.length)
    (hlen : len = index + (formatted c num i (Words.slice buf (off + i) k)).length) :
    encodeLoop buf off c num len k i index str =
      storeAll str index (formatted c num i (Words.slice buf (off + i) k)) := by
  induction k generalizing i index str with
  | zero => rw [Words.slice_zero, formatted, storeAll, encodeLoop]
  | succ k ih =>
    have hlt : off + i < buf.length := by omega
    have hload : load buf (off + i) = some buf[off + i] := by
      rw [← Nat.cast_add]
      exact load_natCast hlt
    rw [Words.slice_succ hlt, formatted] at hlen ⊢
    have hmod : ((i + 1 : ℕ) : ℤ).tmod num = 0 ↔ num ∣ i + 1 := by
      rw [← Int.dvd_iff_tmod_eq_zero, Int.natCast_dvd_natCast]
    have hnext : off + i + 1 = off + (i + 1) := Nat.add_assoc off i 1
    rw [List.length_append, List.length_append, length_asHex, List.length_singleton, hnext] at hlen
    rw [encodeLoop, hload, Option.bind_some, hnext]
    show _ = (store str index _).bind fun str => (store str (index + 1) _).bind fun str => _
    refine congrArg _ (funext fun str => congrArg _ (funext fun str => ?_))
    by_cases hseparator : num ∣ i + 1 ∧ Words.slice buf (off + (i + 1)) k ≠ []
    · rw [if_pos hseparator] at hlen ⊢
      rw [List.length_singleton] at hlen
      rw [if_pos ⟨hmod.mpr hseparator.1, by omega⟩]
      exact congrArg _ (funext fun str => ih (by omega) (by omega))
    · rw [if_neg hseparator, List.length_nil] at hlen
      rw [if_neg hseparator]
      have hshort : ¬ (((i + 1 : ℕ) : ℤ).tmod num = 0 ∧ index + 1 + 1 < len) := by
        intro hstore
        refine hseparator ⟨hmod.mp hstore.1, fun hnil => ?_⟩
        rw [hnil, formatted, List.length_nil] at hlen
        omega
      rw [if_neg hshort]
      exact ih (by omega) (by omega)

/-- **If the array is too short for the digits, the loop throws.** -/
theorem le_length_of_encodeLoop {buf : List UInt8} {off num len index : ℤ} {i k : ℕ} {str' : Text}
    (hk : 0 < k) (h : encodeLoop buf off c num len k i index str = some str') :
    index + 2 * k ≤ str.length := by
  induction k generalizing i index str with
  | zero => exact absurd hk (Nat.lt_irrefl 0)
  | succ k ih =>
    rw [encodeLoop] at h
    obtain ⟨b, -, h⟩ := Option.bind_eq_some_iff.mp h
    obtain ⟨str0, h0, h⟩ := Option.bind_eq_some_iff.mp h
    obtain ⟨str1, h1, h⟩ := Option.bind_eq_some_iff.mp h
    obtain ⟨-, hlen0⟩ := store_eq_some h0
    obtain ⟨hlt1, hlen1⟩ := store_eq_some h1
    rcases Nat.eq_zero_or_pos k with rfl | hk'
    · omega
    · split at h
      · obtain ⟨str2, h2, h⟩ := Option.bind_eq_some_iff.mp h
        obtain ⟨-, hlen2⟩ := store_eq_some h2
        have ih := ih hk' h
        omega
      · have ih := ih hk' h
        omega

/-! ## The length of the array -/

theorem strLen_eq (len num : ℤ) :
    strLen len num = int32 (2 * len - 1 + (int32 (len + num - 1)).tdiv num) := by
  have hcomm : ∀ q : ℤ, len * 2 + q - 1 = 2 * len - 1 + q := fun q => by omega
  rw [strLen, Int.sub_eq_add_neg (a := int32 (len + num)), int32_add, int32_add,
    Int.sub_eq_add_neg (a := int32 _), int32_add, ← Int.sub_eq_add_neg, ← Int.sub_eq_add_neg, hcomm]

theorem blocks_le {len num : ℕ} (hlen : 0 < len) (hnum : 0 < num) :
    (len + num - 1) / num ≤ len := by
  have hmul : len ≤ len * num := Nat.le_mul_of_pos_right len hnum
  rw [← Nat.lt_succ_iff, Nat.div_lt_iff_lt_mul hnum, Nat.succ_mul]
  omega

/-- **The length is right as long as nothing overflows.** -/
theorem strLen_of_lt {len num : ℕ} (hlen : 0 < len) (hsum : len + num - 1 < 2 ^ 31)
    (hlt : 2 * len + (len + num - 1) / num - 1 < 2 ^ 31) :
    strLen len num = (2 * len + (len + num - 1) / num - 1 : ℕ) := by
  have hnat : (len : ℤ) + num - 1 = (len + num - 1 : ℕ) := by omega
  have hcast : int32 (len + num - 1 : ℕ) = (len + num - 1 : ℕ) := int32_of_lt (by omega) (by omega)
  rw [strLen_eq, hnat, hcast, ← Int.ofNat_tdiv]
  generalize (len + num - 1) / num = q at hlt ⊢
  rw [int32_of_lt (by omega) (by omega)]
  omega

/-- **Otherwise it is too small for the digits.** -/
theorem strLen_lt {len num : ℕ} (hlen : 0 < len) (hlen' : len < 2 ^ 31) (hnum : 0 < num)
    (hnum' : num < 2 ^ 31)
    (hover : ¬ (len + num - 1 < 2 ^ 31 ∧ 2 * len + (len + num - 1) / num - 1 < 2 ^ 31)) :
    strLen len num < 2 * len := by
  have hnat : (len : ℤ) + num - 1 = (len + num - 1 : ℕ) := by omega
  rw [strLen_eq, hnat]
  rcases Nat.lt_or_ge (len + num - 1) (2 ^ 31) with hsum | hsum
  · have hblocks := blocks_le hlen hnum
    have hcast : int32 (len + num - 1 : ℕ) = (len + num - 1 : ℕ) :=
      int32_of_lt (by omega) (by omega)
    have hlarge : ¬ 2 * len + (len + num - 1) / num - 1 < 2 ^ 31 := fun hlt => hover ⟨hsum, hlt⟩
    rw [hcast, ← Int.ofNat_tdiv]
    generalize (len + num - 1) / num = q at hblocks hlarge ⊢
    have hle := int32_le_sub (x := 2 * len - 1 + q) (by omega)
    omega
  · -- the sum wraps around, and the quotient is not positive
    obtain ⟨m, hm⟩ : ∃ m : ℕ, m = 2 ^ 32 - (len + num - 1) := ⟨_, rfl⟩
    have hwrap : int32 (len + num - 1 : ℕ) = -(m : ℤ) := by
      rw [int32, ← Int.sub_bmod_right, Int.bmod_eq_of_le (by omega) (by omega)]
      omega
    have hquot := Nat.div_le_self m num
    rw [hwrap, Int.neg_tdiv, ← Int.ofNat_tdiv]
    generalize m / num = q at hquot ⊢
    have hle := int32_le (x := 2 * len - 1 + -q) (by omega)
    omega

/-! ## The round trip -/

/-- The lengths for which nothing overflows. -/
def Fits (len num : ℕ) : Prop :=
  len + num - 1 < 2 ^ 31 ∧ 2 * len + (len + num - 1) / num - 1 < 2 ^ 31

theorem length_formatted_zero (c : Char) {num : ℕ} (hdata : data ≠ []) (hnum : 0 < num) :
    (formatted c num 0 data).length = 2 * data.length + (data.length + num - 1) / num - 1 := by
  have hlen := length_formatted c num 0 hdata
  have hpos := List.length_pos_iff.mpr hdata
  have hceil : data.length + num - 1 = data.length - 1 + num := by omega
  rw [hceil, Nat.add_div_right _ hnum]
  rw [Nat.zero_div, Nat.add_zero, Nat.zero_add] at hlen
  omega

/-- **The text of an array is the formatted text of its bytes.** -/
theorem bytesToFormattedHexString_eq (c : Char) {num : ℕ} (hdata : data ≠ []) (hnum : 0 < num)
    (hfits : Fits data.length num) :
    bytesToFormattedHexString data c num = some (formatted c num 0 data) := by
  have hpos := List.length_pos_iff.mpr hdata
  have hlen : strLen data.length num = (formatted c num 0 data).length := by
    rw [length_formatted_zero c hdata hnum]
    exact strLen_of_lt hpos hfits.1 hfits.2
  have hslice : Words.slice data (0 + 0) data.length = data := List.take_length
  have hloop : encodeLoop data (0 : ℕ) c num (strLen data.length num) data.length 0 0
      (List.replicate (formatted c num 0 data).length (Char.ofNat 0)) =
        storeAll _ 0 (formatted c num 0 (Words.slice data (0 + 0) data.length)) :=
    encodeLoop_eq (by omega) (by rw [hslice, hlen, Int.zero_add])
  rw [hslice, storeAll_zero List.length_replicate.symm, hlen] at hloop
  rw [bytesToFormattedHexString, bytesToFormattedHexStringPart, if_neg (by omega), hlen,
    Int.toNat_natCast, Int.toNat_natCast]
  exact hloop

/-- Otherwise an exception is thrown. -/
theorem bytesToFormattedHexString_eq_none (c : Char) {num : ℕ} (hdata : data ≠ [])
    (hlen : data.length < 2 ^ 31) (hnum : 0 < num) (hnum' : num < 2 ^ 31)
    (hfits : ¬ Fits data.length num) : bytesToFormattedHexString data c num = none := by
  have hpos := List.length_pos_iff.mpr hdata
  have hlt := strLen_lt hpos hlen hnum hnum' hfits
  rw [bytesToFormattedHexString, bytesToFormattedHexStringPart]
  split
  · rfl
  · next hstr =>
    rw [Int.toNat_natCast, Option.eq_none_iff_forall_not_mem]
    intro str hmem
    have hle := le_length_of_encodeLoop hpos (Option.mem_def.mp hmem)
    rw [List.length_replicate] at hle
    omega

/-- **The bytes that are read are those of the array.** -/
theorem formattedHexStringToBytes_formatted (hc : isHexDigit c = false) (num : ℕ) :
    formattedHexStringToBytes (formatted c num 0 data) c = some data := by
  have hfilter : (formatted c num 0 data).filter (· ≠ c) = asHex data := filter_formatted hc num 0
  have hcount : (formatted c num 0 data).countP (· ≠ c) = 2 * data.length := by
    rw [List.countP_eq_length_filter, hfilter, length_asHex]
  rw [formattedHexStringToBytes, formattedHexStringToBytesOfLen, hcount, if_pos (by omega),
    if_neg (by omega), Nat.mul_div_cancel_left _ (by omega),
    decodeLoop_of_filter hfilter (getLast?_formatted hc num 0),
    storeAll_zero List.length_replicate.symm]

/-- **The round trip**, if and only if nothing overflows. -/
theorem formattedHex_roundTrip_iff (data : List UInt8) (c : Char) (num : ℕ) (hdata : data ≠ [])
    (hlen : data.length < 2 ^ 31) (hnum : 1 ≤ num) (hnum' : num < 2 ^ 31)
    (hc : isHexDigit c = false) :
    ((bytesToFormattedHexString data c num).bind fun str => formattedHexStringToBytes str c) =
        some data ↔
      data.length + num - 1 < 2 ^ 31 ∧
        2 * data.length + (data.length + num - 1) / num - 1 < 2 ^ 31 := by
  constructor
  · intro h
    by_contra hfits
    rw [bytesToFormattedHexString_eq_none c hdata hlen hnum hnum' hfits] at h
    nomatch h
  · intro hfits
    rw [bytesToFormattedHexString_eq c hdata hnum hfits]
    exact formattedHexStringToBytes_formatted hc num

/-- Three bytes in blocks of two. -/
theorem formattedHex_roundTrip_three :
    ((bytesToFormattedHexString [0xaa, 0xbb, 0x0c] ':' (2 : ℕ)).bind fun str =>
      formattedHexStringToBytes str ':') = some [0xaa, 0xbb, 0x0c] :=
  (formattedHex_roundTrip_iff [0xaa, 0xbb, 0x0c] ':' 2 (List.cons_ne_nil _ _) (by decide) (by decide)
    (by decide) (by decide)).mpr ⟨by decide, by decide⟩

/-- Two bytes in blocks of the largest size: the sum of both overflows, and the array has no place
for the second byte. -/
theorem formattedHex_maxBlock :
    isHexDigit ':' = false ∧ strLen 2 (2 ^ 31 - 1) = 2 ∧
      bytesToFormattedHexString [0, 0] ':' (2 ^ 31 - 1) = none ∧
      ((bytesToFormattedHexString [0, 0] ':' (2 ^ 31 - 1)).bind fun str =>
        formattedHexStringToBytes str ':') ≠ some [0, 0] := by
  have hnone : bytesToFormattedHexString [0, 0] ':' (2 ^ 31 - 1) = none := by decide
  refine ⟨by decide, by decide, hnone, ?_⟩
  rw [hnone]
  exact nofun

example : bytesToFormattedHexString [0xaa, 0xbb, 0x0c] ':' 2 = some "aabb:0c".toList := by decide

end ByteUtils
end SoftPhone
