import SoftPhone.Sdp.OfferAnswer

/-!
# Class `ConnectionField`

A connection field has a network type, an address type and an address, and behind the address a
time to live and a number of addresses, each with a slash in front.  `getTTL` and `getNum` look for
the second slash from where the first one is, and so find the first one again.  What was written is
read again if and only if it has neither (`readsBack_iff`).
-/

namespace SoftPhone

open SipParser

namespace ConnectionField

/-! ## Writing and reading -/

/-- The address type that is written; the default is IP4. -/
def addressTypeOrDefault (addressType : Text) : Text :=
  if addressType = [] then "IP4".toList else addressType

/-- A number with a slash in front, if it is positive. -/
def slashText (n : ℤ) : Text := if 0 < n then '/' :: valueOf n else []

/-- `ConnectionField(address_type,address,ttl,num)`; a null address type is empty. -/
def ofParts (addressType address : Text) (ttl num : ℤ) : SdpField 'c' where
  value := "IN".toList ++ ' ' :: (addressTypeOrDefault addressType ++
    ' ' :: (address ++ (slashText ttl ++ slashText num)))

/-- `getAddressType`. -/
def getAddressType (f : SdpField 'c') : Text := (getString (getString f.value).2).1

/-- The third word of the value. -/
def addressText (f : SdpField 'c') : Text := (getString (getString (getString f.value).2).2).1

/-- `getAddress`. -/
def getAddress (f : SdpField 'c') : Text := (addressText f).takeWhile (· != '/')

/-- The third word from its first slash on, and the index there of a slash from this one on. -/
def fromSlash (f : SdpField 'c') : Text × Option ℕ :=
  let s := goTo '/' (addressText f)
  (s, s.findIdx? (· == '/'))

/-- `getTTL`; none is a number format exception. -/
def getTTL (f : SdpField 'c') : Option ℤ :=
  let p := fromSlash f
  if p.1 = [] then some 0
  else
    match p.2 with
    | none => parseInt p.1
    | some j => parseInt (p.1.take j)

/-- `getNum`. -/
def getNum (f : SdpField 'c') : Option ℤ :=
  let p := fromSlash f
  if p.1 = [] then some 0
  else
    match p.2 with
    | none => some 0
    | some j => parseInt (p.1.drop j)

/-- The accessors return what the constructor has got; a number that is not given is 0. -/
structure ReadsBack (f : SdpField 'c') (addressType address : Text) (ttl num : ℤ) : Prop where
  addressType : getAddressType f = addressTypeOrDefault addressType
  address : getAddress f = address
  ttl : getTTL f = some (if 0 < ttl then ttl else 0)
  num : getNum f = some (if 0 < num then num else 0)

/-! ## What is read -/

section Reading

variable {addressType address : Text} {ttl num : ℤ}

/-- The slash from which the second one is looked for is found again. -/
theorem fromSlash_eq {f : SdpField 'c'} (h : '/' ∈ addressText f) :
    ∃ s, fromSlash f = ('/' :: s, some 0) := by
  obtain ⟨s, hs⟩ := goTo_of_mem h
  rw [fromSlash, hs]
  exact ⟨s, rfl⟩

/-- `getTTL` throws when there is a slash. -/
theorem getTTL_eq_none {f : SdpField 'c'} (h : '/' ∈ addressText f) : getTTL f = none := by
  obtain ⟨s, hs⟩ := fromSlash_eq h
  rw [getTTL, hs]
  rfl

theorem addressType_ne_nil (addressType : Text) : addressTypeOrDefault addressType ≠ [] := by
  unfold addressTypeOrDefault
  split
  · decide
  · assumption

theorem isChar_slashText {n : ℤ} {c : Char} (h : c ∈ slashText n) : isChar c = true := by
  unfold slashText at h
  split at h
  · rcases List.mem_cons.mp h with rfl | h
    · decide
    · exact isChar_valueOf h
  · exact absurd h List.not_mem_nil

/-- **The words of a connection field that was written.** -/
theorem words_ofParts (htype : ∀ c ∈ addressTypeOrDefault addressType, isChar c = true)
    (haddress : ∀ c ∈ address, isChar c = true) (ttl num : ℤ) :
    getAddressType (ofParts addressType address ttl num) = addressTypeOrDefault addressType ∧
      addressText (ofParts addressType address ttl num) =
        address ++ (slashText ttl ++ slashText num) := by
  have hin : ∀ c ∈ "IN".toList, isChar c = true := by decide
  have hfirst : getString (ofParts addressType address ttl num).value = ("IN".toList,
      ' ' :: (addressTypeOrDefault addressType ++
        ' ' :: (address ++ (slashText ttl ++ slashText num)))) :=
    getString_append hin (not_isChar_space _) (by decide)
  have hsecond : getString (getString (ofParts addressType address ttl num).value).2 =
      (addressTypeOrDefault addressType, ' ' :: (address ++ (slashText ttl ++ slashText num))) := by
    rw [hfirst, SipParser.getString_space]
    exact getString_append htype (not_isChar_space _) (addressType_ne_nil addressType)
  refine ⟨congrArg Prod.fst hsecond, ?_⟩
  have hchars : ∀ c ∈ address ++ (slashText ttl ++ slashText num), isChar c = true := by
    intro c hc
    rcases List.mem_append.mp hc with hc | hc
    · exact haddress c hc
    · exact (List.mem_append.mp hc).elim isChar_slashText isChar_slashText
  unfold addressText
  rw [hsecond, SipParser.getString_space]
  by_cases hnil : address ++ (slashText ttl ++ slashText num) = []
  · rw [hnil]
    rfl
  · have hread := getString_append (s := []) hchars nofun hnil
    rw [List.append_nil] at hread
    rw [hread]

end Reading

/-- **What was written is read again if and only if** there is neither a time to live nor a number
of addresses, and the address and its type are visible characters, without a slash in the address. -/
theorem readsBack_iff (addressType address : Text) (ttl num : ℤ) :
    ReadsBack (ofParts addressType address ttl num) addressType address ttl num ↔
      (∀ c ∈ addressType, isChar c = true) ∧ (∀ c ∈ address, isChar c = true ∧ c ≠ '/') ∧
        ttl ≤ 0 ∧ num ≤ 0 := by
  constructor
  · rintro ⟨htype, haddress, httl, hnum⟩
    have htypeChars : ∀ c ∈ addressTypeOrDefault addressType, isChar c = true := by
      intro c hc
      rw [← htype] at hc
      exact isChar_of_mem_getString hc
    have haddressChars : ∀ c ∈ address, isChar c = true ∧ c ≠ '/' := by
      intro c hc
      rw [← haddress] at hc
      exact ⟨isChar_of_mem_getString ((List.takeWhile_prefix _).subset hc),
        by simpa using List.mem_takeWhile_imp hc⟩
    obtain ⟨-, htext⟩ := words_ofParts htypeChars (fun c hc => (haddressChars c hc).1) ttl num
    have hslash : '/' ∉ addressText (ofParts addressType address ttl num) := by
      intro h
      rw [getTTL_eq_none h] at httl
      exact nomatch httl
    have hnot (n : ℤ) (hn : '/' ∉ slashText n) : n ≤ 0 := by
      by_contra hpos
      rw [slashText, if_pos (by omega)] at hn
      exact hn (List.mem_cons_self ..)
    rw [htext, List.mem_append, List.mem_append, not_or, not_or] at hslash
    refine ⟨?_, haddressChars, hnot ttl hslash.2.1, hnot num hslash.2.2⟩
    intro c hc
    refine htypeChars c ?_
    rwa [addressTypeOrDefault, if_neg (List.ne_nil_of_mem hc)]
  · rintro ⟨htype, haddress, httl, hnum⟩
    have htype' : ∀ c ∈ addressTypeOrDefault addressType, isChar c = true := by
      unfold addressTypeOrDefault
      split
      · decide
      · exact htype
    obtain ⟨hread, htext⟩ := words_ofParts htype' (fun c hc => (haddress c hc).1) ttl num
    have hnone (n : ℤ) (hn : n ≤ 0) : slashText n = [] := if_neg (by omega)
    rw [hnone ttl httl, hnone num hnum, List.append_nil, List.append_nil] at htext
    have htake : address.takeWhile (· != '/') = address :=
      List.takeWhile_eq_self_iff.mpr fun c hc => by simpa using (haddress c hc).2
    have hdrop : goTo '/' address = [] :=
      List.dropWhile_eq_nil_iff.mpr fun c hc => by simpa using (haddress c hc).2
    refine ⟨hread, ?_, ?_, ?_⟩
    · rw [getAddress, htext, htake]
    · simp only [getTTL, fromSlash, htext, hdrop, if_true]
      rw [if_neg (by omega)]
    · simp only [getNum, fromSlash, htext, hdrop, if_true]
      rw [if_neg (by omega)]

/-- **`getTTL` throws on a time to live of 127.** -/
theorem not_readsBack_ttl : ¬ReadsBack (ofParts "IP4".toList "224.2.1.1".toList 127 3)
    "IP4".toList "224.2.1.1".toList 127 3 := by
  have hthrows : getTTL (ofParts "IP4".toList "224.2.1.1".toList 127 3) = none := by
    decide +kernel
  intro h
  have httl := h.ttl
  rw [hthrows] at httl
  exact nomatch httl

end ConnectionField
end SoftPhone
