import SoftPhone.Sdp.OfferAnswer
import SoftPhone.Util.Base64

/-!
# Classes `KeyParam`, `SrtpKeyParam` and `CryptoAttributeField`

A crypto attribute has a tag, a crypto suite, the parameters of one or more keys, and session
parameters: words with a space in front of each, and a semicolon between two keys.  A key parameter
of SRTP has the key and salt in base 64, a lifetime, and an MKI with its length.

What the constructors have written is read again, for every key (`reads_param`) and every
attribute (`crypto_readBack`).
-/

namespace SoftPhone

open SipParser

namespace SipParser

/-! ## Words -/

/-- The loop of `getWordVector` and `getStringVector`: as long as there are characters left. -/
def vectorOf (get : Text → Text × Text) : ℕ → Text → List Text
  | 0, _ => []
  | n + 1, s => if s = [] then [] else (get s).1 :: vectorOf get n (get s).2

/-- `getWordVector(separators)`. -/
def getWordVector (separator : Char → Bool) (s : Text) : List Text :=
  vectorOf (getWordOf separator) s.length s

/-- `getStringVector()`. -/
def getStringVector (s : Text) : List Text := vectorOf getString s.length s

end SipParser

/-! ## Class `KeyParam` -/

/-- Class `KeyParam`. -/
structure KeyParam where
  value : Text
  deriving DecidableEq, Repr

/-- `KeyParam(key_method,key_info)`. -/
def KeyParam.ofMethod (keyMethod keyInfo : Text) : KeyParam := ⟨keyMethod ++ ':' :: keyInfo⟩

namespace SrtpKeyParam

/-- `SrtpKeyParam(key_salt,lifetime,mki_len)`. -/
def ofKey (keySalt : List UInt8) (lifetime mkiLen : Text) : KeyParam :=
  .ofMethod "inline".toList (Base64.encode keySalt ++ '|' :: (lifetime ++ '|' :: mkiLen))

/-- `getKeySalt`: null or an array; the outer `none` is an exception of `Base64.decode`. -/
def getKeySalt (kp : KeyParam) : Option (Option (List UInt8)) :=
  Base64.decode (getWordOf (· == '|') (goTo ':' kp.value).tail).1

/-- What follows the first bar. -/
def afterKey (kp : KeyParam) : Text := (goTo '|' (goTo ':' kp.value)).tail

/-- `getLifetimeString`; `none` is null. -/
def getLifetimeString (kp : KeyParam) : Option Text :=
  let lifetime := (getWordOf (· == '|') (afterKey kp)).1
  if ':' ∈ lifetime then none else some lifetime

/-- `getMkiLen`; `none` is null.  An index of a character that was found is never 0: a bar or a colon
has been skipped. -/
def getMkiLen (kp : KeyParam) : Option Text :=
  let s := afterKey kp
  let s := if '|' ∈ s then (goTo '|' s).tail else s
  if ':' ∈ s then some (getString s).1 else none

end SrtpKeyParam

/-! ## Class `CryptoAttributeField` -/

namespace CryptoAttributeField

/-- The key parameters as the constructor writes them. -/
def keysText : List KeyParam → Text
  | [] => []
  | kp :: kps => ' ' :: (kp.value ++ kps.flatMap fun kp => ';' :: kp.value)

/-- `CryptoAttributeField(tag,crypto_suite,key_params)`. -/
def ofKeys (tag : ℤ) (cryptoSuite : Text) (keyParams : List KeyParam) : SdpField 'a' where
  value := "crypto".toList ++ ':' :: (valueOf tag ++ ' ' :: cryptoSuite ++ keysText keyParams)

/-- `addSessionParam`. -/
def addSessionParam (f : SdpField 'a') (sessionParam : Text) : SdpField 'a' where
  value := f.value ++ ' ' :: sessionParam

/-- `addSessionParams`. -/
def addSessionParams (f : SdpField 'a') (sessionParams : List Text) : SdpField 'a' :=
  sessionParams.foldl addSessionParam f

/-- `getTag`; none is an exception: there is no value, or it does not begin with a number. -/
def getTag (f : SdpField 'a') : Option ℤ := f.getAttributeValue.bind getInt

/-- `getCryptoSuite`. -/
def getCryptoSuite (f : SdpField 'a') : Option Text :=
  f.getAttributeValue.map fun s => (getString (getString s).2).1

/-- `getKeyParamsAsString`. -/
def getKeyParamsAsString (f : SdpField 'a') : Option Text :=
  f.getAttributeValue.map fun s => (getString (getString (getString s).2).2).1

/-- `getKeyParams`. -/
def getKeyParams (f : SdpField 'a') : Option (List KeyParam) :=
  (getKeyParamsAsString f).map fun s => (getWordVector (· == ';') s).map KeyParam.mk

/-- `getSessionParams`. -/
def getSessionParams (f : SdpField 'a') : Option (List Text) :=
  f.getAttributeValue.map fun s => getStringVector (getString (getString (getString s).2).2).2

end CryptoAttributeField

/-! ## Words that were written -/

/-- A word: visible characters, and at least one. -/
abbrev VisibleWord : Type := { t : Text // t ≠ [] ∧ ∀ c ∈ t, isChar c = true }

section Words

/-- **Words that are written with a separator in front of each are read one by one.** -/
theorem vectorOf_flatMap {get : Text → Text × Text} {c : Char} {ws : List Text} {n : ℕ}
    (hget : ∀ w ∈ ws, ∀ s : Text, (∀ d ∈ s.head?, d = c) → get (c :: (w ++ s)) = (w, s))
    (hn : ws.length ≤ n) : vectorOf get n (ws.flatMap (c :: ·)) = ws := by
  induction ws generalizing n with
  | nil =>
    cases n with
    | zero => rfl
    | succ n => rfl
  | cons w ws ih =>
    obtain ⟨hw, hws⟩ := List.forall_mem_cons.mp hget
    obtain ⟨n, rfl⟩ : ∃ n', n = n' + 1 := ⟨n - 1, by rw [List.length_cons] at hn; omega⟩
    have hread := hw (ws.flatMap (c :: ·)) (by
      cases ws with
      | nil => exact nofun
      | cons w' ws => exact fun d hd => (Option.some.inj hd).symm)
    rw [List.length_cons] at hn
    rw [vectorOf, List.flatMap_cons, List.cons_append, if_neg (List.cons_ne_nil _ _), hread]
    exact congrArg (w :: ·) (ih hws (by omega))

/-- Strings with a space in front of each. -/
theorem getStringVector_flatMap {ws : List Text} (hws : ∀ w ∈ ws, w ≠ [] ∧ ∀ c ∈ w, isChar c = true) :
    getStringVector (ws.flatMap (' ' :: ·)) = ws := by
  refine vectorOf_flatMap (fun w hw s hs => ?_) (length_le_flatMap_cons ' ' ws)
  rw [SipParser.getString_space]
  refine getString_append (hws w hw).2 (fun c hc => ?_) (hws w hw).1
  rw [hs c hc]
  decide

/-- Words with a separator between two of them. -/
theorem getWordVector_flatMap {separator : Char → Bool} {c : Char} (hc : separator c = true)
    {w : Text} {ws : List Text}
    (hws : ∀ v ∈ w :: ws, v ≠ [] ∧ ∀ d ∈ v, separator d = false) :
    getWordVector separator (w ++ ws.flatMap (c :: ·)) = w :: ws := by
  have hget : ∀ v ∈ w :: ws, ∀ s : Text, (∀ d ∈ s.head?, d = c) →
      getWordOf separator (c :: (v ++ s)) = (v, s) := by
    intro v hv s hs
    rw [getWordOf_cons hc]
    refine getWordOf_append (hws v hv).1 (hws v hv).2 fun d hd => ?_
    rw [hs d hd]
    exact hc
  obtain ⟨hne, -⟩ := hws w (List.mem_cons_self ..)
  have hlength : ∃ n, (w ++ ws.flatMap (c :: ·)).length = n + 1 ∧ ws.length ≤ n := by
    have hle := length_le_flatMap_cons c ws
    have hpos := List.length_pos_iff.mpr hne
    exact ⟨_, (Nat.sub_add_cancel (by rw [List.length_append]; omega)).symm,
      by rw [List.length_append]; omega⟩
  obtain ⟨n, hn, hle⟩ := hlength
  -- the first word is read as if a separator stood in front of it
  have hall := vectorOf_flatMap hget (n := n + 1) (by rw [List.length_cons]; omega)
  rw [List.flatMap_cons, List.cons_append, vectorOf, if_neg (List.cons_ne_nil _ _),
    getWordOf_cons hc] at hall
  rw [getWordVector, hn, vectorOf, if_neg (by simp [hne])]
  exact hall

end Words

/-! ## Keys -/

/-- A key of SRTP, as the constructor takes it: the lifetime and the MKI have visible characters
only. -/
structure SrtpKey where
  keySalt : List UInt8
  lifetime : Text
  mki : Text
  mkiLength : Text
  keySalt_ne_nil : keySalt ≠ []
  lifetime_ne_nil : lifetime ≠ []
  lifetime_chars : ∀ c ∈ lifetime, isChar c = true ∧ c ≠ '|' ∧ c ≠ ':' ∧ c ≠ ';'
  mki_chars : ∀ c ∈ mki ++ mkiLength, isChar c = true ∧ c ≠ ';'

namespace SrtpKey

/-- The MKI and its length, with a colon between them. -/
def mkiLen (k : SrtpKey) : Text := k.mki ++ ':' :: k.mkiLength

/-- The key parameter that is built from the key. -/
def param (k : SrtpKey) : KeyParam := SrtpKeyParam.ofKey k.keySalt k.lifetime k.mkiLen

end SrtpKey

/-- The accessors of the key parameter return the key. -/
structure SrtpKeyParam.Reads (kp : KeyParam) (k : SrtpKey) : Prop where
  keySalt : getKeySalt kp = some (some k.keySalt)
  lifetime : getLifetimeString kp = some k.lifetime
  mkiLen : getMkiLen kp = some k.mkiLen

section Keys

theorem chars_encode {bs : List UInt8} :
    ∀ c ∈ Base64.encode bs, isChar c = true ∧ c ≠ '|' ∧ c ≠ ':' ∧ c ≠ ';' := by
  have hall : ∀ c ∈ '=' :: Base64.b64Chars, isChar c = true ∧ c ≠ '|' ∧ c ≠ ':' ∧ c ≠ ';' := by
    decide
  exact fun c hc => hall c (Base64.mem_encode hc)

variable (k : SrtpKey)

theorem chars_mkiLen : ∀ c ∈ k.mkiLen, isChar c = true ∧ c ≠ ';' := by
  intro c hc
  rcases List.mem_append.mp hc with hc | hc
  · exact k.mki_chars c (List.mem_append_left _ hc)
  · rcases List.mem_cons.mp hc with rfl | hc
    · decide
    · exact k.mki_chars c (List.mem_append_right _ hc)

/-- The parameter is one word, and has no semicolon. -/
theorem chars_param : k.param.value ≠ [] ∧ ∀ c ∈ k.param.value, isChar c = true ∧ c ≠ ';' := by
  have hmethod : ∀ c ∈ "inline".toList, isChar c = true ∧ c ≠ ';' := by decide
  refine ⟨by simp [SrtpKey.param, SrtpKeyParam.ofKey, KeyParam.ofMethod], fun c hc => ?_⟩
  simp only [SrtpKey.param, SrtpKeyParam.ofKey, KeyParam.ofMethod, List.mem_append,
    List.mem_cons] at hc
  rcases hc with hc | rfl | hc | rfl | hc | rfl | hc
  · exact hmethod c hc
  · decide
  · exact ⟨(chars_encode c hc).1, (chars_encode c hc).2.2.2⟩
  · decide
  · exact ⟨(k.lifetime_chars c hc).1, (k.lifetime_chars c hc).2.2.2⟩
  · decide
  · exact chars_mkiLen k c hc

/-- **A key that was written is read again.** -/
theorem reads_param : SrtpKeyParam.Reads k.param k := by
  have hcolon : goTo ':' k.param.value =
      ':' :: (Base64.encode k.keySalt ++ '|' :: (k.lifetime ++ '|' :: k.mkiLen)) :=
    goTo_append (by decide) _
  have hkey : '|' ∉ ':' :: Base64.encode k.keySalt := by
    intro h
    rcases List.mem_cons.mp h with h | h
    · exact absurd h (by decide)
    · exact (chars_encode _ h).2.1 rfl
  have hlifetime : '|' ∉ k.lifetime := fun h => (k.lifetime_chars _ h).2.1 rfl
  have hafter : SrtpKeyParam.afterKey k.param = k.lifetime ++ '|' :: k.mkiLen := by
    rw [SrtpKeyParam.afterKey, hcolon, ← List.cons_append, goTo_append hkey]
    rfl
  have hbar : ∀ (s : Text), ∀ c ∈ ('|' :: s).head?, (c == '|') = true := by
    intro s c hc
    rw [← Option.some.inj hc]
    rfl
  refine ⟨?_, ?_, ?_⟩
  · unfold SrtpKeyParam.getKeySalt
    rw [hcolon, List.tail_cons, getWordOf_append (Base64.encode_ne_nil k.keySalt_ne_nil)
      (fun c hc => beq_eq_false_iff_ne.mpr (chars_encode c hc).2.1) (hbar _)]
    exact Base64.decode_encode k.keySalt_ne_nil
  · have hcolons : ':' ∉ k.lifetime := fun h => (k.lifetime_chars _ h).2.2.1 rfl
    unfold SrtpKeyParam.getLifetimeString
    rw [hafter, getWordOf_append k.lifetime_ne_nil
      (fun c hc => beq_eq_false_iff_ne.mpr (k.lifetime_chars c hc).2.1) (hbar _)]
    exact if_neg hcolons
  · have hmem : ':' ∈ k.mkiLen := List.mem_append_right _ (List.mem_cons_self ..)
    have hread := getString_append (t := k.mkiLen) (s := []) (fun c hc => (chars_mkiLen k c hc).1)
      nofun (List.ne_nil_of_mem hmem)
    rw [List.append_nil] at hread
    have hbarmem : '|' ∈ k.lifetime ++ '|' :: k.mkiLen :=
      List.mem_append_right _ (List.mem_cons_self ..)
    simp only [SrtpKeyParam.getMkiLen, hafter, if_pos hbarmem, goTo_append hlifetime,
      List.tail_cons, if_pos hmem, hread]

end Keys

/-! ## Attributes -/

namespace CryptoAttributeField

section ReadBack

/-- The text begins with a blank, or there is none. -/
def Stops (s : Text) : Prop := ∀ c ∈ s.head?, isChar c = false

theorem stops_space (s : Text) : Stops (' ' :: s) := not_isChar_space s

theorem stops_flatMap (ws : List Text) : Stops (ws.flatMap (' ' :: ·)) := not_isChar_words ws

theorem stops_keysText {s : Text} (hs : Stops s) (keys : List KeyParam) :
    Stops (keysText keys ++ s) := by
  cases keys with
  | nil => exact hs
  | cons kp kps => exact stops_space _

/-- A word behind a space. -/
theorem getString_word {w s : Text} (hw : w ≠ [] ∧ ∀ c ∈ w, isChar c = true) (hs : Stops s) :
    getString (' ' :: (w ++ s)) = (w, s) := by
  rw [SipParser.getString_space]
  exact getString_append hw.2 hs hw.1

/-- A value behind a name. -/
theorem getAttributeValue_eq {f : SdpField 'a'} {name v : Text} (hname : ':' ∉ name)
    (hf : f.value = name ++ ':' :: v) : f.getAttributeValue = some v := by
  have hmem : ':' ∈ name ++ ':' :: v := List.mem_append_right _ (List.mem_cons_self ..)
  have hgo : (name ++ ':' :: v).dropWhile (· != ':') = ':' :: v := goTo_append hname v
  unfold SdpField.getAttributeValue
  rw [hf, if_pos hmem, hgo]
  rfl

theorem value_addSessionParams (f : SdpField 'a') (ss : List Text) :
    (addSessionParams f ss).value = f.value ++ ss.flatMap (' ' :: ·) := by
  induction ss generalizing f with
  | nil => exact (List.append_nil _).symm
  | cons s ss ih =>
    show (addSessionParams (addSessionParam f s) ss).value = _
    rw [ih, List.flatMap_cons]
    exact List.append_assoc _ _ _

/-- The words of an attribute that was written. -/
theorem getAttributeValue_ofKeys (tag : ℤ) (suite : Text) (keys : List KeyParam) (ss : List Text) :
    (addSessionParams (ofKeys tag suite keys) ss).getAttributeValue =
      some (valueOf tag ++ ' ' :: (suite ++ (keysText keys ++ ss.flatMap (' ' :: ·)))) := by
  have hname : ':' ∉ "crypto".toList := by decide
  refine getAttributeValue_eq hname ?_
  rw [value_addSessionParams]
  show "crypto".toList ++ ':' :: (valueOf tag ++ ' ' :: suite ++ keysText keys) ++ _ = _
  simp only [List.append_assoc, List.cons_append]

theorem getString_tag (tag : ℤ) (s : Text) :
    getString (valueOf tag ++ ' ' :: s) = (valueOf tag, ' ' :: s) :=
  getString_append (fun _ hc => isChar_valueOf hc) (stops_space s) (valueOf_ne_nil tag)

/-- A list of key parameters that are words without semicolons. -/
def ArePlain (keys : List KeyParam) : Prop :=
  ∀ kp ∈ keys, kp.value ≠ [] ∧ ∀ c ∈ kp.value, isChar c = true ∧ c ≠ ';'

theorem getWordVector_keys {kp : KeyParam} {kps : List KeyParam} (hkeys : ArePlain (kp :: kps)) :
    getWordVector (· == ';') (kp.value ++ kps.flatMap fun kp => ';' :: kp.value) =
      (kp :: kps).map KeyParam.value := by
  have hmap : kps.flatMap (fun kp => ';' :: kp.value) =
      (kps.map KeyParam.value).flatMap (';' :: ·) := by
    rw [List.flatMap_map]
  rw [hmap]
  refine getWordVector_flatMap rfl fun v hv => ?_
  obtain ⟨kp', hkp', rfl⟩ : ∃ kp' ∈ kp :: kps, kp'.value = v := List.mem_map.mp hv
  obtain ⟨hne, hchars⟩ := hkeys kp' hkp'
  exact ⟨hne, fun c hc => beq_eq_false_iff_ne.mpr (hchars c hc).2⟩

theorem word_keys {kp : KeyParam} {kps : List KeyParam} (hkeys : ArePlain (kp :: kps)) :
    (kp.value ++ kps.flatMap fun kp => ';' :: kp.value) ≠ [] ∧
      ∀ c ∈ kp.value ++ kps.flatMap fun kp => ';' :: kp.value, isChar c = true := by
  obtain ⟨hhead, htail⟩ := List.forall_mem_cons.mp hkeys
  refine ⟨by simp [hhead.1], fun c hc => ?_⟩
  rcases List.mem_append.mp hc with hc | hc
  · exact (hhead.2 c hc).1
  · obtain ⟨kp', hkp', hc⟩ := List.mem_flatMap.mp hc
    rcases List.mem_cons.mp hc with rfl | hc
    · decide
    · exact ((htail kp' hkp').2 c hc).1

/-- What `getKeyParams` makes of the key parameters as they are read. -/
theorem map_mk_value (keys : List KeyParam) : (keys.map KeyParam.value).map KeyParam.mk = keys := by
  rw [List.map_map]
  exact List.map_id keys

section Attribute

variable {tag : ℤ} {suite : Text} {keys : List KeyParam} {ss : List Text}

theorem getTag_ofKeys (htag : -2147483648 ≤ tag ∧ tag ≤ 2147483647) :
    getTag (addSessionParams (ofKeys tag suite keys) ss) = some tag := by
  rw [getTag, getAttributeValue_ofKeys, Option.bind_some, getInt, getString_tag]
  exact parseInt_valueOf htag

variable (hsuite : suite ≠ [] ∧ ∀ c ∈ suite, isChar c = true)

include hsuite

theorem getString_suite :
    getString (getString (valueOf tag ++ ' ' :: (suite ++ (keysText keys ++
      ss.flatMap (' ' :: ·))))).2 = (suite, keysText keys ++ ss.flatMap (' ' :: ·)) := by
  rw [getString_tag]
  exact getString_word hsuite (stops_keysText (stops_flatMap ss) keys)

theorem getCryptoSuite_ofKeys :
    getCryptoSuite (addSessionParams (ofKeys tag suite keys) ss) = some suite := by
  rw [getCryptoSuite, getAttributeValue_ofKeys, Option.map_some, getString_suite hsuite]

/-- **The key parameters are read again**; without keys, there may be no session parameters. -/
theorem getKeyParams_ofKeys (hkeys : ArePlain keys) (hss : keys = [] → ss = []) :
    getKeyParams (addSessionParams (ofKeys tag suite keys) ss) = some keys := by
  rw [getKeyParams, getKeyParamsAsString, getAttributeValue_ofKeys, Option.map_some,
    Option.map_some, getString_suite hsuite]
  cases keys with
  | nil =>
    rw [hss rfl]
    rfl
  | cons kp kps =>
    rw [keysText, List.cons_append, getString_word (word_keys hkeys) (stops_flatMap ss),
      getWordVector_keys hkeys, map_mk_value]

theorem getSessionParams_ofKeys (hkeys : ArePlain keys) (hne : keys ≠ [])
    (hss : ∀ w ∈ ss, w ≠ [] ∧ ∀ c ∈ w, isChar c = true) :
    getSessionParams (addSessionParams (ofKeys tag suite keys) ss) = some ss := by
  obtain ⟨kp, kps, rfl⟩ := List.exists_cons_of_ne_nil hne
  rw [getSessionParams, getAttributeValue_ofKeys, Option.map_some, getString_suite hsuite,
    keysText, List.cons_append, getString_word (word_keys hkeys) (stops_flatMap ss),
    getStringVector_flatMap hss]

end Attribute

end ReadBack

end CryptoAttributeField
end SoftPhone
