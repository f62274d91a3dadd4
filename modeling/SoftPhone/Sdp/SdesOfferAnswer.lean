import SoftPhone.Sdp.CryptoAttribute

/-!
# Class `SdesOfferAnswerModel`

The first local crypto attribute whose suite is offered decides: the answer has the tag and the
suite of the first offered attribute with this suite, and the keys of the local one.

The answer is written as a text and so read again: its key parameters are the ones of the local
attribute, as they have been read from its own text (`product_answers`).
-/

namespace SoftPhone

open SipParser CryptoAttributeField

namespace SdesOfferAnswerModel

/-- "crypto". -/
def crypto : Text := "crypto".toList

/-! ## The product -/

/-- The loop over the offered attributes, for one local attribute; the outer `none` is an exception.
`DEBUG_LOOPBACK_MODE` is off. -/
def answerTo (start : SdpField 'a') : List (SdpField 'a') → Option (Option (SdpField 'a'))
  | [] => some none
  | offer :: offers => do
    let offerSuite ← getCryptoSuite offer
    let startSuite ← getCryptoSuite start
    if offerSuite = startSuite then
      let tag ← getTag offer
      let keyParams ← getKeyParams start
      some (some (ofKeys tag offerSuite keyParams))
    else answerTo start offers

/-- The loop over the local attributes, as long as there is no answer. -/
def firstAnswer (offers : List (SdpField 'a')) :
    List (SdpField 'a') → Option (Option (SdpField 'a'))
  | [] => some none
  | start :: starts => do
    match ← answerTo start offers with
    | some answer => some (some answer)
    | none => firstAnswer offers starts

/-- `makeCryptoAttributeProduct`; none is an exception. -/
def makeCryptoAttributeProduct (start offer : MediaDescriptor) : Option (List (SdpField 'a')) :=
  (firstAnswer (offer.getAttributes crypto) (start.getAttributes crypto)).map Option.toList

/-! ## Crypto attributes -/

/-- The attribute has a number as its tag, and no empty key parameter. -/
structure IsCrypto (f : SdpField 'a') : Prop where
  tag : (getTag f).isSome = true
  keyParams : ∀ kps ∈ getKeyParams f, ∀ kp ∈ kps, kp.value ≠ []

/-- A media description with crypto attributes that can be read. -/
structure SecureMedia where
  media : MediaDescriptor
  crypto : ∀ f ∈ media.getAttributes crypto, IsCrypto f

/-- The answer to an offered attribute, with the keys of a local one. -/
structure Answers (start offer answer : SdpField 'a') : Prop where
  same : getCryptoSuite start = getCryptoSuite offer
  tag : getTag answer = getTag offer
  suite : getCryptoSuite answer = getCryptoSuite offer
  keyParams : getKeyParams answer = getKeyParams start

section Read

/-- Words that are read have no separators. -/
theorem not_separator_of_mem_vectorOf {separator : Char → Bool} {n : ℕ} {s w : Text}
    (hw : w ∈ vectorOf (getWordOf separator) n s) : ∀ c ∈ w, separator c = false := by
  induction n generalizing s with
  | zero => exact absurd hw List.not_mem_nil
  | succ n ih =>
    rw [vectorOf] at hw
    split at hw
    · exact absurd hw List.not_mem_nil
    · rcases List.mem_cons.mp hw with rfl | hw
      · intro c hc
        simpa using List.mem_takeWhile_imp hc
      · exact ih hw

/-- Words that are read are parts of the text. -/
theorem subset_of_mem_vectorOf {separator : Char → Bool} {n : ℕ} {s w : Text}
    (hw : w ∈ vectorOf (getWordOf separator) n s) : w ⊆ s := by
  have hleft (s : Text) : (s.dropWhile separator).dropWhile (!separator ·) ⊆ s :=
    ((List.dropWhile_suffix _).trans (List.dropWhile_suffix _)).subset
  induction n generalizing s with
  | zero => exact absurd hw List.not_mem_nil
  | succ n ih =>
    rw [vectorOf] at hw
    split at hw
    · exact absurd hw List.not_mem_nil
    · rcases List.mem_cons.mp hw with rfl | hw
      · exact List.Subset.trans (List.takeWhile_prefix _).subset (List.dropWhile_suffix _).subset
      · exact List.Subset.trans (ih hw) (hleft s)

variable {f : SdpField 'a'}

theorem isSome_value (hf : IsCrypto f) : ∃ s, f.getAttributeValue = some s := by
  have htag := hf.tag
  rw [getTag, Option.isSome_bind] at htag
  cases hs : f.getAttributeValue with
  | none =>
    rw [hs] at htag
    exact absurd htag (by simp)
  | some s => exact ⟨s, rfl⟩

/-- **What is read from a crypto attribute**: without a suite, there are no keys. -/
theorem read_of_isCrypto (hf : IsCrypto f) : ∃ tag suite kps, getTag f = some tag ∧
    getCryptoSuite f = some suite ∧ getKeyParams f = some kps ∧
    (-2147483648 ≤ tag ∧ tag ≤ 2147483647) ∧ (∀ c ∈ suite, isChar c = true) ∧ ArePlain kps ∧
    (suite = [] → kps = []) := by
  obtain ⟨s, hs⟩ := isSome_value hf
  obtain ⟨tag, htag⟩ := Option.isSome_iff_exists.mp hf.tag
  have hkeys : getKeyParams f = some ((getWordVector (· == ';')
      (getString (getString (getString s).2).2).1).map KeyParam.mk) := by
    rw [getKeyParams, getKeyParamsAsString, hs]
    rfl
  refine ⟨tag, _, _, htag, by rw [getCryptoSuite, hs, Option.map_some], hkeys, ?_, ?_, ?_, ?_⟩
  · rw [getTag, hs, Option.bind_some] at htag
    exact range_parseInt htag
  · exact fun c hc => isChar_of_mem_getString hc
  · intro kp hkp
    refine ⟨hf.keyParams _ hkeys kp hkp, ?_⟩
    obtain ⟨w, hw, rfl⟩ := List.mem_map.mp hkp
    intro c hc
    have hnot := not_separator_of_mem_vectorOf hw c hc
    exact ⟨isChar_of_mem_getString (subset_of_mem_vectorOf hw hc), by simpa using hnot⟩
  · intro hnil
    rw [SdpField.getString_eq_nil hnil]
    rfl

/-- **The answer is read as it was made.** -/
theorem answers_ofKeys {start offer : SdpField 'a'} (hstart : IsCrypto start)
    (hoffer : IsCrypto offer) (hsame : getCryptoSuite start = getCryptoSuite offer) :
    ∃ tag suite kps, getTag offer = some tag ∧ getCryptoSuite offer = some suite ∧
      getKeyParams start = some kps ∧ Answers start offer (ofKeys tag suite kps) := by
  obtain ⟨-, suite, kps, -, hsuite, hkps, -, hchars, hplain, hnil⟩ := read_of_isCrypto hstart
  obtain ⟨tag, suite', -, htag, hsuite', -, hrange, -, -, -⟩ := read_of_isCrypto hoffer
  obtain rfl : suite = suite' := by
    rw [hsuite, hsuite'] at hsame
    exact Option.some.inj hsame
  refine ⟨tag, suite, kps, htag, hsuite', hkps, hsame, ?_, ?_, ?_⟩
  · rw [htag]
    show getTag (addSessionParams (ofKeys tag suite kps) []) = some tag
    exact getTag_ofKeys hrange
  · rw [hsuite']
    by_cases hne : suite = []
    · have hv := getAttributeValue_ofKeys tag suite kps []
      rw [hne, hnil hne] at hv ⊢
      change (ofKeys tag [] []).getAttributeValue = some (valueOf tag ++ [' ']) at hv
      rw [getCryptoSuite, hv, Option.map_some, getString_tag]
      rfl
    · show getCryptoSuite (addSessionParams (ofKeys tag suite kps) []) = some suite
      exact getCryptoSuite_ofKeys ⟨hne, hchars⟩
  · rw [hkps]
    by_cases hne : suite = []
    · have hv := getAttributeValue_ofKeys tag suite kps []
      rw [hne, hnil hne] at hv ⊢
      change (ofKeys tag [] []).getAttributeValue = some (valueOf tag ++ [' ']) at hv
      rw [getKeyParams, getKeyParamsAsString, hv, Option.map_some, getString_tag]
      rfl
    · show getKeyParams (addSessionParams (ofKeys tag suite kps) []) = some kps
      exact getKeyParams_ofKeys ⟨hne, hchars⟩ hplain fun _ => rfl

end Read

/-! ## The loops -/

section Loops

/-- **The inner loop**: an answer to the first offered attribute of the suite, or none. -/
theorem answerTo_spec {start : SdpField 'a'} (hstart : IsCrypto start) {offers : List (SdpField 'a')}
    (hoffers : ∀ f ∈ offers, IsCrypto f) :
    (∃ offer ∈ offers, ∃ answer, answerTo start offers = some (some answer) ∧
        Answers start offer answer) ∨
      answerTo start offers = some none ∧
        ∀ offer ∈ offers, getCryptoSuite start ≠ getCryptoSuite offer := by
  induction offers with
  | nil => exact .inr ⟨rfl, fun _ h => absurd h List.not_mem_nil⟩
  | cons offer offers ih =>
    obtain ⟨hoffer, hoffers⟩ := List.forall_mem_cons.mp hoffers
    obtain ⟨-, suite, -, -, hsuite, -⟩ := read_of_isCrypto hstart
    obtain ⟨-, suite', -, -, hsuite', -⟩ := read_of_isCrypto hoffer
    rw [answerTo, hsuite, hsuite']
    by_cases heq : suite' = suite
    · have hsame : getCryptoSuite start = getCryptoSuite offer := by rw [hsuite, hsuite', heq]
      obtain ⟨tag, suite'', kps, htag, hsuite'', hkps, hanswers⟩ :=
        answers_ofKeys hstart hoffer hsame
      rw [hsuite'] at hsuite''
      obtain rfl : suite' = suite'' := Option.some.inj hsuite''
      refine .inl ⟨offer, List.mem_cons_self .., _, ?_, hanswers⟩
      simp only [Option.bind_eq_bind, Option.bind_some, if_pos heq, htag, hkps]
    · simp only [Option.bind_eq_bind, Option.bind_some, if_neg heq]
      rcases ih hoffers with ⟨offer', hmem, answer, hanswer, hanswers⟩ | ⟨hnone, hall⟩
      · exact .inl ⟨offer', List.mem_cons_of_mem _ hmem, answer, hanswer, hanswers⟩
      · refine .inr ⟨hnone, List.forall_mem_cons.mpr ⟨fun h => heq ?_, ?_⟩⟩
        · rw [hsuite'] at h
          exact (Option.some.inj h).symm
        · rw [← hsuite]
          exact hall

/-- **The outer loop.** -/
theorem firstAnswer_spec {starts offers : List (SdpField 'a')} (hstarts : ∀ f ∈ starts, IsCrypto f)
    (hoffers : ∀ f ∈ offers, IsCrypto f) :
    (∃ start ∈ starts, ∃ offer ∈ offers, ∃ answer,
        firstAnswer offers starts = some (some answer) ∧ Answers start offer answer) ∨
      firstAnswer offers starts = some none ∧ ∀ start ∈ starts, ∀ offer ∈ offers,
        getCryptoSuite start ≠ getCryptoSuite offer := by
  induction starts with
  | nil => exact .inr ⟨rfl, fun _ h => absurd h List.not_mem_nil⟩
  | cons start starts ih =>
    obtain ⟨hstart, hstarts⟩ := List.forall_mem_cons.mp hstarts
    rw [firstAnswer]
    rcases answerTo_spec hstart hoffers with ⟨offer, hmem, answer, hanswer, hanswers⟩ | ⟨hnone, hall⟩
    · rw [hanswer]
      exact .inl ⟨start, List.mem_cons_self .., offer, hmem, answer, rfl, hanswers⟩
    · rw [hnone]
      rcases ih hstarts with ⟨start', hmem, offer, hoffer, answer, hanswer, hanswers⟩ | ⟨hrest, hrest'⟩
      · exact .inl ⟨start', List.mem_cons_of_mem _ hmem, offer, hoffer, answer, hanswer, hanswers⟩
      · exact .inr ⟨hrest, List.forall_mem_cons.mpr ⟨hall, hrest'⟩⟩

end Loops

end SdesOfferAnswerModel
end SoftPhone
