import Mathlib.Data.List.Nodup
import SoftPhone.Sdp.OfferAnswer

/-!
# The formats of an answer, and their rtpmap attributes

The answer keeps each offered format that the local media has too, and each rtpmap attribute whose
value starts with such a format.  So it is right (`Negotiated`) if no common format is offered twice
and no attribute starts with the format of another one (`negotiated_iff`).
-/

namespace SoftPhone

open SipParser

namespace OfferAnswerModel

/-- "rtpmap". -/
def rtpmap : Text := "rtpmap".toList

/-- The payload type of an rtpmap attribute: the first word of its value. -/
def payloadType (value : Text) : Text := value.takeWhile isChar

/-- What a value starts with is its payload type, if this is one of the formats. -/
theorem payloadType_prefix (value : Text) : payloadType value <+: value := List.takeWhile_prefix _

/-- The formats of the answer are the offered ones that are there locally, in the order of the offer
and without repetition, and its rtpmap attributes are the local ones of these formats. -/
structure Negotiated (start offer answer : MediaDescriptor) : Prop where
  formats : ∀ f, f ∈ answer.m.getFormatList ↔
    f ∈ offer.m.getFormatList ∧ f ∈ start.m.getFormatList
  order : answer.m.getFormatList.Sublist offer.m.getFormatList
  nodup : answer.m.getFormatList.Nodup
  attributes : ∀ attr, attr ∈ answer.getAttributes rtpmap ↔
    attr ∈ start.getAttributes rtpmap ∧
      ∃ value ∈ attr.getAttributeValue, payloadType value ∈ answer.m.getFormatList

/-- The local port can be read, the rtpmap attributes that are looked at have values, no local format
is offered twice, and an attribute that starts with a common format is one of a common format. -/
structure Negotiable (start offer : MediaDescriptor) : Prop where
  port : start.m.getPort ≠ none
  values : Common start offer →
    ∀ attr ∈ start.getAttributes rtpmap, attr.getAttributeValue ≠ none
  once : ∀ f ∈ start.m.getFormatList, offer.m.getFormatList.count f ≤ 1
  whole : ∀ attr ∈ start.getAttributes rtpmap, ∀ value ∈ attr.getAttributeValue,
    ∀ f ∈ offer.m.getFormatList, f ∈ start.m.getFormatList → f <+: value →
      payloadType value ∈ offer.m.getFormatList ∧ payloadType value ∈ start.m.getFormatList

section Product

variable {start offer answer : MediaDescriptor}

theorem mem_commonFormats {f : Text} : f ∈ commonFormats start offer ↔
    f ∈ offer.m.getFormatList ∧ f ∈ start.m.getFormatList := by
  unfold commonFormats
  rw [List.mem_filter, List.contains_iff_mem]

theorem nodup_commonFormats : (commonFormats start offer).Nodup ↔
    ∀ f ∈ start.m.getFormatList, offer.m.getFormatList.count f ≤ 1 := by
  unfold commonFormats
  rw [List.nodup_iff_count_le_one]
  constructor
  · intro h f hf
    have hcount := h f
    rwa [List.count_filter (by simpa using hf)] at hcount
  · intro h f
    by_cases hf : f ∈ start.m.getFormatList
    · rw [List.count_filter (by simpa using hf)]
      exact h f hf
    · rw [List.count_eq_zero_of_not_mem]
      · exact Nat.zero_le 1
      · rw [List.mem_filter]
        exact fun hmem => hf (by simpa using hmem.2)

/-- The attributes that are kept for one format. -/
theorem mem_startingWith {format : Text} {attrs kept : List (SdpField 'a')}
    (h : startingWith format attrs = some kept) (attr : SdpField 'a') :
    attr ∈ kept ↔ attr ∈ attrs ∧ ∃ value ∈ attr.getAttributeValue, format <+: value := by
  induction attrs generalizing kept with
  | nil =>
    obtain rfl : [] = kept := Option.some.inj h
    simp
  | cons a attrs ih =>
    rw [startingWith] at h
    obtain ⟨value, hvalue, h⟩ := Option.bind_eq_some_iff.mp h
    obtain ⟨rest, hrest, h⟩ := Option.bind_eq_some_iff.mp h
    have hrest' := ih hrest
    rw [List.mem_cons]
    by_cases hpre : format.isPrefixOf value = true
    · rw [if_pos hpre] at h
      obtain rfl := Option.some.inj h
      rw [List.mem_cons, hrest']
      constructor
      · rintro (rfl | ⟨hmem, hex⟩)
        · exact ⟨.inl rfl, value, hvalue, List.isPrefixOf_iff_prefix.mp hpre⟩
        · exact ⟨.inr hmem, hex⟩
      · rintro ⟨rfl | hmem, hex⟩
        · exact .inl rfl
        · exact .inr ⟨hmem, hex⟩
    · rw [if_neg hpre] at h
      obtain rfl := Option.some.inj h
      rw [hrest']
      constructor
      · rintro ⟨hmem, hex⟩
        exact ⟨.inr hmem, hex⟩
      · rintro ⟨rfl | hmem, value', hvalue', hpre'⟩
        · rw [hvalue] at hvalue'
          obtain rfl : value = value' := Option.some.inj hvalue'
          exact absurd (List.isPrefixOf_iff_prefix.mpr hpre') hpre
        · exact ⟨hmem, value', hvalue', hpre'⟩

/-- The attributes that are kept for all formats. -/
theorem mem_flatten_mapM {fs : List Text} {attrs : List (SdpField 'a')}
    {kept : List (List (SdpField 'a'))} (h : fs.mapM (startingWith · attrs) = some kept)
    (attr : SdpField 'a') :
    attr ∈ kept.flatten ↔ attr ∈ attrs ∧
      ∃ value ∈ attr.getAttributeValue, ∃ f ∈ fs, f <+: value := by
  induction fs generalizing kept with
  | nil =>
    obtain rfl : [] = kept := Option.some.inj h
    simp
  | cons f fs ih =>
    rw [List.mapM_cons] at h
    obtain ⟨first, hfirst, h⟩ := Option.bind_eq_some_iff.mp h
    obtain ⟨others, hothers, h⟩ := Option.bind_eq_some_iff.mp h
    obtain rfl := Option.some.inj h
    rw [List.flatten_cons, List.mem_append, mem_startingWith hfirst, ih hothers]
    constructor
    · rintro (⟨hmem, value, hvalue, hpre⟩ | ⟨hmem, value, hvalue, f', hf', hpre⟩)
      · exact ⟨hmem, value, hvalue, f, List.mem_cons_self .., hpre⟩
      · exact ⟨hmem, value, hvalue, f', List.mem_cons_of_mem _ hf', hpre⟩
    · rintro ⟨hmem, value, hvalue, f', hf', hpre⟩
      rcases List.mem_cons.mp hf' with rfl | hf'
      · exact .inl ⟨hmem, value, hvalue, hpre⟩
      · exact .inr ⟨hmem, value, hvalue, f', hf', hpre⟩

/-- **The rtpmap attributes of the answer** are the local ones whose value starts with a common
format. -/
theorem mem_attributes_product (h : product start offer = some answer) (attr : SdpField 'a') :
    attr ∈ answer.getAttributes rtpmap ↔ attr ∈ start.getAttributes rtpmap ∧
      ∃ value ∈ attr.getAttributeValue, ∃ f ∈ commonFormats start offer, f <+: value := by
  obtain ⟨attrs, hattrs, h⟩ := Option.bind_eq_some_iff.mp h
  obtain ⟨port, -, h⟩ := Option.bind_eq_some_iff.mp h
  rw [← Option.some.inj h]
  have hmem := mem_flatten_mapM hattrs attr
  unfold MediaDescriptor.getAttributes at hmem ⊢
  rw [List.mem_filter, hmem]
  constructor
  · exact fun h => h.1
  · exact fun h => ⟨h, (List.mem_filter.mp h.1).2⟩

end Product

/-- What a right answer says about the two media descriptions. -/
theorem negotiable_of_negotiated {start offer answer : MediaDescriptor}
    (hanswer : product start offer = some answer) (hneg : Negotiated start offer answer) :
    Negotiable start offer := by
  have hsome : product start offer ≠ none := by
    rw [hanswer]
    exact Option.some_ne_none _
  rw [ne_eq, product_eq_none, not_or, not_and] at hsome
  have hformats := (product_spec hanswer).2.2
  have hnodup := hneg.nodup
  rw [hformats, nodup_commonFormats] at hnodup
  refine ⟨hsome.1, fun hc attr hattr hnone => hsome.2 hc ⟨attr, hattr, hnone⟩, hnodup, ?_⟩
  intro attr hattr value hvalue f hoffer hstart hpre
  have hkept : attr ∈ answer.getAttributes rtpmap :=
    (mem_attributes_product hanswer attr).mpr
      ⟨hattr, value, hvalue, f, mem_commonFormats.mpr ⟨hoffer, hstart⟩, hpre⟩
  obtain ⟨-, value', hvalue', hmem⟩ := (hneg.attributes attr).mp hkept
  rw [Option.mem_def.mp hvalue] at hvalue'
  obtain rfl : value = value' := Option.some.inj hvalue'
  exact (hneg.formats _).mp hmem

/-- What is answered where the two media descriptions are negotiable. -/
theorem negotiated_of_negotiable {start offer : MediaDescriptor} (h : Negotiable start offer) :
    ∃ answer, product start offer = some answer ∧ Negotiated start offer answer := by
  have hsome : product start offer ≠ none := by
    rw [ne_eq, product_eq_none, not_or, not_and]
    refine ⟨h.port, ?_⟩
    rintro hc ⟨attr, hattr, hnone⟩
    exact h.values hc attr hattr hnone
  obtain ⟨answer, hanswer⟩ := Option.ne_none_iff_exists'.mp hsome
  have hformats := (product_spec hanswer).2.2
  refine ⟨answer, hanswer, ?_, ?_, ?_, ?_⟩
  · intro f
    rw [hformats]
    exact mem_commonFormats
  · rw [hformats]
    exact List.filter_sublist
  · rw [hformats, nodup_commonFormats]
    exact h.once
  · intro attr
    rw [mem_attributes_product hanswer, hformats]
    refine and_congr_right fun hattr => ?_
    constructor
    · rintro ⟨value, hvalue, f, hf, hpre⟩
      obtain ⟨hoffer, hstart⟩ := mem_commonFormats.mp hf
      exact ⟨value, hvalue,
        mem_commonFormats.mpr (h.whole attr hattr value hvalue f hoffer hstart hpre)⟩
    · rintro ⟨value, hvalue, hmem⟩
      exact ⟨value, hvalue, _, hmem, payloadType_prefix value⟩

/-- **The answer has the right formats and attributes if and only if** the two media descriptions
are negotiable. -/
theorem negotiated_iff (start offer : MediaDescriptor) :
    (∃ answer, product start offer = some answer ∧ Negotiated start offer answer) ↔
      Negotiable start offer := by
  constructor
  · rintro ⟨answer, hanswer, hneg⟩
    exact negotiable_of_negotiated hanswer hneg
  · exact negotiated_of_negotiable

/-- A local audio with the formats 9 and 96. -/
def g722AndOpus : MediaDescriptor where
  m := ⟨"audio 4000 RTP/AVP 9 96".toList⟩
  av := [⟨"rtpmap:9 G722/8000".toList⟩, ⟨"rtpmap:96 opus/48000".toList⟩]

/-- An offer of the format 9 only. -/
def offeredG722 : MediaDescriptor where
  m := ⟨"audio 6000 RTP/AVP 9".toList⟩

/-- **The attribute of the format 96 is kept** in an answer with the format 9. -/
theorem not_negotiated_prefix :
    ¬∃ answer, product g722AndOpus offeredG722 = some answer ∧
      Negotiated g722AndOpus offeredG722 answer := by
  rintro ⟨answer, hanswer, hneg⟩
  have h := negotiable_of_negotiated hanswer hneg
  have hwhole := (h.whole ⟨"rtpmap:96 opus/48000".toList⟩ (by decide) "96 opus/48000".toList
    (by decide) "9".toList (by decide) (by decide) (by decide)).1
  exact absurd hwhole (by decide)

end OfferAnswerModel
end SoftPhone
