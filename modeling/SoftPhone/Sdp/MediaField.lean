import SoftPhone.Sdp.FirstField
import SoftPhone.Sdp.OfferAnswer
import SoftPhone.Sdp.RoundTrip

/-!
# Class `MediaField`

The value of a media field is written with a blank between its parts, and each accessor looks for its
part from the front.

* `parseField_text`: a field that is written on a line is read again, by both methods of the parser.
* `ofParts_plain`: the value of a media field stands on a line, and nothing of it is trimmed.
* `ofParts_hasParts`: the accessors give the parts, also of the field that is read again.
-/

namespace SoftPhone

open SipParser SdpParser

namespace SdpField

/-! ## A field on a line -/

/-- **A field that is written is read**, whatever follows. -/
theorem parseField_text {type : Char} {f : SdpField type} (h : f.Plain) (n : ℕ) (rest : Text) :
    parseSdpField type (f.text ++ rest) = (some f, rest) ∧
      parseFirstField n (f.text ++ rest) = some (.field type f.value rest) := by
  obtain ⟨hvalue, hnext⟩ := value_line (type, f.entry h) rest
  rw [lineText_entry] at hvalue hnext
  have hfield : trim (((f.text ++ rest).drop 2).takeWhile (!isCRLF ·)) = f.value := by
    rw [hvalue]
    exact h.trimmed
  constructor
  · have hstarts : startsField type (f.text ++ rest) = true := beq_self_eq_true type
    rw [parseSdpField, if_pos hstarts]
    show (some (⟨trim _⟩ : SdpField type), goToNextLine _) = _
    rw [hfield, hnext]
  · have hskips : skips (f.text ++ rest) = false := rfl
    rw [parseFirstField, skipLoop_of_not hskips, Option.map_some]
    show some (FieldResult.field type (trim (((f.text ++ rest).drop 2).takeWhile (!isCRLF ·)))
      (goToNextLine ((f.text ++ rest).drop 2))) = _
    rw [hfield, hnext]

/-! ## The value of a media field -/

/-- A non-empty string of visible characters. -/
def Visible (s : Text) : Prop := s ≠ [] ∧ ∀ c ∈ s, isChar c = true

instance (s : Text) : Decidable (Visible s) := inferInstanceAs (Decidable (_ ∧ _))

theorem isChar_visible {c : Char} (h : isChar c = true) : ¬c ≤ ' ' ∧ isCRLF c = false := by
  have hlt : ' ' < c := by
    rw [isChar, Bool.and_eq_true, decide_eq_true_iff] at h
    exact h.1
  exact ⟨Char.not_le.mpr hlt, (not_space_of_lt hlt).2⟩

variable {media transport : Text} {port num : ℤ} {fs : List Text}

/-- The last character is one of the last word. -/
theorem isChar_getLast_words (htransport : Visible transport) (hfs : ∀ f ∈ fs, Visible f) :
    ∀ c ∈ (transport ++ fs.flatMap (' ' :: ·)).getLast?, isChar c = true := by
  rcases List.eq_nil_or_concat fs with rfl | ⟨init, last, rfl⟩
  · intro c hc
    rw [List.flatMap_nil, List.append_nil] at hc
    exact htransport.2 c (List.mem_of_getLast? hc)
  · rw [List.concat_eq_append] at hfs ⊢
    have hlast := hfs last (List.mem_append_right init (List.mem_singleton_self last))
    intro c hc
    rw [List.flatMap_append, List.flatMap_singleton, ← List.append_assoc, List.append_cons,
      List.getLast?_append_of_ne_nil _ hlast.1] at hc
    exact hlast.2 c (List.mem_of_getLast? hc)

/-- **The value stands on a line, and nothing of it is trimmed.** -/
theorem ofParts_plain (hmedia : Visible media) (htransport : Visible transport)
    (hfs : ∀ f ∈ fs, Visible f) : (ofParts media port num transport fs).Plain := by
  have hvalue : (ofParts media port num transport fs).value =
      media ++ ' ' :: (portText port num ++ ' ' :: (transport ++ fs.flatMap (' ' :: ·))) := rfl
  have hwords : transport ++ fs.flatMap (' ' :: ·) ≠ [] :=
    List.append_ne_nil_of_left_ne_nil htransport.1 _
  refine ⟨?_, trim_eq_self (fun c hc => ?_) fun c hc => ?_, fun c hc => ?_⟩
  · rw [hvalue]
    exact List.append_ne_nil_of_left_ne_nil hmedia.1 _
  · rw [hvalue, List.head?_append_of_ne_nil _ hmedia.1] at hc
    exact (isChar_visible (hmedia.2 c (List.mem_of_mem_head? hc))).1
  · have hsplit : (ofParts media port num transport fs).value =
        media ++ ' ' :: (portText port num ++ [' ']) ++ (transport ++ fs.flatMap (' ' :: ·)) := by
      rw [hvalue]
      simp only [List.append_assoc, List.cons_append, List.nil_append]
    rw [hsplit, List.getLast?_append_of_ne_nil _ hwords] at hc
    exact (isChar_visible (isChar_getLast_words htransport hfs c hc)).1
  · have hline {s : Text} (hs : ∀ d ∈ s, isChar d = true) (hmem : c ∈ s) : isCRLF c = false :=
      (isChar_visible (hs c hmem)).2
    rw [hvalue] at hc
    simp only [List.mem_append, List.mem_cons, List.mem_flatMap] at hc
    rcases hc with hc | rfl | hc | rfl | hc | ⟨f, hf, rfl | hc⟩
    · exact hline hmedia.2 hc
    · decide
    · exact hline (fun d hd => isChar_of_mem_portText hd) hc
    · decide
    · exact hline htransport.2 hc
    · decide
    · exact hline (hfs f hf).2 hc

/-! ## The accessors -/

/-- What the accessors of a media field give. -/
structure HasParts (f : SdpField 'm') (media : Text) (port : ℤ) (transport : Text)
    (formatlist : List Text) : Prop where
  media : f.getMedia = media
  port : f.getPort = some port
  transport : f.getTransport = transport
  formats : f.getFormatList = formatlist

theorem getTransport_ofParts (hmedia : Visible media) (htransport : Visible transport) :
    (ofParts media port num transport fs).getTransport = transport := by
  unfold getTransport
  rw [getString_getString_ofParts hmedia, getString_space,
    getString_append htransport.2 (not_isChar_words fs) htransport.1]

/-- **The accessors give the parts**, and they do so for the field that is read from the line again. -/
theorem ofParts_hasParts (hmedia : Visible media) (htransport : Visible transport)
    (hfs : ∀ f ∈ fs, Visible f) (hport : 0 ≤ port ∧ port ≤ 2147483647) :
    HasParts (ofParts media port num transport fs) media port transport fs ∧
      ∀ (n : ℕ) (rest : Text),
        (∃ f : SdpField 'm',
          parseSdpField 'm' ((ofParts media port num transport fs).text ++ rest) = (some f, rest) ∧
            HasParts f media port transport fs) ∧
        ∃ f : SdpField 'm',
          parseFirstField n ((ofParts media port num transport fs).text ++ rest) =
              some (.field 'm' f.value rest) ∧
            HasParts f media port transport fs := by
  have hrange : -2147483648 ≤ port ∧ port ≤ 2147483647 := ⟨by omega, hport.2⟩
  have hparts : HasParts (ofParts media port num transport fs) media port transport fs :=
    ⟨getMedia_ofParts hmedia, getPort_ofParts hmedia hrange, getTransport_ofParts hmedia htransport,
      getFormatList_ofParts hmedia (fun _ => htransport.1) htransport.2 hfs⟩
  refine ⟨hparts, fun n rest => ?_⟩
  obtain ⟨htyped, hfirst⟩ := parseField_text (ofParts_plain hmedia htransport hfs) n rest
  exact ⟨⟨_, htyped, hparts⟩, ⟨_, hfirst, hparts⟩⟩

/-- A field with two ports and two formats. -/
theorem ofParts_hasParts_audio :
    HasParts (ofParts "audio".toList 5004 2 "RTP/AVP".toList ["0".toList, "8".toList])
      "audio".toList 5004 "RTP/AVP".toList ["0".toList, "8".toList] :=
  (ofParts_hasParts (by decide) (by decide) (by decide) (by decide)).1

end SdpField
end SoftPhone
