import SoftPhone.Sdp.Sections

/-!
# Lines and the sections they belong to

In a session description, the lines in front of the first one of type m belong to the session, and
the others to the media section they stand in.  The parser looks for an optional field of the
session in all that follows, so it takes a line of a media section if the session has none.

`scoped_iff` says when the lines are attached to where they stand.
-/

namespace SoftPhone

open SdpParser

namespace SdpText

/-- The lines are attached to where they stand: the session is what it would be without the media
sections, there is one media description for each media section, in their order, and it has the
connections and the attributes of this section. -/
structure Scoped (d : SdpText) : Prop where
  session : { SdpMessage.ofText d.text with media := [] } = SdpMessage.ofText (render d.session)
  media : ((SdpMessage.ofText d.text).media.map fun md => (md.m, md.c.toList, md.av)) =
    d.media.map fun s => (fieldOf s.m, fieldsOf 'c' s.lines, fieldsOf 'a' s.lines)

/-- **When the lines are attached to where they stand**: a line of type i, c or k stands in a media
section only if there is one in the session, and a line of type b in none; every media section but
the last one has a line of its own; and no section has two connections. -/
theorem scoped_iff (d : SdpText) :
    Scoped d ↔ Contained d.session d.media ∧ (∀ s ∈ d.media.dropLast, s.lines ≠ []) ∧
      ∀ s ∈ d.media, (fieldsOf 'c' s.lines).length ≤ 1 := by
  constructor
  · intro h
    have hlength := congrArg List.length h.media
    rw [List.length_map, List.length_map] at hlength
    have hcontained : Contained d.session d.media := by
      by_contra hnot
      have hlt := length_media_lt d.inOrder d.media hnot
      rw [← ofText_render d.typed] at hlt
      have hlt' : (SdpMessage.ofText d.text).media.length < d.media.length := hlt
      omega
    have hmedia : (SdpMessage.ofText d.text).media = merge d.media := by
      rw [d.ofText_text hcontained]
    have hlines : ∀ s ∈ d.media.dropLast, s.lines ≠ [] := by
      rw [hmedia] at hlength
      exact lines_ne_nil_of_length hlength
    refine ⟨hcontained, hlines, fun s hs => ?_⟩
    have hall := h.media
    rw [hmedia, merge_eq_map hlines, List.map_map] at hall
    have hone := (List.map_inj_left.mp hall) s hs
    have hc : (fieldsOf 'c' s.lines).head?.toList = fieldsOf 'c' s.lines :=
      (Prod.mk.inj (Prod.mk.inj hone).2).1
    rw [← hc]
    cases (fieldsOf 'c' s.lines).head? with
    | none => exact Nat.zero_le 1
    | some c => exact le_rfl
  · rintro ⟨hcontained, hlines, hc⟩
    have htext := d.ofText_text hcontained
    refine ⟨?_, ?_⟩
    · rw [htext, ← d.media_session]
    · rw [htext]
      dsimp only
      rw [merge_eq_map hlines, List.map_map]
      refine List.map_congr_left fun s hs => ?_
      show (fieldOf s.m, (fieldsOf 'c' s.lines).head?.toList, fieldsOf 'a' s.lines) = _
      have hone := hc s hs
      cases hfields : fieldsOf 'c' s.lines with
      | nil => rfl
      | cons c cs =>
        rw [hfields, List.length_cons] at hone
        have hnil : cs = [] := List.length_eq_zero_iff.mp (by omega)
        rw [hnil]
        rfl

/-- A line with this value. -/
def entry (value : String) (h : ∀ c ∈ value.toList, SipParser.isCRLF c = false) : Entry where
  value := value.toList
  plain := h

/-- A session with no connection of its own, but with one in its media section. -/
def ownConnection : SdpText where
  session := [('v', entry "0" (by decide)), ('o', entry "- 0 0 IN IP4 h" (by decide)),
    ('s', entry "-" (by decide)), ('t', entry "0 0" (by decide))]
  media := [{
    m := entry "audio 4000 RTP/AVP 0" (by decide)
    lines := [('c', entry "IN IP4 10.0.0.1" (by decide)), ('a', entry "sendrecv" (by decide))]
    types := by decide
    inOrder := by unfold InOrder; decide }]
  types := by decide
  inOrder := by unfold InOrder; decide

/-- **The connection of the media section is taken for the session**, and the time and the media
description are lost. -/
theorem ownConnection_taken :
    (SdpMessage.ofText ownConnection.text).c = ⟨"IN IP4 10.0.0.1".toList⟩ ∧
      (SdpMessage.ofText ownConnection.text).tv = [] ∧
      (SdpMessage.ofText ownConnection.text).media = [] ∧ ¬Scoped ownConnection := by
  have hmedia : (SdpMessage.ofText ownConnection.text).media = [] := by decide +kernel
  refine ⟨by decide +kernel, by decide +kernel, hmedia, fun h => ?_⟩
  have hlength := congrArg List.length h.media
  rw [hmedia] at hlength
  exact absurd hlength (by decide)

end SdpText

end SoftPhone
