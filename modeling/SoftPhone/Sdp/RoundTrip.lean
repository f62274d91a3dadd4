import SoftPhone.Sdp.Sections

/-!
# A session description that is written is read again

A session description with the mandatory fields, one connection and any media descriptions is
written in the order of its lines, so it is read as they are.  But a media description that has
neither a connection nor an attribute is a section without a line of its own, and is read as one
with the next (`ofText_toText_iff`).
-/

namespace SoftPhone

open SipParser SdpParser

/-- A value as it may be written: not empty, trimmed and on one line. -/
structure SdpField.Plain {type : Char} (f : SdpField type) : Prop where
  ne_nil : f.value ≠ []
  trimmed : Trimmed f.value
  line : ∀ c ∈ f.value, isCRLF c = false

instance {type : Char} (f : SdpField type) : Decidable f.Plain :=
  decidable_of_iff (f.value ≠ [] ∧ trim f.value = f.value ∧ ∀ c ∈ f.value, isCRLF c = false)
    ⟨fun h => ⟨h.1, h.2.1, h.2.2⟩, fun h => ⟨h.ne_nil, h.trimmed, h.line⟩⟩

/-- The line of a field. -/
def SdpField.entry {type : Char} (f : SdpField type) (h : f.Plain) : Entry where
  value := f.value
  plain := h.line

theorem SdpField.fieldOf_entry {type : Char} (f : SdpField type) (h : f.Plain) :
    (fieldOf (f.entry h) : SdpField type) = f := by
  unfold fieldOf
  show (⟨trim f.value⟩ : SdpField type) = f
  rw [h.trimmed]

theorem SdpField.lineText_entry {type : Char} (f : SdpField type) (h : f.Plain) :
    lineText (type, f.entry h) = f.text := rfl

/-- The lines of some fields of a type. -/
def entries {type : Char} (fs : List (SdpField type)) (h : ∀ f ∈ fs, f.Plain) : List SdpLine :=
  fs.pmap (fun f hf => (type, f.entry hf)) h

section Entries

variable {type : Char} {fs : List (SdpField type)} (h : ∀ f ∈ fs, f.Plain)

theorem types_entries : ∀ l ∈ entries fs h, l.1 = type := by
  intro l hl
  obtain ⟨f, hf, rfl⟩ := List.mem_pmap.mp hl
  rfl

theorem render_entries : render (entries fs h) = fs.flatMap SdpField.text := by
  induction fs with
  | nil => rfl
  | cons f fs ih =>
    obtain ⟨hf, hfs⟩ := List.forall_mem_cons.mp h
    show lineText (type, f.entry hf) ++ render (entries fs hfs) = _
    rw [ih hfs, SdpField.lineText_entry, List.flatMap_cons]

theorem fieldsOf_entries : fieldsOf type (entries fs h) = fs := by
  have hall : (entries fs h).filter (·.1 = type) = entries fs h :=
    List.filter_eq_self.mpr fun l hl => by simpa using types_entries h l hl
  unfold fieldsOf
  rw [hall]
  clear hall
  induction fs with
  | nil => rfl
  | cons f fs ih =>
    obtain ⟨hf, hfs⟩ := List.forall_mem_cons.mp h
    show fieldOf (f.entry hf) :: (entries fs hfs).map _ = _
    rw [ih hfs, SdpField.fieldOf_entry]

theorem fieldsOf_entries_of_ne {type' : Char} (hne : type ≠ type') :
    fieldsOf type' (entries fs h) = [] := by
  have hnone : (entries fs h).filter (·.1 = type') = [] :=
    List.filter_eq_nil_iff.mpr fun l hl => by
      rw [types_entries h l hl]
      simpa using hne
  unfold fieldsOf
  rw [hnone]
  rfl

end Entries

/-- A media description as it may be written. -/
structure MediaDescriptor.Plain (d : MediaDescriptor) : Prop where
  m : d.m.Plain
  c : ∀ f ∈ d.c.toList, f.Plain
  av : ∀ f ∈ d.av, f.Plain

/-- A session description with the fields v, o, s, c and t and any media descriptions, as it may be
written. -/
structure SdpMessage.Plain (m : SdpMessage) : Prop where
  v : m.v.Plain
  o : m.o.Plain
  s : m.s.Plain
  c : m.c.Plain
  tv : ∀ d ∈ m.tv, d.t.Plain ∧ d.rv = []
  media : ∀ d ∈ m.media, d.Plain
  others : m.i = none ∧ m.u = none ∧ m.e = none ∧ m.p = none ∧ m.bv = [] ∧ m.z = none ∧
    m.k = none ∧ m.av = []

/-- The section of a media description. -/
def MediaDescriptor.toSection (d : MediaDescriptor) (h : d.Plain) : MediaSection where
  m := d.m.entry h.m
  lines := entries d.c.toList h.c ++ entries d.av h.av
  types l hl := by
    rcases List.mem_append.mp hl with hl | hl
    · rw [types_entries h.c l hl]
      decide
    · rw [types_entries h.av l hl]
      decide
  inOrder := by
    refine List.pairwise_append.mpr ⟨?_, ?_, ?_⟩
    · exact List.pairwise_of_forall_mem_list fun l hl l' hl' => by
        rw [types_entries h.c l hl, types_entries h.c l' hl']
    · exact List.pairwise_of_forall_mem_list fun l hl l' hl' => by
        rw [types_entries h.av l hl, types_entries h.av l' hl']
    · intro l hl l' hl'
      rw [types_entries h.c l hl, types_entries h.av l' hl']
      decide

section MediaDescriptor

variable (d : MediaDescriptor) (h : d.Plain)

/-- A media description is what its section describes. -/
theorem describe_toSection : describe (d.toSection h) = d := by
  have hc : fieldsOf 'c' (d.toSection h).lines = d.c.toList := by
    show fieldsOf 'c' (entries d.c.toList h.c ++ entries d.av h.av) = _
    have hleft := fieldsOf_entries h.c
    have hright := @fieldsOf_entries_of_ne _ _ h.av 'c' (by decide)
    unfold fieldsOf at hleft hright ⊢
    rw [List.filter_append, List.map_append, hleft, hright, List.append_nil]
  have ha : fieldsOf 'a' (d.toSection h).lines = d.av := by
    show fieldsOf 'a' (entries d.c.toList h.c ++ entries d.av h.av) = _
    have hleft := @fieldsOf_entries_of_ne _ _ h.c 'a' (by decide)
    have hright := fieldsOf_entries h.av
    unfold fieldsOf at hleft hright ⊢
    rw [List.filter_append, List.map_append, hleft, hright, List.nil_append]
  have hm : (fieldOf (d.toSection h).m : SdpField 'm') = d.m := SdpField.fieldOf_entry d.m h.m
  unfold describe
  rw [hc, ha, hm]
  cases hd : d.c with
  | none =>
    show MediaDescriptor.mk d.m none d.av = d
    rw [← hd]
  | some c =>
    show MediaDescriptor.mk d.m (some c) d.av = d
    rw [← hd]

theorem render_toSection : render (d.toSection h).all = d.text := by
  show lineText ('m', d.m.entry h.m) ++
    render (entries d.c.toList h.c ++ entries d.av h.av) = _
  rw [render_append, render_entries, render_entries, SdpField.lineText_entry]
  unfold MediaDescriptor.text optionText
  rw [List.append_assoc]

/-- A section has no line of its own if there is neither a connection nor an attribute. -/
theorem toSection_lines_eq_nil : (d.toSection h).lines = [] ↔ d.c = none ∧ d.av = [] := by
  show entries d.c.toList h.c ++ entries d.av h.av = [] ↔ _
  unfold entries
  rw [List.append_eq_nil_iff, List.pmap_eq_nil_iff, List.pmap_eq_nil_iff, Option.toList_eq_nil_iff]

theorem not_has_toSection {type : Char} (hc : 'c' ≠ type) (ha : 'a' ≠ type) :
    ¬Has type (d.toSection h).lines := by
  rintro ⟨l, hl, hl'⟩
  rcases List.mem_append.mp hl with hl | hl
  · exact hc ((types_entries h.c l hl).symm.trans hl')
  · exact ha ((types_entries h.av l hl).symm.trans hl')

end MediaDescriptor

namespace SdpMessage

variable {m : SdpMessage} (h : m.Plain)

theorem plain_times (h : m.Plain) : ∀ f ∈ m.tv.map TimeDescription.t, f.Plain := by
  intro f hf
  obtain ⟨d, hd, rfl⟩ := List.mem_map.mp hf
  exact (h.tv d hd).1

/-- The lines of a session description. -/
def toLines (m : SdpMessage) (h : m.Plain) : SdpText where
  session := [('v', m.v.entry h.v), ('o', m.o.entry h.o), ('s', m.s.entry h.s),
    ('c', m.c.entry h.c)] ++ entries (m.tv.map TimeDescription.t) (plain_times h)
  media := m.media.pmap MediaDescriptor.toSection h.media
  types l hl := by
    rcases List.mem_append.mp hl with hl | hl
    · have hall : ∀ l ∈ [('v', m.v.entry h.v), ('o', m.o.entry h.o), ('s', m.s.entry h.s),
          ('c', m.c.entry h.c)], l.1 ∈ ['v', 'o', 's', 'c'] := by simp
      have hsub : ∀ c ∈ ['v', 'o', 's', 'c'],
          c ∈ ['v', 'o', 's', 'i', 'u', 'e', 'p', 'c', 'b', 't', 'r', 'z', 'k', 'a'] := by decide
      exact hsub _ (hall l hl)
    · rw [types_entries _ l hl]
      decide
  inOrder := by
    refine List.pairwise_append.mpr ⟨?_, ?_, ?_⟩
    · have hall : ([('v', m.v.entry h.v), ('o', m.o.entry h.o), ('s', m.s.entry h.s),
          ('c', m.c.entry h.c)].map Prod.fst).Pairwise fun a b => rank a ≤ rank b := by
        show (['v', 'o', 's', 'c'] : List Char).Pairwise fun a b => rank a ≤ rank b
        decide
      exact (@List.pairwise_map _ _ Prod.fst (fun a b => rank a ≤ rank b) [('v', m.v.entry h.v),
        ('o', m.o.entry h.o), ('s', m.s.entry h.s), ('c', m.c.entry h.c)]).mp hall
    · exact List.pairwise_of_forall_mem_list fun l hl l' hl' => by
        rw [types_entries _ l hl, types_entries _ l' hl']
    · intro l hl l' hl'
      rw [types_entries _ l' hl']
      have hall : ∀ l ∈ [('v', m.v.entry h.v), ('o', m.o.entry h.o), ('s', m.s.entry h.s),
          ('c', m.c.entry h.c)], l.1 ∈ ['v', 'o', 's', 'c'] := by simp
      have hle : ∀ c ∈ ['v', 'o', 's', 'c'], rank c ≤ rank 't' := by decide
      exact hle _ (hall l hl)

theorem takeField_cons_self (type : Char) (e : Entry) (ls : List SdpLine) :
    takeField type ((type, e) :: ls) = (some (fieldOf e), ls) := by
  unfold takeField
  rw [findLine, if_pos rfl]

theorem takeField_of_not_has {type : Char} {ls : List SdpLine} (h : ¬Has type ls) :
    takeField type ls = (none, ls) := by
  unfold takeField
  rw [findLine_eq_none h]

/-- The text of the lines is what is written. -/
theorem text_toLines (h : m.Plain) : (m.toLines h).text = m.text := by
  have hmedia (ds : List MediaDescriptor) (hds : ∀ d ∈ ds, d.Plain) :
      render (mediaLines (ds.pmap MediaDescriptor.toSection hds)) =
        ds.flatMap MediaDescriptor.text := by
    induction ds with
    | nil => rfl
    | cons d ds ih =>
      obtain ⟨hd, hds⟩ := List.forall_mem_cons.mp hds
      show render ((d.toSection hd).all ++ mediaLines (ds.pmap MediaDescriptor.toSection hds)) = _
      rw [render_append, render_toSection, ih hds, List.flatMap_cons]
  have htimes : (m.tv.map TimeDescription.t).flatMap SdpField.text =
      m.tv.flatMap TimeDescription.text := by
    rw [List.flatMap_map]
    refine List.flatMap_congr fun d hd => ?_
    unfold TimeDescription.text
    rw [(h.tv d hd).2, List.flatMap_nil, List.append_nil]
  obtain ⟨hi, hu, he, hp, hb, hz, hk, ha⟩ := h.others
  unfold SdpText.text toLines SdpMessage.text
  dsimp only
  rw [render_append, render_append, render_entries, hmedia, htimes, hi, hu, he, hp, hb, hz, hk, ha]
  unfold optionText
  simp [SdpField.lineText_entry]

/-- The session is read as it was written. -/
theorem ofText_session (h : m.Plain) :
    SdpMessage.ofText (render (m.toLines h).session) = { m with media := [] } := by
  have htype : ∀ l ∈ entries (m.tv.map TimeDescription.t) (plain_times h), l.1 = 't' :=
    types_entries (plain_times h)
  have hfields := fieldsOf_entries (plain_times h)
  rw [ofText_render (m.toLines h).typed_session]
  show ofLines (('v', m.v.entry h.v) :: ('o', m.o.entry h.o) :: ('s', m.s.entry h.s) ::
    ('c', m.c.entry h.c) :: entries (m.tv.map TimeDescription.t) (plain_times h)) = _
  generalize entries (m.tv.map TimeDescription.t) (plain_times h) = times at htype hfields
  have hnot {type : Char} (ht : type ≠ 't') : ¬Has type times := by
    rintro ⟨l, hl, rfl⟩
    exact ht (htype l hl)
  have hother (type : Char) (ht : type ≠ 't') (hc : 'c' ≠ type) :
      ¬Has type (('c', m.c.entry h.c) :: times) := by
    rintro ⟨l, hl, hl'⟩
    rcases List.mem_cons.mp hl with rfl | hl
    · exact hc hl'
    · exact hnot ht ⟨l, hl, hl'⟩
  have hb : takeFields 'b' times.length times = ([], times) := by
    cases times.length with
    | zero => rfl
    | succ n => rw [takeFields, findLine_eq_none (hnot (by decide))]
  have ht : takeFields 't' times.length times = (m.tv.map TimeDescription.t, []) := by
    obtain ⟨hfst, hsnd⟩ := takeFields_fst 't' times
    have hrest : (takeFields 't' times.length times).2 = [] := by
      refine List.eq_nil_iff_forall_not_mem.mpr fun l hl => hsnd ⟨l, hl, ?_⟩
      exact htype l ((takeFields_suffix 't' times.length times).subset hl)
    rw [hfields] at hfst
    exact Prod.ext hfst hrest
  have htv : (m.tv.map TimeDescription.t).map (fun t => ({ t := t } : TimeDescription)) = m.tv := by
    rw [List.map_map]
    conv_rhs => rw [← List.map_id m.tv]
    refine List.map_congr_left fun d hd => ?_
    show ({ t := d.t } : TimeDescription) = d
    rw [← (h.tv d hd).2]
  obtain ⟨hi, hu, he, hp, hbv, hz, hk, hav⟩ := h.others
  have hnil {type : Char} : takeField type [] = (none, []) := rfl
  have hmedia (n : ℕ) : takeMedia n [] = [] := takeMedia_of_not_has (by rintro ⟨l, hl, -⟩; cases hl)
  unfold ofLines
  simp only [takeField_cons_self, takeField_of_not_has (hother 'i' (by decide) (by decide)),
    takeField_of_not_has (hother 'u' (by decide) (by decide)),
    takeField_of_not_has (hother 'e' (by decide) (by decide)),
    takeField_of_not_has (hother 'p' (by decide) (by decide)), hb, ht, hnil,
    SdpField.fieldOf_entry, Option.getD_some, takeAttributes, htv]
  simp only [hi, hu, he, hp, hbv, hz, hk, hav, hmedia]

theorem contained_toLines (h : m.Plain) :
    Contained (m.toLines h).session (m.toLines h).media := by
  have hnone {type : Char} (hc : 'c' ≠ type) (ha : 'a' ≠ type) :
      ∀ s ∈ (m.toLines h).media, ¬Has type s.lines := by
    intro s hs
    obtain ⟨d, hd, rfl⟩ := List.mem_pmap.mp hs
    exact not_has_toSection d (h.media d hd) hc ha
  refine ⟨.inr (hnone (by decide) (by decide)), .inl ⟨('c', m.c.entry h.c), ?_, rfl⟩,
    hnone (by decide) (by decide), .inr (hnone (by decide) (by decide))⟩
  exact List.mem_append_left _ (by simp)

/-- The media sections describe the media descriptions. -/
theorem map_describe_toSection {ds : List MediaDescriptor} (hds : ∀ d ∈ ds, d.Plain) :
    (ds.pmap MediaDescriptor.toSection hds).map describe = ds := by
  induction ds with
  | nil => rfl
  | cons d ds ih =>
    obtain ⟨hd, hds⟩ := List.forall_mem_cons.mp hds
    show describe (d.toSection hd) :: (ds.pmap MediaDescriptor.toSection hds).map describe = _
    rw [describe_toSection, ih hds]

/-- Which media sections have a line of their own. -/
theorem lines_ne_nil_iff {ds : List MediaDescriptor} (hds : ∀ d ∈ ds, d.Plain) :
    (∀ s ∈ (ds.pmap MediaDescriptor.toSection hds).dropLast, s.lines ≠ []) ↔
      ∀ d ∈ ds.dropLast, d.c ≠ none ∨ d.av ≠ [] := by
  induction ds with
  | nil => exact ⟨fun _ d hd => absurd hd List.not_mem_nil, fun _ s hs => absurd hs List.not_mem_nil⟩
  | cons d ds ih =>
    cases ds with
    | nil =>
      exact ⟨fun _ d hd => absurd hd List.not_mem_nil, fun _ s hs => absurd hs List.not_mem_nil⟩
    | cons d' ds =>
      obtain ⟨hd, hds⟩ := List.forall_mem_cons.mp hds
      have hone : (d.toSection hd).lines ≠ [] ↔ d.c ≠ none ∨ d.av ≠ [] := by
        rw [ne_eq, toSection_lines_eq_nil, not_and_or]
      rw [List.dropLast_cons_cons, List.forall_mem_cons, ← hone, ← ih hds]
      exact List.forall_mem_cons

/-- **A session description that is written is read again if and only if** every media description
but the last one has a connection or an attribute. -/
theorem ofText_toText_iff (h : m.Plain) :
    SdpMessage.ofText m.text = m ↔ ∀ d ∈ m.media.dropLast, d.c ≠ none ∨ d.av ≠ [] := by
  have hread : SdpMessage.ofText m.text =
      { m with media := merge (m.media.pmap MediaDescriptor.toSection h.media) } := by
    rw [← text_toLines h, SdpText.ofText_text _ (contained_toLines h), ofText_session h]
    rfl
  have hiff : SdpMessage.ofText m.text = m ↔
      merge (m.media.pmap MediaDescriptor.toSection h.media) = m.media := by
    rw [hread]
    constructor
    · intro heq
      exact congrArg SdpMessage.media heq
    · intro heq
      rw [heq]
  rw [hiff, ← lines_ne_nil_iff h.media]
  constructor
  · intro heq
    refine lines_ne_nil_of_length ?_
    rw [heq, List.length_pmap]
  · intro hlines
    rw [merge_eq_map hlines, map_describe_toSection]

/-- A session with these media descriptions. -/
def ofMedia (media : List MediaDescriptor) : SdpMessage where
  v := ⟨"0".toList⟩
  o := ⟨"- 0 0 IN IP4 h".toList⟩
  s := ⟨"-".toList⟩
  c := ⟨"IN IP4 h".toList⟩
  tv := [{ t := ⟨"0 0".toList⟩ }]
  media := media

theorem plain_ofMedia {media : List MediaDescriptor} (h : ∀ d ∈ media, d.Plain) :
    (ofMedia media).Plain where
  v := (by decide : (⟨"0".toList⟩ : SdpField 'v').Plain)
  o := (by decide : (⟨"- 0 0 IN IP4 h".toList⟩ : SdpField 'o').Plain)
  s := (by decide : (⟨"-".toList⟩ : SdpField 's').Plain)
  c := (by decide : (⟨"IN IP4 h".toList⟩ : SdpField 'c').Plain)
  tv d hd := by
    rw [List.mem_singleton.mp hd]
    exact ⟨by decide, rfl⟩
  media := h
  others := ⟨rfl, rfl, rfl, rfl, rfl, rfl, rfl, rfl⟩

/-- An audio and a video section with these attributes of the audio. -/
def audioVideo (av : List (SdpField 'a')) : List MediaDescriptor :=
  [{ m := ⟨"audio 4000 RTP/AVP 0".toList⟩, av := av },
    { m := ⟨"video 5000 RTP/AVP 31".toList⟩, av := [⟨"sendonly".toList⟩] }]

theorem plain_audioVideo {av : List (SdpField 'a')} (h : ∀ f ∈ av, f.Plain) :
    ∀ d ∈ audioVideo av, d.Plain := by
  refine List.forall_mem_cons.mpr ⟨⟨?_, nofun, h⟩, List.forall_mem_cons.mpr ⟨⟨?_, nofun, ?_⟩, nofun⟩⟩
  · exact (by decide : (⟨"audio 4000 RTP/AVP 0".toList⟩ : SdpField 'm').Plain)
  · decide
  · exact List.forall_mem_cons.mpr ⟨by decide, nofun⟩

/-- An audio section with an attribute is read again, and the video section behind it. -/
theorem ofText_toText_iff_muted :
    SdpMessage.ofText (ofMedia (audioVideo [⟨"inactive".toList⟩])).text =
      ofMedia (audioVideo [⟨"inactive".toList⟩]) := by
  refine (ofText_toText_iff (plain_ofMedia (plain_audioVideo ?_))).mpr ?_
  · exact List.forall_mem_cons.mpr ⟨by decide, nofun⟩
  · exact List.forall_mem_cons.mpr ⟨.inr (List.cons_ne_nil _ _), nofun⟩

/-- **An audio section without a line of its own** takes the attribute of the video section, and
the video section is lost. -/
theorem ofText_audioVideo :
    (ofMedia (audioVideo [])).Plain ∧
      SdpMessage.ofText (ofMedia (audioVideo [])).text =
        ofMedia [{ m := ⟨"audio 4000 RTP/AVP 0".toList⟩, av := [⟨"sendonly".toList⟩] }] ∧
      SdpMessage.ofText (ofMedia (audioVideo [])).text ≠ ofMedia (audioVideo []) := by
  have hread : SdpMessage.ofText (ofMedia (audioVideo [])).text =
      ofMedia [{ m := ⟨"audio 4000 RTP/AVP 0".toList⟩, av := [⟨"sendonly".toList⟩] }] := by
    decide +kernel
  refine ⟨plain_ofMedia (plain_audioVideo nofun), hread, ?_⟩
  rw [hread]
  decide

end SdpMessage

end SoftPhone
