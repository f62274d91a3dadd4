import SoftPhone.Text.SipUri

/-!
# The accessors of class `ViaHeader`

A Via value is made from a transport, a host and a port, and gets its parameters afterwards.
`getProtocol` and `getSentBy` skip the two slashes in front of the transport, and `getSentBy` reads
up to the next separator.  Nothing that an edit of the parameters does reaches in front of the first
semicolon (`Shape.edited`), so the accessors return the parts again after any edits, with one
exception: the bracket of an IPv6 address is a separator, and the sent-by that is read is empty
(`returns_iff_isName`).

`setProtocol` puts the new transport in front of what stood behind the old one, the blank before the
sent-by included.  The blanks get more, and nothing else changes.
-/

namespace SoftPhone

open SipParser ParametricHeader

/-- The name of a transport: a token. -/
structure Transport where
  name : Text
  ne_nil : name ≠ []
  chars : ∀ c ∈ name, isChar c = true ∧ isSeparator c = false

/-- What a Via value is made from. -/
structure ViaParts where
  proto : Transport
  host : Host
  port : Option ℤ
  portRange : ∀ p ∈ port, -2147483648 ≤ p ∧ p ≤ 2147483647

namespace ViaHeader

/-- `hasPort`; `none` is a null pointer. -/
def hasPort (value : Text) : Option Bool :=
  (getSentBy value).map fun sentBy => sentBy.head? != some ':' && sentBy.contains ':'

/-- `setProtocol(proto)`. -/
def setProtocol (proto value : Text) : Text :=
  "SIP/2.0/".toList ++ proto.map Char.toUpper ++
    ' ' :: (getString (goTo '/' ((goTo '/' (value.drop 3)).drop 4)).tail).2

/-- An edit of the parameters branch, received and rport. -/
inductive Edit where
  | setBranch (branch : Option Text)
  | setReceived (addr : Text)
  | setRport (port : ℤ)
  | requestRport

/-- What an edit makes of a value; `setRport()` has no argument. -/
def Edit.apply : Edit → Text → Text
  | .setBranch branch => ViaHeader.setBranch branch
  | .setReceived addr => ViaHeader.setReceived addr
  | .setRport port => ViaHeader.setRport port
  | .requestRport => setParameter firstSemi rportParam none

/-- What a sequence of edits makes of a value. -/
def edited (edits : List Edit) (value : Text) : Text :=
  edits.foldl (fun value e => e.apply value) value

end ViaHeader

namespace ViaParts

/-- The sent-by. -/
def sentBy (x : ViaParts) : Text := x.host.toText ++ SipUriParts.portText x.port

/-- The value that is constructed: from the text, where there is no port. -/
def toText (x : ViaParts) : Text :=
  match x.port with
  | none => "SIP/2.0/".toList ++ x.proto.name ++ ' ' :: x.host.toText
  | some port => ViaHeader.ofHost x.proto.name x.host.toText port

/-- The accessors return the parts; the transport is the same up to upper and lower case. -/
structure Returns (x : ViaParts) (v : Text) : Prop where
  protocol : equalsIgnoreCase (ViaHeader.getProtocol v) x.proto.name = true
  host : ViaHeader.getHost v = some x.host.toText
  port : ViaHeader.getPort v = some (x.port.getD (-1))
  hasPort : ViaHeader.hasPort v = some x.port.isSome

end ViaParts

/-! ## Characters -/

/-- Upper and lower case. -/
theorem toLower_toUpper (c : Char) : c.toUpper.toLower = c.toLower := by
  by_cases h : c.val ≥ 'a'.val ∧ c.val ≤ 'z'.val
  · have hall : ∀ n < 26, (Char.ofNat (97 + n)).toUpper.toLower = (Char.ofNat (97 + n)).toLower := by
      decide
    obtain ⟨h1, h2⟩ := h
    have hn : 97 ≤ c.toNat := UInt32.le_iff_toNat_le.mp h1
    have hn' : c.toNat ≤ 122 := UInt32.le_iff_toNat_le.mp h2
    have hc := hall (c.toNat - 97) (by omega)
    rwa [Nat.add_sub_cancel' hn, Char.ofNat_toNat] at hc
  · unfold Char.toUpper
    rw [dif_neg h]

theorem isSeparator_toUpper {c : Char} (h : isSeparator c = false) :
    isSeparator c.toUpper = false := by
  have hall : ∀ d ∈ [' ', '\t', '\r', '\n', '(', ')', '<', '>', ',', ';', '\\', '"', '/', '[', ']',
      '?', '=', '\x7b', '\x7d'], ¬(65 ≤ d.toNat ∧ d.toNat ≤ 90) := by decide
  rcases ViaHeader.toUpper_cases c with heq | hrange
  · rwa [heq]
  · by_contra hsep
    rw [Bool.not_eq_false] at hsep
    exact hall _ (List.contains_iff_mem.mp hsep) hrange

/-- The transport that the constructor writes. -/
def Transport.upper (proto : Transport) : Transport where
  name := proto.name.map Char.toUpper
  ne_nil := by simpa using proto.ne_nil
  chars := by
    intro c hc
    obtain ⟨d, hd, rfl⟩ := List.mem_map.mp hc
    obtain ⟨hchar, hsep⟩ := proto.chars d hd
    exact ⟨ViaHeader.isChar_toUpper hchar, isSeparator_toUpper hsep⟩

theorem Transport.isChars (proto : Transport) : ∀ c ∈ proto.name, isChar c = true :=
  fun c hc => (proto.chars c hc).1

theorem Transport.equalsIgnoreCase_upper (proto : Transport) :
    equalsIgnoreCase proto.upper.name proto.name = true := by
  unfold equalsIgnoreCase Transport.upper
  rw [beq_iff_eq, List.map_map]
  exact List.map_congr_left fun c _ => toLower_toUpper c

theorem Host.toText_ne_nil (host : Host) : host.toText ≠ [] := by
  cases host with
  | name _ hne _ => exact hne
  | ipv6 _ _ _ => exact List.cons_ne_nil _ _

/-! ## The text in front of the parameters -/

/-- A transport, and what stands behind it. -/
def transportText (proto rest : Text) : Text := "SIP/2.0/".toList ++ (proto ++ ' ' :: rest)

theorem transportText_eq (proto rest : Text) :
    transportText proto rest = transportText proto [] ++ rest := by
  have hassoc (a b : Text) : a ++ (b ++ ' ' :: rest) = a ++ (b ++ [' ']) ++ rest := by simp
  exact hassoc _ _

/-- In front of the sent-by stands nothing that divides parameters or values. -/
theorem chars_transportText (proto : Transport) :
    ∀ c ∈ transportText proto.name [], c ≠ ';' ∧ c ≠ ',' ∧ c ≠ '"' := by
  have hfix : ∀ c ∈ "SIP/2.0/".toList, c ≠ ';' ∧ c ≠ ',' ∧ c ≠ '"' := by decide
  intro c hc
  rcases List.mem_append.mp hc with hc | hc
  · exact hfix c hc
  rcases List.mem_append.mp hc with hc | hc
  · have hsep := (proto.chars c hc).2
    refine ⟨?_, ?_, ?_⟩ <;> rintro rfl <;> exact absurd hsep (by decide)
  · rw [List.mem_singleton.mp hc]
    decide

namespace ViaHeader

section Transport

variable (proto : Transport) (rest : Text)

theorem getProtocol_transportText : getProtocol (transportText proto.name rest) = proto.name := by
  show (getString (skipWSP (proto.name ++ ' ' :: rest))).1 = _
  rw [skipWSP_chars proto.isChars proto.ne_nil, getString_blank proto.isChars proto.ne_nil]

theorem behindProtocol_transportText :
    behindProtocol (transportText proto.name rest) = ' ' :: rest := by
  show (getString (skipWSP (proto.name ++ ' ' :: rest))).2 = _
  rw [skipWSP_chars proto.isChars proto.ne_nil, getString_blank proto.isChars proto.ne_nil]

/-- One more blank. -/
theorem setProtocol_transportText (name : Text) :
    setProtocol name (transportText proto.name rest) =
      transportText (name.map Char.toUpper) (' ' :: rest) := by
  unfold setProtocol
  show "SIP/2.0/".toList ++ _ ++ ' ' :: (getString (proto.name ++ ' ' :: rest)).2 = _
  rw [getString_blank proto.isChars proto.ne_nil, List.append_assoc]
  rfl

theorem behindSlashes_transportText :
    behindSlashes (transportText proto.name rest) = skipWSP rest :=
  behindSlashes_chars proto.isChars rest

end Transport

theorem getSentBy_eq {v s : Text} (h : behindSlashes v = s) (hne : s ≠ []) :
    getSentBy v = some (s.takeWhile (!isSeparator ·)) := by
  unfold behindSlashes at h
  unfold getSentBy
  rw [h]
  cases s with
  | nil => exact absurd rfl hne
  | cons c s => rfl

/-- What `removeParameter` leaves begins with a semicolon again. -/
theorem cutParameter_shape (pname : Text) (n : ℕ) (top : Text) {s : Text}
    (hs : s = [] ∨ ∃ w, s = ';' :: w) :
    ∃ out, cutParameter pname n top s = top ++ out ∧ (out = [] ∨ ∃ w, out = ';' :: w) := by
  induction n generalizing top s with
  | zero => exact ⟨s, rfl, hs⟩
  | succ n ih =>
    obtain rfl | ⟨w, rfl⟩ := hs
    · exact ⟨[], by rw [cutParameter_nil, List.append_nil], .inl rfl⟩
    rw [cutParameter, if_neg (List.cons_ne_nil _ _)]
    dsimp only
    split
    · exact ⟨_, rfl, (span_eq ';' false _).2.2.imp_right (·.2)⟩
    · have hrest : goTo ';' (getWord w).2 = [] ∨ ∃ t, goTo ';' (getWord w).2 = ';' :: t := by
        cases hgo : goTo ';' (getWord w).2 with
        | nil => exact .inl rfl
        | cons c t =>
          have hc := head_dropWhile (p := (· != ';')) c (by rw [← goTo, hgo]; rfl)
          obtain rfl : c = ';' := by simpa using hc
          exact .inr ⟨t, rfl⟩
      obtain ⟨out, hcut, -⟩ := ih (top ++ (';' :: w).take
        ((';' :: w).length - (goTo ';' (getWord w).2).length)) hrest
      -- what was passed has the semicolon at least
      have hlength : (goTo ';' (getWord w).2).length ≤ w.length :=
        (List.dropWhile_suffix _).length_le.trans (length_getWord_le w)
      obtain ⟨k, hk⟩ : ∃ k, (';' :: w).length - (goTo ';' (getWord w).2).length = k + 1 :=
        ⟨w.length - (goTo ';' (getWord w).2).length, by rw [List.length_cons]; omega⟩
      rw [hk, List.take_succ_cons] at hcut
      refine ⟨';' :: (w.take k ++ out), ?_, .inr ⟨_, rfl⟩⟩
      rw [List.tail_cons, hk, List.take_succ_cons, hcut, List.append_assoc]
      rfl

/-! ## The value, at any time -/

/-- What can stand between the transport and the parameters. -/
structure IsSentBy (sentBy : Text) : Prop where
  ne_nil : sentBy ≠ []
  plain : ∀ c ∈ sentBy, c ≠ ' ' ∧ c ≠ ';' ∧ c ≠ '"'

/-- A transport, blanks, the sent-by and any parameters. -/
def Shape (proto : Transport) (sentBy u v : Text) : Prop :=
  (∃ blanks, v = transportText proto.name (List.replicate blanks ' ' ++ (sentBy ++ u))) ∧
    (u = [] ∨ ∃ w, u = ';' :: w)

namespace Shape

variable {proto : Transport} {sentBy u v : Text}

theorem getProtocol (h : Shape proto sentBy u v) : ViaHeader.getProtocol v = proto.name := by
  obtain ⟨⟨blanks, rfl⟩, -⟩ := h
  exact getProtocol_transportText proto _

theorem setProtocol (h : Shape proto sentBy u v) (name : Transport) :
    Shape name.upper sentBy u (ViaHeader.setProtocol name.name v) := by
  obtain ⟨⟨blanks, rfl⟩, hu⟩ := h
  exact ⟨⟨blanks + 1, setProtocol_transportText proto _ _⟩, hu⟩

variable (hsent : IsSentBy sentBy)

include hsent

theorem behindSlashes (h : Shape proto sentBy u v) : ViaHeader.behindSlashes v = sentBy ++ u := by
  obtain ⟨⟨blanks, rfl⟩, -⟩ := h
  rw [behindSlashes_transportText]
  refine (takeWhile_run ?_ ?_).2
  · intro c hc
    rw [(List.mem_replicate.mp hc).2]
    rfl
  · intro c hc
    obtain ⟨d, s, rfl⟩ := List.exists_cons_of_ne_nil hsent.ne_nil
    obtain rfl : d = c := Option.some.inj hc
    simpa using (hsent.plain d (List.mem_cons_self ..)).1

/-- The sent-by is read up to its first separator. -/
theorem getSentBy (h : Shape proto sentBy u v) :
    ViaHeader.getSentBy v = some (sentBy.takeWhile (!isSeparator ·)) := by
  rw [getSentBy_eq (h.behindSlashes hsent) (by simp [hsent.ne_nil])]
  obtain ⟨-, rfl | ⟨w, rfl⟩⟩ := h
  · rw [List.append_nil]
  · rw [List.takeWhile_append, List.takeWhile_cons_of_neg (by decide), List.append_nil]
    split
    · rename_i hall
      rw [(List.takeWhile_prefix _).eq_of_length hall]
    · rfl

/-- The parameters stand behind the sent-by. -/
theorem firstSemi (h : Shape proto sentBy u v) :
    ∃ head, v = head ++ u ∧ ParametricHeader.firstSemi v = (head, u) ∧
      ∀ u', (u' = [] ∨ ∃ w, u' = ';' :: w) → Shape proto sentBy u' (head ++ u') := by
  obtain ⟨⟨blanks, rfl⟩, hu⟩ := h
  have hshape (u : Text) : transportText proto.name (List.replicate blanks ' ' ++ (sentBy ++ u)) =
      transportText proto.name (List.replicate blanks ' ' ++ sentBy) ++ u := by
    rw [transportText_eq, transportText_eq _ (List.replicate blanks ' ' ++ sentBy),
      List.append_assoc, List.append_assoc]
  have hplain : ∀ c ∈ transportText proto.name (List.replicate blanks ' ' ++ sentBy),
      c ≠ ';' ∧ c ≠ '"' := by
    rw [transportText_eq]
    intro c hc
    rcases List.mem_append.mp hc with hc | hc
    · have hne := chars_transportText proto c hc
      exact ⟨hne.1, hne.2.2⟩
    rcases List.mem_append.mp hc with hc | hc
    · rw [(List.mem_replicate.mp hc).2]
      decide
    · exact (hsent.plain c hc).2
  have hskips : Skips ';' false
      (transportText proto.name (List.replicate blanks ' ' ++ sentBy)) :=
    skips_of_not_mem (fun hc => (hplain ';' hc).1 rfl) false
  have hends : endsInside false
      (transportText proto.name (List.replicate blanks ' ' ++ sentBy)) = false :=
    endsInside_of_not_mem (fun hc => (hplain '"' hc).2 rfl) false
  refine ⟨transportText proto.name (List.replicate blanks ' ' ++ sentBy), hshape u, ?_, ?_⟩
  · rw [hshape]
    exact span_append hskips (hu.imp_right fun hw => ⟨hends, hw⟩)
  · intro u' hu'
    exact ⟨⟨blanks, (hshape u').symm⟩, hu'⟩

/-- **An edit leaves what stands in front of the parameters.** -/
theorem setParameter (h : Shape proto sentBy u v) (pname : Text) (pvalue : Option Text) :
    ∃ u', Shape proto sentBy u'
      (ParametricHeader.setParameter ParametricHeader.firstSemi pname pvalue v) := by
  obtain ⟨head, rfl, hspan, hshape⟩ := h.firstSemi hsent
  obtain ⟨out, hout, hstart⟩ : ∃ out, (if hasParameter ParametricHeader.firstSemi pname (head ++ u) =
      true then removeParameter ParametricHeader.firstSemi pname (head ++ u) else head ++ u) =
        head ++ out ∧ (out = [] ∨ ∃ w, out = ';' :: w) := by
    split
    · unfold removeParameter
      rw [hspan]
      exact cutParameter_shape pname _ head h.2
    · exact ⟨u, rfl, h.2⟩
  refine ⟨out ++ ';' :: (pname ++ addedText pvalue), ?_⟩
  rw [setParameter_eq, hout, List.append_assoc]
  refine hshape _ (.inr ?_)
  obtain rfl | ⟨w, rfl⟩ := hstart
  · exact ⟨_, rfl⟩
  · exact ⟨_, rfl⟩

/-- After any edits. -/
theorem edited (h : Shape proto sentBy u v) (edits : List Edit) :
    ∃ u', Shape proto sentBy u' (ViaHeader.edited edits v) := by
  induction edits generalizing u v with
  | nil => exact ⟨u, h⟩
  | cons e edits ih =>
    obtain ⟨u', hu'⟩ : ∃ u', Shape proto sentBy u' (e.apply v) := by
      cases e with
      | setBranch branch => exact h.setParameter hsent branchParam branch
      | setReceived addr => exact h.setParameter hsent receivedParam (some addr)
      | setRport port => exact h.setParameter hsent rportParam _
      | requestRport => exact h.setParameter hsent rportParam none
    exact ih hu'

end Shape

/-- The transport is another one, and everything else is the same. -/
structure ProtocolSet (proto v v' : Text) : Prop where
  protocol : getProtocol v' = proto.map Char.toUpper
  host : getHost v' = getHost v
  port : getPort v' = getPort v
  hasPort : hasPort v' = hasPort v
  parameters : (firstSemi v').2 = (firstSemi v).2

theorem getSentBy_congr {v w : Text} (h : behindSlashes v = behindSlashes w) :
    ViaHeader.getSentBy v = ViaHeader.getSentBy w := by
  unfold behindSlashes at h
  unfold ViaHeader.getSentBy
  rw [h]

/-- The parameters are not in front of what stands behind the transport. -/
theorem firstSemi_transportText (proto : Transport) (rest : Text) :
    (ParametricHeader.firstSemi (transportText proto.name rest)).2 =
      (ParametricHeader.firstSemi rest).2 := by
  have hchars := chars_transportText proto
  unfold ParametricHeader.firstSemi
  rw [transportText_eq, span_append_of_skips (skips_of_not_mem (fun hc => (hchars _ hc).1 rfl) _),
    endsInside_of_not_mem fun hc => (hchars _ hc).2.2 rfl]

/-- The commas of the value stand behind the transport. -/
theorem skips_transportText (proto : Transport) (rest : Text) :
    Skips ',' false (transportText proto.name rest) ↔ Skips ',' false rest := by
  have hchars := chars_transportText proto
  rw [transportText_eq, skips_append, endsInside_of_not_mem fun hc => (hchars _ hc).2.2 rfl]
  exact and_iff_right (skips_of_not_mem (fun hc => (hchars _ hc).2.1 rfl) _)

/-- Blanks in front of the sent-by do not matter, and neither does the transport. -/
theorem getSentBy_transportText (proto proto' : Transport) (blanks : ℕ) (rest : Text) :
    ViaHeader.getSentBy (transportText proto'.name (List.replicate blanks ' ' ++ rest)) =
      ViaHeader.getSentBy (transportText proto.name rest) := by
  refine getSentBy_congr ?_
  rw [behindSlashes_transportText, behindSlashes_transportText]
  refine List.dropWhile_append_of_pos fun c hc => ?_
  rw [(List.mem_replicate.mp hc).2]
  rfl

theorem parameters_transportText (proto proto' : Transport) (blanks : ℕ) (rest : Text) :
    (ParametricHeader.firstSemi (transportText proto'.name (List.replicate blanks ' ' ++ rest))).2 =
      (ParametricHeader.firstSemi (transportText proto.name rest)).2 := by
  have hblank {d : Char} (hd : d ≠ ' ') : d ∉ List.replicate blanks ' ' := fun hc =>
    hd (List.mem_replicate.mp hc).2
  rw [firstSemi_transportText, firstSemi_transportText]
  unfold ParametricHeader.firstSemi
  rw [span_append_of_skips (skips_of_not_mem (hblank (by decide)) _),
    endsInside_of_not_mem (hblank (by decide))]

/-- **Only the transport is another one.** -/
theorem protocolSet_transportText (proto name : Transport) (rest : Text) :
    ProtocolSet name.name (transportText proto.name rest)
      (ViaHeader.setProtocol name.name (transportText proto.name rest)) := by
  have hsame := getSentBy_transportText proto name.upper 1 rest
  rw [setProtocol_transportText proto rest name.name]
  refine ⟨getProtocol_transportText name.upper _, ?_, ?_, ?_, ?_⟩
  · exact congrArg (Option.map _) hsame
  · exact congrArg (fun s => Option.bind s _) hsame
  · exact congrArg (Option.map _) hsame
  · exact parameters_transportText proto name.upper 1 rest

end ViaHeader

namespace ViaParts

open ViaHeader

variable (x : ViaParts)

theorem portText_chars : ∀ c ∈ SipUriParts.portText x.port, isSeparator c = false := by
  intro c hc
  unfold SipUriParts.portText at hc
  split at hc
  · exact absurd hc List.not_mem_nil
  · rcases List.mem_cons.mp hc with rfl | hc
    · rfl
    · exact not_separator_valueOf hc

/-- The brackets are the only separators. -/
theorem chars_sentBy : ∀ c ∈ x.sentBy, c = '[' ∨ c = ']' ∨ isSeparator c = false := by
  intro c hc
  rcases List.mem_append.mp hc with hc | hc
  · cases hhost : x.host with
    | name host _ hchars =>
      rw [hhost] at hc
      exact .inr (.inr (SipUriParts.isHostChar_ne (hchars c hc)).2.1)
    | ipv6 addr _ hchars =>
      rw [hhost] at hc
      rcases List.mem_cons.mp hc with rfl | hc
      · exact .inl rfl
      rcases List.mem_append.mp hc with hc | hc
      · rcases hchars c hc with rfl | hc
        · exact .inr (.inr rfl)
        · exact .inr (.inr (SipUriParts.isHostChar_ne hc).2.1)
      · exact .inr (.inl (List.mem_singleton.mp hc))
  · exact .inr (.inr (x.portText_chars c hc))

theorem plain_sentBy : ∀ c ∈ x.sentBy, c ≠ ' ' ∧ c ≠ ';' ∧ c ≠ ',' ∧ c ≠ '"' := by
  intro c hc
  rcases x.chars_sentBy c hc with rfl | rfl | hsep
  · decide
  · decide
  · refine ⟨?_, ?_, ?_, ?_⟩ <;> rintro rfl <;> exact absurd hsep (by decide)

theorem isSentBy : IsSentBy x.sentBy := by
  refine ⟨fun hnil => ?_, fun c hc => ?_⟩
  · exact x.host.toText_ne_nil (List.append_eq_nil_iff.mp hnil).1
  · obtain ⟨hspace, hsemi, -, hquote⟩ := x.plain_sentBy c hc
    exact ⟨hspace, hsemi, hquote⟩

/-- What is constructed. -/
theorem shape_toText : ∃ proto, equalsIgnoreCase proto.name x.proto.name = true ∧
    Shape proto x.sentBy [] x.toText := by
  cases hport : x.port with
  | none =>
    refine ⟨x.proto, beq_self_eq_true _, ⟨0, ?_⟩, .inl rfl⟩
    rw [toText, hport, sentBy, hport]
    show _ ++ _ = transportText x.proto.name (x.host.toText ++ [] ++ [])
    rw [List.append_nil, List.append_nil, List.append_assoc]
    rfl
  | some port =>
    refine ⟨x.proto.upper, x.proto.equalsIgnoreCase_upper, ⟨0, ?_⟩, .inl rfl⟩
    rw [toText, hport, sentBy, hport]
    show ofHost _ _ _ =
      transportText x.proto.upper.name (x.host.toText ++ ':' :: valueOf port ++ [])
    rw [List.append_nil, ofHost_eq]
    rfl

/-- A name has neither separators nor colons. -/
theorem chars_of_isName (hname : x.host.IsName) :
    ∀ c ∈ x.host.toText, isSeparator c = false ∧ c ≠ ':' := by
  unfold Host.IsName at hname
  cases hhost : x.host with
  | name host hne hchars =>
    intro c hc
    have hc := SipUriParts.isHostChar_ne (hchars c hc)
    exact ⟨hc.2.1, hc.2.2.1⟩
  | ipv6 addr _ _ =>
    rw [hhost] at hname
    exact absurd (List.mem_cons_self ..) hname

/-- The host is not an address in brackets: the accessors return the parts. -/
theorem returns_of_shape (hname : x.host.IsName) {proto : Transport} {u v : Text}
    (hproto : equalsIgnoreCase proto.name x.proto.name = true) (h : Shape proto x.sentBy u v) :
    x.Returns v := by
  have hne := x.host.toText_ne_nil
  have hchars := x.chars_of_isName hname
  have hsent : getSentBy v = some x.sentBy := by
    rw [h.getSentBy x.isSentBy, List.takeWhile_eq_self_iff.mpr]
    intro c hc
    rw [Bool.not_eq_true']
    rcases List.mem_append.mp hc with hc | hc
    · exact (hchars c hc).1
    · exact x.portText_chars c hc
  have hhead : ∀ c ∈ (SipUriParts.portText x.port).head?, c = ':' := by
    intro c hc
    unfold SipUriParts.portText at hc
    split at hc
    · exact absurd hc (by simp)
    · exact (Option.some.inj hc).symm
  obtain ⟨htake, hdrop⟩ := takeWhile_run (p := (· != ':')) (a := x.host.toText)
    (b := SipUriParts.portText x.port) (fun c hc => by simpa using (hchars c hc).2)
    (fun c hc => by simpa using hhead c hc)
  refine ⟨?_, ?_, ?_, ?_⟩
  · rwa [h.getProtocol]
  · rw [getHost, hsent]
    exact congrArg some htake
  · rw [getPort, hsent, Option.bind_some]
    have hgo : goTo ':' x.sentBy = SipUriParts.portText x.port := hdrop
    rw [hgo]
    cases hport : x.port with
    | none => rfl
    | some port =>
      have htoken := getString_append (s := []) (fun c => isChar_valueOf (n := port) (c := c))
        (by simp) (valueOf_ne_nil port)
      rw [List.append_nil] at htoken
      show parseInt (getString (valueOf port)).1 = _
      rw [htoken]
      exact parseInt_valueOf (x.portRange port hport)
  · rw [ViaHeader.hasPort, hsent, Option.map_some]
    obtain ⟨c, host, hhost⟩ := List.exists_cons_of_ne_nil hne
    have hcolon : ':' ∉ x.host.toText := fun hc => (hchars _ hc).2 rfl
    have hc : c ≠ ':' := (hchars c (by rw [hhost]; exact List.mem_cons_self ..)).2
    have hfirst : x.sentBy.head? = some c := by
      rw [sentBy, hhost]
      rfl
    have hmem : ':' ∈ x.sentBy ↔ x.port.isSome = true := by
      rw [sentBy, List.mem_append]
      cases x.port <;> simp [SipUriParts.portText, hcolon]
    rw [hfirst, List.contains_eq_mem]
    cases hport : x.port.isSome <;> simp [hmem, hport, hc]

/-- An address in brackets is not read. -/
theorem not_returns_of_shape (hname : ¬x.host.IsName) {proto : Transport} {u v : Text}
    (h : Shape proto x.sentBy u v) : ¬x.Returns v := by
  intro hreturns
  have hsent := h.getSentBy x.isSentBy
  have hhost := hreturns.host
  rw [getHost, hsent, sentBy] at hhost
  unfold Host.IsName at hname
  cases hx : x.host with
  | name host _ hchars =>
    rw [hx] at hname
    refine hname fun hc => ?_
    exact absurd (SipUriParts.isHostChar_ne (hchars _ hc)).2.1 (by decide)
  | ipv6 addr _ _ =>
    rw [hx] at hhost
    exact absurd (Option.some.inj hhost) (by simp [Host.toText, isSeparator])

/-- **The accessors return the parts after any edits if and only if** the host is not an IPv6 address
in brackets; and `setProtocol` changes only the transport. -/
theorem returns_iff_isName :
    ((∀ edits, x.Returns (edited edits x.toText)) ↔ x.host.IsName) ∧
      ∀ edits (proto : Transport), ProtocolSet proto.name (edited edits x.toText)
        (setProtocol proto.name (edited edits x.toText)) := by
  obtain ⟨proto, hproto, hshape⟩ := x.shape_toText
  have hedited (edits : List Edit) := hshape.edited x.isSentBy edits
  refine ⟨⟨fun h => ?_, fun hname edits => ?_⟩, fun edits name => ?_⟩
  · by_contra hname
    exact x.not_returns_of_shape hname hshape (h [])
  · obtain ⟨u, hu⟩ := hedited edits
    exact x.returns_of_shape hname hproto hu
  · obtain ⟨u, ⟨blanks, htext⟩, -⟩ := hedited edits
    rw [htext]
    exact protocolSet_transportText _ name _

/-- An IPv6 address in brackets, and a port. -/
def loopback : ViaParts where
  proto := ⟨"UDP".toList, by decide, by decide⟩
  host := SipURI.sampleAddr
  port := some 5060
  portRange := by decide

/-- **The host that is read is empty**, and the port is lost. -/
theorem loopback_not_returned :
    loopback.toText = "SIP/2.0/UDP [::1]:5060".toList ∧ getHost loopback.toText = some [] ∧
      getPort loopback.toText = some (-1) ∧
      ¬∀ edits, loopback.Returns (edited edits loopback.toText) := by
  have hhost : getHost loopback.toText = some [] := by decide
  refine ⟨by decide, hhost, by decide, fun h => ?_⟩
  have hread := (h []).host
  rw [edited, List.foldl_nil, hhost] at hread
  exact absurd (Option.some.inj hread) (by decide)

end ViaParts
end SoftPhone
