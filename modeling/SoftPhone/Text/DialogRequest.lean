import SoftPhone.Text.Created
import SoftPhone.Text.Routes

/-!
# Requests within a dialog

`BasicSipMessageFactory.createRequest(dialog,method,...)` makes the request for the remote target,
puts in the route set as one header, and calls `rfc2543RouteAdapt`: when the URI of the first route
has no lr parameter, that URI becomes the Request-URI, and the remote target goes behind the other
routes.

The routes are found again unless the display name of one, and not of the last one, leaves a quoted
part open.  The remote target is added as a header, and so it is divided at a comma of its own,
although it stands in brackets.  These are the only reasons for which the request is not the one that
it has to be (`inDialog_iff`).
-/

namespace SoftPhone

open SipParser

namespace SipMethods

/-- `isAck`. -/
def isAck (name : Text) : Bool := equalsIgnoreCase name "ACK".toList

/-- `isCancel`. -/
def isCancel (name : Text) : Bool := equalsIgnoreCase name "CANCEL".toList

end SipMethods

/-- `hasLr`. -/
def GenericURI.hasLr (uri : Text) : Bool := GenericURI.hasParameter "lr".toList uri

namespace MultipleHeader

/-- `MultipleHeader(hname,hvalues)`. -/
def ofValues (hname : Text) (hvalues : List Text) : MultipleHeader := ⟨hname, hvalues, true⟩

/-- `addBottom(hd)`. -/
def addBottom (h : Header) (mh : MultipleHeader) : MultipleHeader :=
  { mh with values := mh.values ++ h.values }

end MultipleHeader

namespace BasicSipMessage

/-- `addRoutes`. -/
def addRoutes (mh : MultipleHeader) (m : BasicSipMessage) : BasicSipMessage :=
  m.addHeadersAfter mh SipHeaders.via

/-- `setRequestLine(new RequestLine(method,uri))`. -/
def setRequestLine (method uri : Text) (m : BasicSipMessage) : BasicSipMessage :=
  { m with startLine := some (.request method (some uri)) }

/-- `new RouteHeader(new NameAddress(recipient))`; the URI may be null. -/
def recipientHeader (recipient : Option Text) : Header :=
  ⟨SipHeaders.route, NameAddressText.toText { uri := recipient.getD "null".toList }⟩

/-- `rfc2543RouteAdapt`. -/
def rfc2543RouteAdapt (m : BasicSipMessage) : Option BasicSipMessage :=
  match m.getRoutes with
  | none => some m
  | some mrh => do
    let rh ← mrh.getTop
    let nextHop ← SipParser.getNameAddress rh.value
    if GenericURI.hasLr nextHop.uri then some m
    else
      let recipient ← m.getRequestUri
      let method ← m.getMethod
      let mrh := mrh.removeTop.addBottom (recipientHeader recipient)
      some ((m.setRoutes mrh).setRequestLine method nextHop.uri)

end BasicSipMessage

/-- Class `DialogInfo`, with what requests are made from. -/
structure DialogInfoText where
  localName : NameAddressText
  remoteName : NameAddressText
  localContact : Option NameAddressText := none
  /-- The URI of the remote contact: both may be null. -/
  remoteContact : Option (Option Text) := none
  callId : Text
  localTag : Option Text := none
  remoteTag : Option Text := none
  localCSeq : Int64 := -1
  /-- The route set; a null one has no routes. -/
  route : List NameAddressText := []
  deriving DecidableEq

namespace DialogInfoText

/-- `incLocalCSeq`. -/
def incLocalCSeq (d : DialogInfoText) : DialogInfoText := { d with localCSeq := d.localCSeq + 1 }

/-- The Request-URI: the one of the remote contact, or else of the remote name. -/
def requestUri (d : DialogInfoText) : Text :=
  match d.remoteContact with
  | none => d.remoteName.uri
  | some none => d.remoteName.uri
  | some (some uri) => uri

/-- The sequence number is incremented, if the method is not ACK nor CANCEL. -/
def countRequest (method : Text) (d : DialogInfoText) : DialogInfoText :=
  if !SipMethods.isAck method && !SipMethods.isCancel method then d.incLocalCSeq else d

/-- `createRequest(dialog,method,content_type,body)`: the dialog afterwards, and the request, or
none if there is an exception. -/
def createRequest (config : FactoryConfig) (branch : Token) (d : DialogInfoText) (method : Text)
    (contentType : Option Text) (body : Option (List UInt8)) :
    DialogInfoText × Option BasicSipMessage :=
  let d := d.countRequest method
  let req := BasicSipMessage.createRequest config branch method (some d.requestUri) d.remoteName
    d.localName d.callId d.localCSeq.toInt d.localTag d.remoteTag d.localContact contentType body
  let req := if 0 < d.route.length then
      req.addRoutes (.ofValues SipHeaders.route (d.route.map NameAddressText.toText))
    else req
  (d, req.rfc2543RouteAdapt)

end DialogInfoText

/-! ## What the request has to be -/

namespace NameAddressText

/-- What a parser can read: the URI has a scheme and no separator, and the display name has no
bracket in front of a scheme. -/
structure IsNameAddress (naddr : NameAddressText) : Prop extends naddr.WasRead where
  uri : ∀ c ∈ naddr.uri, isUriSeparator c = false

end NameAddressText

namespace BasicSipMessage

/-- There is one header of the name, with the name-address and the tag, and they are read from it if
they can be written. -/
structure Carries (hname : Text) (naddr : NameAddressText) (tag : Option Text)
    (req : BasicSipMessage) : Prop where
  header : req.getHeaders hname = [⟨hname, EndPointHeader.ofNameAddress naddr tag⟩]
  read : naddr.WasRead → EndPointHeader.Rewritable naddr tag →
    req.getNameAddress hname = some naddr ∧ req.getTag hname = some tag

/-- The Request-URI and the Route values, for a remote target and a route set. -/
def Routed (target : Text) : List NameAddressText → BasicSipMessage → Prop
  | [], req => req.getRequestUri = some (some target) ∧ req.getRoutes = none
  | r :: rs, req =>
    if GenericURI.hasLr r.uri then
      req.getRequestUri = some (some target) ∧
        req.getRoutes.map MultipleHeader.values = some ((r :: rs).map NameAddressText.toText)
    else
      req.getRequestUri = some (some r.uri) ∧
        req.getRoutes.map MultipleHeader.values =
          some (rs.map NameAddressText.toText ++ [NameAddressText.toText { uri := target }])

end BasicSipMessage

namespace DialogInfoText

/-- The remote target. -/
def target (d : DialogInfoText) : Text := d.remoteContact.join.getD d.remoteName.uri

/-- The request `req` of the dialog `d`, and the dialog `d'` afterwards. -/
structure InDialog (d d' : DialogInfoText) (method : Text) (req : BasicSipMessage) : Prop where
  counted : d' = if SipMethods.isAck method ∨ SipMethods.isCancel method then d
    else { d with localCSeq := d.localCSeq + 1 }
  requestMethod : req.getMethod = some method
  callId : req.getHeaders SipHeaders.callId = [⟨SipHeaders.callId, d.callId⟩]
  callIdRead : (∀ c ∈ d.callId, isChar c = true) → req.getCallId = some d.callId
  fromHeader : req.Carries SipHeaders.from d.localName d.localTag
  toHeader : req.Carries SipHeaders.to d.remoteName d.remoteTag
  cseq : req.getHeaders SipHeaders.cseq =
    [⟨SipHeaders.cseq, valueOf d'.localCSeq.toInt ++ ' ' :: method⟩]
  cseqRead : (-2147483648 ≤ d'.localCSeq.toInt ∧ d'.localCSeq.toInt ≤ 2147483647) →
    (∀ c ∈ method, isChar c = true) →
    req.getCSeq = some d'.localCSeq.toInt ∧ req.getCSeqMethod = some method
  routed : req.Routed d.target d.route

/-- No route but the last one leaves a quoted part open, and if the first one is a strict router, the
remote target has no comma that is not in quotes. -/
def RoutesKept (d : DialogInfoText) : Prop :=
  (∀ r ∈ d.route.dropLast, endsInside false r.toText = false) ∧
    ∀ r ∈ d.route.head?, GenericURI.hasLr r.uri = false → Skips ',' false d.target

end DialogInfoText

/-! ## The routes -/

namespace BasicSipMessage

section Adapt

variable {m : BasicSipMessage} {mh : MultipleHeader}

theorem getHeaders_addRoutes_of_ne {hname : Text}
    (hne : equalsIgnoreCase hname SipHeaders.route = false) (vs : List Text) :
    (m.addRoutes (.ofValues SipHeaders.route vs)).getHeaders hname = m.getHeaders hname :=
  getHeaders_insertHeaders_of_not (fun h hh => by rw [List.mem_singleton.mp hh]; exact hne) _ m

/-- The route set is put in as one header, and read again. -/
theorem getRoutes_addRoutes (hm : m.getHeaders SipHeaders.route = []) (vs : List Text) :
    (m.addRoutes (.ofValues SipHeaders.route vs)).getRoutes =
      some ⟨SipHeaders.route, Header.values ⟨SipHeaders.route, MultipleHeader.joined vs⟩, false⟩ := by
  have hone : (m.addRoutes (.ofValues SipHeaders.route vs)).getHeaders SipHeaders.route =
      [⟨SipHeaders.route, MultipleHeader.joined vs⟩] :=
    getHeaders_insertHeaders_of_nil
      (fun h hh => by rw [List.mem_singleton.mp hh]; exact equalsIgnoreCase_self _) hm _
  rw [getRoutes, getMultiple, hone]
  show some (MultipleHeader.mk _ (_ ++ []) false) = _
  rw [List.append_nil]

/-- **What `rfc2543RouteAdapt` does** to a request with the routes `mh`. -/
theorem rfc2543RouteAdapt_spec {req : BasicSipMessage} {method uri : Text}
    (hroutes : m.getRoutes = some mh) (hline : m.startLine = some (.request method (some uri)))
    (h : m.rfc2543RouteAdapt = some req) :
    ∃ rh nextHop, mh.getTop = some rh ∧ SipParser.getNameAddress rh.value = some nextHop ∧
      req.getMethod = some method ∧
      (∀ hname, equalsIgnoreCase hname SipHeaders.route = false →
        req.getHeaders hname = m.getHeaders hname) ∧
      (req.getRequestUri, req.getRoutes.map MultipleHeader.values) =
        if GenericURI.hasLr nextHop.uri then (some (some uri), some mh.values)
        else (some (some nextHop.uri),
          some (mh.values.tail ++ (recipientHeader (some uri)).values)) := by
  obtain ⟨huri, hmethod⟩ := getRequestUri_of_startLine hline
  have hmh : mh.Plain SipHeaders.route := plain_of_getMultiple hroutes
  rw [rfc2543RouteAdapt, hroutes] at h
  simp only [Option.bind_eq_bind, Option.bind_eq_some_iff] at h
  obtain ⟨rh, hrh, nextHop, hnextHop, h⟩ := h
  refine ⟨rh, nextHop, hrh, hnextHop, ?_⟩
  by_cases hlr : GenericURI.hasLr nextHop.uri = true
  · rw [if_pos hlr] at h
    rw [if_pos hlr, ← Option.some.inj h, huri, hroutes]
    exact ⟨hmethod, fun hname _ => rfl, rfl⟩
  · rw [if_neg hlr, huri, hmethod] at h
    have hreq := (Option.some.inj h).symm
    have hplain : (mh.removeTop.addBottom (recipientHeader (some uri))).Plain SipHeaders.route := by
      refine ⟨hmh.named, hmh.compact, ?_, fun v hv => ?_⟩
      · exact List.append_ne_nil_of_right_ne_nil _ (Header.values_ne_nil _)
      · rcases List.mem_append.mp hv with hv | hv
        · exact hmh.skips v (List.mem_of_mem_tail hv)
        · exact Header.skips_of_mem_values hv
    have hset : (m.setRoutes (mh.removeTop.addBottom (recipientHeader (some uri)))).getRoutes =
        some (mh.removeTop.addBottom (recipientHeader (some uri))) :=
      getMultiple_of_getHeaders hplain
        (getHeaders_addHeadersAfter hplain (getHeaders_removeAllHeaders_self _ m))
    have hread : req.getRoutes = some (mh.removeTop.addBottom (recipientHeader (some uri))) := by
      rw [hreq]
      exact hset
    rw [if_neg hlr, hread]
    refine ⟨?_, fun hname hne => ?_, ?_⟩
    · rw [hreq]
      rfl
    · rw [hreq]
      exact (getHeaders_addHeadersAfter_of_ne hplain hne).trans
        (getHeaders_removeAllHeaders_of_ne hne m)
    · rw [hreq]
      rfl

/-- It does not fail when the first route can be read. -/
theorem rfc2543RouteAdapt_isSome {rh : Header} {nextHop : NameAddressText} {method uri : Text}
    (hroutes : m.getRoutes = some mh) (hline : m.startLine = some (.request method (some uri)))
    (hrh : mh.getTop = some rh) (hnextHop : SipParser.getNameAddress rh.value = some nextHop) :
    ∃ req, m.rfc2543RouteAdapt = some req := by
  obtain ⟨huri, hmethod⟩ := getRequestUri_of_startLine hline
  rw [rfc2543RouteAdapt, hroutes]
  simp only [Option.bind_eq_bind, hrh, hnextHop, huri, hmethod, Option.bind_some]
  split
  · exact ⟨_, rfl⟩
  · exact ⟨_, rfl⟩

end Adapt

/-! ## The remote target -/

section Target

variable {target : Text}

theorem skips_recipient :
    Skips ',' false (recipientHeader (some target)).value ↔ Skips ',' false target := by
  show Skips ',' false ('<' :: (target ++ ['>'])) ↔ _
  rw [skips_cons, skips_append]
  constructor
  · rintro ⟨-, h, -⟩
    exact h
  · intro h
    exact ⟨by decide, h, skips_of_not_mem (by decide) _⟩

/-- The remote target is divided at its comma, and the first part is not closed. -/
theorem values_recipient (hclose : '>' ∉ target) (h : ¬Skips ',' false target) :
    ∃ v ∈ (recipientHeader (some target)).values, '>' ∉ v := by
  rw [← skips_recipient] at h
  obtain ⟨happend, hskips, hrest⟩ := span_eq ',' false (recipientHeader (some target)).value
  obtain ⟨hends, t, ht⟩ := hrest.resolve_left h
  generalize (spanSkippingQuoted ',' false (recipientHeader (some target)).value).1 = a at *
  rw [ht] at happend
  have hparts : commaParts false (recipientHeader (some target)).value =
      a :: commaParts false t := by
    rw [← happend]
    exact commaParts_append hskips hends t
  have hvalues : trim a ∈ (recipientHeader (some target)).values := by
    rw [Header.values]
    split
    · rw [hparts]
      exact List.mem_cons_self ..
    · rename_i hnot
      exact absurd (Header.skips_of_not_separated hnot) h
  refine ⟨trim a, hvalues, fun hmem => ?_⟩
  -- the bracket at the end is behind the comma
  have hinit : a ++ (',' :: t).dropLast = '<' :: target := by
    rw [← List.dropLast_append_of_ne_nil (List.cons_ne_nil _ _), happend]
    show ('<' :: target ++ ['>']).dropLast = _
    exact List.dropLast_concat
  have hmem' : '>' ∈ '<' :: target := by
    rw [← hinit]
    exact List.mem_append_left _ ((trim_part a).subset hmem)
  rcases List.mem_cons.mp hmem' with heq | hmem'
  · exact absurd heq (by decide)
  · exact hclose hmem'

theorem values_recipient_of_skips (h : Skips ',' false target) :
    (recipientHeader (some target)).values = [NameAddressText.toText { uri := target }] :=
  Header.values_of_skips (skips_recipient.mpr h)

end Target

/-! ## The Request-URI and the Route values -/

section Routed

variable {m : BasicSipMessage} {method target : Text} {r : NameAddressText}
  {rs : List NameAddressText}

/-- The Route values that the request has to have: as many as there are routes, and each one is
closed. -/
theorem values_of_routed {req : BasicSipMessage} (h : req.Routed target (r :: rs)) :
    ∃ vs, req.getRoutes.map MultipleHeader.values = some vs ∧ vs.length = rs.length + 1 ∧
      ∀ v ∈ vs, '>' ∈ v := by
  rw [Routed] at h
  split at h
  · refine ⟨_, h.2, by simp, fun v hv => ?_⟩
    obtain ⟨r, -, rfl⟩ := List.mem_map.mp hv
    exact r.bracket_mem_toText
  · refine ⟨_, h.2, by simp, fun v hv => ?_⟩
    rcases List.mem_append.mp hv with hv | hv
    · obtain ⟨r, -, rfl⟩ := List.mem_map.mp hv
      exact r.bracket_mem_toText
    · rw [List.mem_singleton.mp hv]
      exact NameAddressText.bracket_mem_toText _

/-- A remote target that was added is one value. -/
theorem skips_of_routed {req : BasicSipMessage} (htarget : '>' ∉ target)
    (h : req.Routed target (r :: rs)) {vs : List Text}
    (hvs : req.getRoutes.map MultipleHeader.values =
      some (vs ++ (recipientHeader (some target)).values)) : Skips ',' false target := by
  by_contra hnot
  obtain ⟨ws, hws, -, hbrackets⟩ := values_of_routed h
  obtain ⟨v, hv, hopen⟩ := values_recipient htarget hnot
  rw [hvs] at hws
  rw [← Option.some.inj hws] at hbrackets
  exact hopen (hbrackets v (List.mem_append_right _ hv))

/-- The texts of the routes, joined and divided. -/
def readRoutes (route : List NameAddressText) : List Text :=
  Header.values ⟨SipHeaders.route, MultipleHeader.joined (route.map NameAddressText.toText)⟩

/-- With the quotes closed, the same routes are found. -/
theorem readRoutes_eq (hcomma : ∀ r' ∈ r :: rs, ',' ∉ r'.toText)
    (hkept : ∀ r' ∈ (r :: rs).dropLast, endsInside false r'.toText = false) :
    readRoutes (r :: rs) = (r :: rs).map NameAddressText.toText := by
  refine MultipleHeader.values_joined (by simp)
    (List.forall_mem_map.mpr fun r' hr' => skips_of_not_mem (hcomma r' hr') false) ?_ ?_ _
  · rw [← List.map_dropLast]
    exact List.forall_mem_map.mpr hkept
  · exact List.forall_mem_map.mpr fun r' _ => r'.trim_toText

/-- Otherwise there are fewer. -/
theorem length_readRoutes_lt (hcomma : ∀ r' ∈ r :: rs, ',' ∉ r'.toText)
    (hnot : ¬∀ r' ∈ (r :: rs).dropLast, endsInside false r'.toText = false) :
    (readRoutes (r :: rs)).length < rs.length + 1 := by
  have hopen : ∃ v ∈ ((r :: rs).map NameAddressText.toText).dropLast,
      endsInside false v = true := by
    push Not at hnot
    obtain ⟨r', hr', hends⟩ := hnot
    rw [← List.map_dropLast]
    exact ⟨_, List.mem_map_of_mem hr', by simpa using hends⟩
  have hlt := MultipleHeader.length_joined_lt (List.forall_mem_map.mpr hcomma) hopen
    SipHeaders.route
  rwa [List.length_map, List.length_cons] at hlt

/-- As many Route values as there are routes are left only when the quotes are closed. -/
theorem kept_of_routed {req : BasicSipMessage} (hcomma : ∀ r' ∈ r :: rs, ',' ∉ r'.toText)
    (htarget : '>' ∉ target) (h : req.Routed target (r :: rs))
    (hvs : req.getRoutes.map MultipleHeader.values = some (readRoutes (r :: rs)) ∨
      req.getRoutes.map MultipleHeader.values =
        some ((readRoutes (r :: rs)).tail ++ (recipientHeader (some target)).values)) :
    ∀ r' ∈ (r :: rs).dropLast, endsInside false r'.toText = false := by
  by_contra hnot
  have hlt := length_readRoutes_lt hcomma hnot
  have hpos : 0 < (readRoutes (r :: rs)).length :=
    List.length_pos_of_ne_nil (Header.values_ne_nil _)
  obtain ⟨ws, hws, hlength, -⟩ := values_of_routed h
  rcases hvs with hvs | hvs
  · rw [hvs] at hws
    rw [← Option.some.inj hws] at hlength
    omega
  · rw [values_recipient_of_skips (skips_of_routed htarget h hvs)] at hvs
    rw [hvs] at hws
    rw [← Option.some.inj hws, List.length_append, List.length_tail, List.length_singleton]
      at hlength
    omega

/-- **The routes are kept if and only if** no one but the last leaves a quoted part open, and if the
first one is strict, the remote target has no comma. -/
theorem routed_iff (hcomma : ∀ r' ∈ r :: rs, ',' ∉ r'.toText) (hr : r.IsNameAddress)
    (htarget : '>' ∉ target) (hm : m.getHeaders SipHeaders.route = [])
    (hline : m.startLine = some (.request method (some target))) :
    (∃ req, (m.addRoutes (.ofValues SipHeaders.route
        ((r :: rs).map NameAddressText.toText))).rfc2543RouteAdapt = some req ∧
        req.Routed target (r :: rs)) ↔
      (∀ r' ∈ (r :: rs).dropLast, endsInside false r'.toText = false) ∧
        (GenericURI.hasLr r.uri = false → Skips ',' false target) := by
  have hroutes : (m.addRoutes (.ofValues SipHeaders.route
      ((r :: rs).map NameAddressText.toText))).getRoutes =
        some ⟨SipHeaders.route, readRoutes (r :: rs), false⟩ := getRoutes_addRoutes hm _
  have hline' : (m.addRoutes (.ofValues SipHeaders.route
      ((r :: rs).map NameAddressText.toText))).startLine = some (.request method (some target)) :=
    hline
  generalize m.addRoutes (.ofValues SipHeaders.route ((r :: rs).map NameAddressText.toText)) = m'
    at hroutes hline' ⊢
  have hparse : SipParser.getNameAddress r.toText = some r := by
    have h := EndPointHeader.parse_toText hr.toWasRead hr.uri []
    rwa [List.append_nil] at h
  -- the next hop is the first route
  have hfirst {rh : Header} {nextHop : NameAddressText}
      (hkept : ∀ r' ∈ (r :: rs).dropLast, endsInside false r'.toText = false)
      (hrh : (MultipleHeader.mk SipHeaders.route (readRoutes (r :: rs)) false).getTop = some rh)
      (hnextHop : SipParser.getNameAddress rh.value = some nextHop) : nextHop = r := by
    rw [readRoutes_eq hcomma hkept] at hrh
    have hvalue : rh.value = r.toText := by rw [← Option.some.inj hrh]
    rw [hvalue, hparse] at hnextHop
    exact (Option.some.inj hnextHop).symm
  constructor
  · rintro ⟨req, hreq, hrouted⟩
    obtain ⟨rh, nextHop, hrh, hnextHop, -, -, hboth⟩ :=
      rfc2543RouteAdapt_spec hroutes hline' hreq
    by_cases hlr : GenericURI.hasLr nextHop.uri = true
    · rw [if_pos hlr] at hboth
      have hkept := kept_of_routed hcomma htarget hrouted (.inl (Prod.mk.inj hboth).2)
      rw [hfirst hkept hrh hnextHop] at hlr
      exact ⟨hkept, fun hstrict => absurd (hlr.symm.trans hstrict) (by decide)⟩
    · rw [if_neg hlr] at hboth
      have hvs := (Prod.mk.inj hboth).2
      exact ⟨kept_of_routed hcomma htarget hrouted (.inr hvs),
        fun _ => skips_of_routed htarget hrouted hvs⟩
  · rintro ⟨hkept, hstrict⟩
    have htop : (MultipleHeader.mk SipHeaders.route (readRoutes (r :: rs)) false).getTop =
        some ⟨SipHeaders.route, r.toText⟩ := by
      rw [readRoutes_eq hcomma hkept]
      rfl
    obtain ⟨req, hreq⟩ := rfc2543RouteAdapt_isSome hroutes hline' htop hparse
    obtain ⟨rh, nextHop, hrh, hnextHop, -, -, hboth⟩ :=
      rfc2543RouteAdapt_spec hroutes hline' hreq
    rw [hfirst hkept hrh hnextHop] at hboth
    rw [readRoutes_eq hcomma hkept] at hboth
    refine ⟨req, hreq, ?_⟩
    rw [Routed]
    cases hlr : GenericURI.hasLr r.uri with
    | true =>
      rw [if_pos hlr] at hboth
      rw [if_pos rfl]
      exact Prod.mk.inj hboth
    | false =>
      rw [if_neg (by simp [hlr]), values_recipient_of_skips (hstrict hlr)] at hboth
      rw [if_neg Bool.false_ne_true]
      exact Prod.mk.inj hboth

/-- The headers of another name are the ones that `createRequest` has made. -/
theorem getHeaders_adapted {m' req : BasicSipMessage} {method uri : Text}
    (hline : m'.startLine = some (.request method (some uri)))
    (h : m'.rfc2543RouteAdapt = some req) :
    req.getMethod = some method ∧ ∀ hname, equalsIgnoreCase hname SipHeaders.route = false →
      req.getHeaders hname = m'.getHeaders hname := by
  cases hroutes : m'.getRoutes with
  | none =>
    rw [rfc2543RouteAdapt, hroutes] at h
    rw [← Option.some.inj h]
    exact ⟨(getRequestUri_of_startLine hline).2, fun hname _ => rfl⟩
  | some mh =>
    obtain ⟨-, -, -, -, hmethod, hothers, -⟩ := rfc2543RouteAdapt_spec hroutes hline h
    exact ⟨hmethod, hothers⟩

/-- The name-address and the tag are read from what was written. -/
theorem carries_of_getHeaders {hname : Text} {naddr : NameAddressText} {tag : Option Text}
    {req : BasicSipMessage}
    (h : req.getHeaders hname = [⟨hname, EndPointHeader.ofNameAddress naddr tag⟩]) :
    req.Carries hname naddr tag := by
  refine ⟨h, fun hread hwrite => ?_⟩
  rw [getNameAddress, getTag, getHeader_eq_head?, h]
  exact ⟨EndPointHeader.getNameAddress_ofNameAddress hread hwrite,
    EndPointHeader.getTag_ofNameAddress hwrite⟩

end Routed

end BasicSipMessage

/-! ## The request -/

namespace DialogInfoText

open BasicSipMessage

variable (config : FactoryConfig)

theorem requestUri_eq (d : DialogInfoText) : d.requestUri = d.target := by
  obtain ⟨_, remoteName, _, remoteContact, _, _, _, _, _⟩ := d
  rcases remoteContact with _ | _ | uri <;> rfl

theorem countRequest_eq (method : Text) (d : DialogInfoText) :
    d.countRequest method =
      if SipMethods.isAck method ∨ SipMethods.isCancel method then d
      else { d with localCSeq := d.localCSeq + 1 } := by
  rw [countRequest]
  cases SipMethods.isAck method <;> cases SipMethods.isCancel method <;> rfl

/-- Only the sequence number is changed. -/
theorem countRequest_same (method : Text) (d : DialogInfoText) :
    d.countRequest method = { d with localCSeq := (d.countRequest method).localCSeq } := by
  rw [countRequest_eq]
  split <;> rfl

/-- The request before `rfc2543RouteAdapt`, without the routes. -/
theorem createRequest_spec (branch : Token) (d : DialogInfoText) (method : Text)
    (contentType : Option Text) (body : Option (List UInt8)) :
    ∃ m : BasicSipMessage, m.startLine = some (.request method (some d.target)) ∧
      m.getHeaders SipHeaders.callId = [⟨SipHeaders.callId, d.callId⟩] ∧
      m.getHeaders SipHeaders.from =
        [⟨SipHeaders.from, EndPointHeader.ofNameAddress d.localName d.localTag⟩] ∧
      m.getHeaders SipHeaders.to =
        [⟨SipHeaders.to, EndPointHeader.ofNameAddress d.remoteName d.remoteTag⟩] ∧
      m.getHeaders SipHeaders.cseq = [⟨SipHeaders.cseq,
        valueOf (d.countRequest method).localCSeq.toInt ++ ' ' :: method⟩] ∧
      m.getHeaders SipHeaders.route = [] ∧
      d.createRequest config branch method contentType body = (d.countRequest method,
        (if 0 < d.route.length then
          m.addRoutes (.ofValues SipHeaders.route (d.route.map NameAddressText.toText))
        else m).rfc2543RouteAdapt) := by
  have huri : (d.countRequest method).requestUri = d.target := by
    rw [requestUri_eq, countRequest_same]
    rfl
  obtain ⟨-, hto, hfrom, hcallId, hcseq, hroute⟩ := getHeaders_createRequest config branch method
    (some d.target) d.remoteName d.localName d.callId (d.countRequest method).localCSeq.toInt
    d.localTag d.remoteTag d.localContact contentType body
  refine ⟨_, startLine_createRequest .., hcallId, hfrom, hto, hcseq, hroute, ?_⟩
  rw [createRequest, huri]
  generalize hn : (d.countRequest method).localCSeq = n
  have hsame : d.countRequest method = { d with localCSeq := n } := hn ▸ countRequest_same method d
  rw [hsame]

/-- What does not depend on the routes. -/
theorem inDialog_of_routed {branch : Token} {d : DialogInfoText} {method : Text}
    {contentType : Option Text} {body : Option (List UInt8)} {req : BasicSipMessage}
    (h : (d.createRequest config branch method contentType body).2 = some req)
    (hrouted : req.Routed d.target d.route) :
    InDialog d (d.createRequest config branch method contentType body).1 method req := by
  obtain ⟨m, hline, hcallId, hfrom, hto, hcseq, -, hmade⟩ :=
    createRequest_spec config branch d method contentType body
  rw [hmade] at h ⊢
  have hadapt : req.getMethod = some method ∧
      ∀ hname, equalsIgnoreCase hname SipHeaders.route = false →
        req.getHeaders hname = m.getHeaders hname := by
    dsimp only at h
    split at h
    · have hline' : (m.addRoutes (.ofValues SipHeaders.route
          (d.route.map NameAddressText.toText))).startLine = _ := hline
      obtain ⟨hmethod, hothers⟩ := getHeaders_adapted hline' h
      exact ⟨hmethod, fun hname hne =>
        (hothers hname hne).trans (getHeaders_addRoutes_of_ne hne _)⟩
    · exact getHeaders_adapted hline h
  obtain ⟨hmethod, hothers⟩ := hadapt
  have hcallId' := (hothers SipHeaders.callId (by decide)).trans hcallId
  have hcseq' := (hothers SipHeaders.cseq (by decide)).trans hcseq
  refine ⟨countRequest_eq method d, hmethod, hcallId', fun htoken => ?_,
    carries_of_getHeaders ((hothers SipHeaders.from (by decide)).trans hfrom),
    carries_of_getHeaders ((hothers SipHeaders.to (by decide)).trans hto), hcseq',
    fun hrange htoken => ?_, hrouted⟩
  · rw [getCallId, getHeader_eq_head?, hcallId']
    exact congrArg (fun p => some p.1) (getString_token htoken)
  · obtain ⟨hnumber, hcseqMethod⟩ := cseq_made hrange htoken
    rw [getCSeq, getCSeqMethod, getHeader_eq_head?, hcseq', List.head?_cons, Option.bind_some,
      Option.map_some]
    exact ⟨hnumber, congrArg some hcseqMethod⟩

/-- **A request within a dialog is the one that it has to be, if and only if** no route but the last
one leaves a quoted part open, and, if the first route has no lr parameter, the remote target has no
comma that is not in quotes. -/
theorem inDialog_iff (branch : Token) (d : DialogInfoText) (method : Text)
    (contentType : Option Text) (body : Option (List UInt8))
    (hroute : ∀ r ∈ d.route, r.IsNameAddress ∧ ',' ∉ r.toText) (htarget : '>' ∉ d.target) :
    (∃ req, (d.createRequest config branch method contentType body).2 = some req ∧
      InDialog d (d.createRequest config branch method contentType body).1 method req) ↔
        d.RoutesKept := by
  obtain ⟨m, hline, -, -, -, -, hnone, hmade⟩ :=
    createRequest_spec config branch d method contentType body
  have hrouted : (∃ req, (d.createRequest config branch method contentType body).2 = some req ∧
      InDialog d (d.createRequest config branch method contentType body).1 method req) ↔
        ∃ req, (d.createRequest config branch method contentType body).2 = some req ∧
          req.Routed d.target d.route := by
    constructor
    · rintro ⟨req, hreq, hin⟩
      exact ⟨req, hreq, hin.routed⟩
    · rintro ⟨req, hreq, hrouted⟩
      exact ⟨req, hreq, inDialog_of_routed config hreq hrouted⟩
  rw [hrouted, hmade, RoutesKept]
  dsimp only
  cases hd : d.route with
  | nil =>
    have hno : m.getRoutes = none := getMultiple_eq_none.mpr hnone
    refine ⟨fun _ => ⟨nofun, nofun⟩, fun _ => ⟨m, ?_, ?_⟩⟩
    · rw [if_neg (by decide), rfc2543RouteAdapt, hno]
    · exact ⟨(getRequestUri_of_startLine hline).1, hno⟩
  | cons r rs =>
    rw [hd] at hroute
    have hpos : 0 < (r :: rs).length := Nat.succ_pos _
    rw [if_pos hpos, routed_iff (fun r' hr' => (hroute r' hr').2)
      (hroute r (List.mem_cons_self ..)).1 htarget hnone hline]
    refine and_congr_right fun _ => ⟨fun h r' hr' => ?_, fun h => h r rfl⟩
    rwa [← Option.some.inj hr']

/-- A dialog with the route set of a strict router and a loose one. -/
def strictRouter : DialogInfoText where
  localName := { uri := "sip:alice@h".toList }
  remoteName := { uri := "sip:bob@h".toList }
  remoteContact := some (some "sip:bob@10.0.0.2".toList)
  callId := "call".toList
  localTag := some "1".toList
  remoteTag := some "2".toList
  localCSeq := 7
  route := [{ uri := "sip:p1".toList }, { name := some "P".toList, uri := "sip:p2;lr".toList }]

/-- The request for the strict router is the one that it has to be. -/
theorem inDialog_iff_strictRouter : ∃ req,
    (strictRouter.createRequest {} sampleBranch "BYE".toList none none).2 = some req ∧
      InDialog strictRouter (strictRouter.createRequest {} sampleBranch "BYE".toList none none).1
        "BYE".toList req := by
  have hname : Free naddrUriSchemes ['P'] [] := by
    intro y hy hne t ht hpre
    rcases List.suffix_cons_iff.mp hy with rfl | hy
    · revert t
      decide
    · exact hne (List.suffix_nil.mp hy)
  refine (inDialog_iff {} sampleBranch strictRouter "BYE".toList none none ?_ (by decide)).mpr
    ⟨by decide, by decide⟩
  refine List.forall_mem_cons.mpr ⟨⟨⟨⟨⟨"sip:".toList, by decide, by decide⟩, nofun, nofun⟩,
    by decide⟩, by decide⟩, List.forall_mem_singleton.mpr
      ⟨⟨⟨⟨"sip:".toList, by decide, by decide⟩, by decide, ?_⟩, by decide⟩, by decide⟩⟩
  intro name h
  rw [← Option.some.inj h]
  exact hname

/-- A dialog with a strict router, and a remote target with a comma. -/
def commaTarget : DialogInfoText where
  localName := { uri := "sip:alice@h".toList }
  remoteName := { uri := "sip:bob@h".toList }
  remoteContact := some (some "sip:a,b@h".toList)
  callId := "call".toList
  localTag := some "1".toList
  remoteTag := some "2".toList
  localCSeq := 7
  route := [{ uri := "sip:p1".toList }]

/-- **The remote target is divided into two Route values.** -/
theorem commaTarget_divided :
    (commaTarget.createRequest {} sampleBranch "BYE".toList none none).2.map
        (fun req => req.getRoutes.map MultipleHeader.values) =
      some (some ["<sip:a".toList, "b@h>".toList]) ∧
    ¬∃ req, (commaTarget.createRequest {} sampleBranch "BYE".toList none none).2 = some req ∧
      InDialog commaTarget (commaTarget.createRequest {} sampleBranch "BYE".toList none none).1
        "BYE".toList req := by
  have hvalues : (commaTarget.createRequest {} sampleBranch "BYE".toList none none).2.map
      (fun req => req.getRoutes.map MultipleHeader.values) =
        some (some ["<sip:a".toList, "b@h>".toList]) := by
    obtain ⟨m, hline, -, -, -, -, hnone, hmade⟩ :=
      createRequest_spec {} sampleBranch commaTarget "BYE".toList none none
    have hroutes := getRoutes_addRoutes hnone ["<sip:p1>".toList]
    have htop : (MultipleHeader.mk SipHeaders.route (Header.values ⟨SipHeaders.route,
        MultipleHeader.joined ["<sip:p1>".toList]⟩) false).getTop =
          some ⟨SipHeaders.route, "<sip:p1>".toList⟩ := by
      decide
    have hparse : SipParser.getNameAddress "<sip:p1>".toList = some { uri := "sip:p1".toList } := by
      decide
    obtain ⟨req, hreq⟩ := rfc2543RouteAdapt_isSome hroutes hline htop hparse
    obtain ⟨rh, nextHop, hrh, hnextHop, -, -, hboth⟩ :=
      rfc2543RouteAdapt_spec hroutes hline hreq
    obtain rfl := Option.some.inj (htop.symm.trans hrh)
    obtain rfl := Option.some.inj (hparse.symm.trans hnextHop)
    have hreq' : (commaTarget.createRequest {} sampleBranch "BYE".toList none none).2 = some req := by
      rw [hmade]
      exact hreq
    rw [hreq', Option.map_some, (Prod.mk.inj hboth).2]
    decide
  refine ⟨hvalues, ?_⟩
  rintro ⟨req, hreq, hin⟩
  have hrouted : req.Routed commaTarget.target [{ uri := "sip:p1".toList }] := hin.routed
  obtain ⟨vs, hvs, hlength, -⟩ := values_of_routed hrouted
  rw [hreq, Option.map_some, hvs] at hvalues
  rw [Option.some.inj (Option.some.inj hvalues)] at hlength
  exact absurd hlength (by decide)

end DialogInfoText
end SoftPhone
