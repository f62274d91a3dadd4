import SoftPhone.Sip.Update
import SoftPhone.Text.Created

/-!
# Both ends of a dialog

`toSipMessage` reads from the text of a message what `DialogInfo.update` asks for: the names,
the tags, the CSeq, the Contact and the values of Route and Record-Route, however these are
grouped into headers.

A caller sends an INVITE and gets a 2xx for it; a callee gets the INVITE and sends the 2xx.
Each end updates its dialog information with both messages, the caller as client and the callee
as server.  What is local at one end is remote at the other one, and the route sets are the
reverse of each other (`dual_dialogs`).
-/

namespace SoftPhone

open SipParser

namespace BasicSipMessage

/-! ## What the dialog layer reads -/

/-- The method of a name. -/
def methodOf (name : Text) : Method :=
  if name = "INVITE".toList then .invite
  else if name = "ACK".toList then .ack
  else if name = "BYE".toList then .bye
  else if name = "CANCEL".toList then .cancel
  else if name = "INFO".toList then .info
  else if name = "PRACK".toList then .prack
  else if name = "UPDATE".toList then .update
  else if name = "REFER".toList then .refer
  else if name = "NOTIFY".toList then .notify
  else if name = "SUBSCRIBE".toList then .subscribe
  else .other (String.ofList name)

/-- The URI of a text. -/
def uriOf (uri : Text) : GenericURI where
  scheme := String.ofList (uri.takeWhile (· != ':'))
  address := String.ofList (goTo ':' uri).tail
  lr := GenericURI.hasParameter "lr".toList uri

/-- The name-address of a text. -/
def nameAddressOf (naddr : NameAddressText) : NameAddress where
  displayName := naddr.name.map String.ofList
  address := uriOf naddr.uri

/-- `getRequestLine()` or `getStatusLine()`; a request line without URI is not read further. -/
def firstLine (m : BasicSipMessage) : Option FirstLine :=
  match m.startLine with
  | some (.request method (some uri)) => some (.request (methodOf method) (uriOf uri))
  | some (.status code _) => some (.status code)
  | _ => none

/-- The name-addresses of the Route or Record-Route values. -/
def routesOf (mh : Option MultipleHeader) : Option (List NameAddress) :=
  match mh with
  | none => some []
  | some mh => mh.values.mapM fun v => (SipParser.getNameAddress v).map nameAddressOf

/-- The name-address of the Contact header, if there is one. -/
def contactOf (m : BasicSipMessage) : Option (Option NameAddress) :=
  match m.getContactHeader with
  | none => some none
  | some v => (EndPointHeader.getNameAddress v).map fun naddr => some (nameAddressOf naddr)

/-- The message, as `DialogInfo.update` reads it; `none` is an exception. -/
def toSipMessage (m : BasicSipMessage) : Option SipMessage := do
  let firstLine ← m.firstLine
  let callId ← m.getCallId
  let fromName ← m.getNameAddress SipHeaders.from
  let fromTag ← m.getTag SipHeaders.from
  let toName ← m.getNameAddress SipHeaders.to
  let toTag ← m.getTag SipHeaders.to
  let cseq ← m.getCSeq
  let cseqMethod ← m.getCSeqMethod
  let via ← m.getViaHeader
  let contact ← m.contactOf
  let routes ← routesOf m.getRoutes
  let recordRoutes ← routesOf m.getRecordRoutes
  some {
    firstLine := firstLine
    callId := String.ofList callId
    fromName := nameAddressOf fromName
    fromTag := fromTag.map String.ofList
    toName := nameAddressOf toName
    toTag := toTag.map String.ofList
    cseq := cseq
    cseqMethod := methodOf cseqMethod
    viaProtocol := String.ofList ((ViaHeader.getProtocol via).map Char.toLower)
    contact := contact
    routes := routes
    recordRoutes := recordRoutes }

end BasicSipMessage

/-! ## Dual dialog states -/

namespace DialogInfo

/-- What is local at one end is remote at the other one. -/
structure Dual (caller callee : DialogInfo) : Prop where
  callId : caller.callId = callee.callId
  localName : caller.localName = callee.remoteName
  remoteName : caller.remoteName = callee.localName
  localTag : caller.localTag = callee.remoteTag
  remoteTag : caller.remoteTag = callee.localTag
  localContact : caller.localContact = callee.remoteContact
  remoteContact : caller.remoteContact = callee.localContact
  cseq : caller.localCSeq = callee.remoteCSeq
  route : caller.route = callee.route.map List.reverse

/-- `resp` is a 2xx for the request `req`, with the header fields that it has to take over. -/
structure Accepts (req resp : SipMessage) : Prop where
  isRequest : req.isRequest = true
  isResponse : resp.isResponse = true
  callId : resp.callId = req.callId
  fromName : resp.fromName = req.fromName
  fromTag : resp.fromTag = req.fromTag
  cseq : resp.cseq = req.cseq
  recordRoutes : resp.recordRoutes = req.recordRoutes

/-- A dialog information is updated with the two messages. -/
def afterAnswer (isClient : Bool) (req resp : SipMessage) : DialogInfo :=
  (DialogInfo.update {} isClient req).update isClient resp

/-- The route sets: the one of the caller comes from the response, the one of the callee from the
request. -/
theorem route_afterAnswer {req resp : SipMessage} (h : Accepts req resp) :
    (afterAnswer true req resp).route = (afterAnswer false req resp).route.map List.reverse := by
  have hcaller := (update_client (DialogInfo.update {} true req) resp).route
  have hcallee := (update_server (DialogInfo.update {} false req) resp).route
  rw [afterAnswer, afterAnswer, hcaller, hcallee]
  have hreq : req.isResponse = false := by rw [SipMessage.isResponse_eq, h.isRequest]; rfl
  have hresp : resp.isRequest = false := by
    have hr := h.isResponse
    rw [SipMessage.isResponse_eq] at hr
    simpa using hr
  unfold clientRoute serverRoute
  rw [(update_client {} req).route, (update_server {} req).route]
  unfold clientRoute serverRoute
  rw [hreq, hresp, h.isResponse, h.isRequest, h.recordRoutes]
  by_cases hrr : req.recordRoutes = []
  · by_cases hroutes : req.routes = []
    · simp [hrr, hroutes]
    · simp [hrr, hroutes]
  · simp [hrr]

/-- **Both ends build dual dialog states.** -/
theorem dual_afterAnswer {req resp : SipMessage} (h : Accepts req resp) :
    Dual (afterAnswer true req resp) (afterAnswer false req resp) := by
  have hcaller := update_client {} req
  have hcaller' := update_client (DialogInfo.update {} true req) resp
  have hcallee := update_server {} req
  have hcallee' := update_server (DialogInfo.update {} false req) resp
  have hresp : resp.isRequest = false := by
    have hr := h.isResponse
    rw [SipMessage.isResponse_eq] at hr
    simpa using hr
  have hreq : req.isResponse = false := by rw [SipMessage.isResponse_eq, h.isRequest]; rfl
  unfold afterAnswer
  constructor
  · rw [hcaller'.callId, hcallee'.callId, hcaller.callId, hcallee.callId]
  · rw [hcaller'.localName, hcallee'.remoteName, hcaller.localName, hcallee.remoteName]
  · rw [hcaller'.remoteName, hcallee'.localName, hcaller.remoteName, hcallee.localName]
  · rw [hcaller'.localTag, hcallee'.remoteTag, hcaller.localTag, hcallee.remoteTag]
  · rw [hcaller'.remoteTag, hcallee'.localTag]
  · rw [hcaller'.localContact, hcallee'.remoteContact, hcaller.localContact,
      hcallee.remoteContact, hresp, h.isResponse, h.isRequest, hreq]
    rfl
  · rw [hcaller'.remoteContact, hcallee'.localContact, hcaller.remoteContact,
      hcallee.localContact, hresp, h.isResponse, h.isRequest, hreq]
    rfl
  · rw [hcaller'.localCSeq, hcallee'.remoteCSeq, hcaller.localCSeq, hcallee.remoteCSeq]
  · exact route_afterAnswer h

end DialogInfo

/-! ## From the text -/

namespace BasicSipMessage

/-- The fields that `toSipMessage` has read. -/
theorem toSipMessage_spec {m : BasicSipMessage} {msg : SipMessage}
    (h : m.toSipMessage = some msg) :
    m.firstLine = some msg.firstLine ∧
      m.getCallId.map String.ofList = some msg.callId ∧
      (m.getNameAddress SipHeaders.from).map nameAddressOf = some msg.fromName ∧
      (m.getTag SipHeaders.from).map (Option.map String.ofList) = some msg.fromTag ∧
      m.getCSeq = some msg.cseq ∧
      routesOf m.getRecordRoutes = some msg.recordRoutes := by
  simp only [toSipMessage, Option.bind_eq_bind, Option.bind_eq_some_iff] at h
  obtain ⟨firstLine, hline, callId, hcallId, fromName, hfrom, fromTag, hfromTag, toName, -, toTag, -,
    cseq, hcseq, method, -, via, -, contact, -, routes, -, recordRoutes, hrr, h⟩ := h
  have hmsg := Option.some.inj h
  subst hmsg
  rw [hcallId, hfrom, hfromTag]
  exact ⟨hline, rfl, rfl, rfl, hcseq, hrr⟩

/-- A 2xx that `createResponse` has made. -/
theorem accepts_of_answers {m m' : BasicSipMessage} {code : ℤ} {localTag : Option Text}
    {req resp : SipMessage} (h : Answers m code localTag m') (hm : m.isRequest = true)
    (hcode : 200 ≤ code ∧ code < 300) (hreq : m.toSipMessage = some req)
    (hresp : m'.toSipMessage = some resp) : DialogInfo.Accepts req resp := by
  obtain ⟨hline, hcallId, hfrom, hfromTag, hcseq, hrr⟩ := toSipMessage_spec hreq
  obtain ⟨hline', hcallId', hfrom', hfromTag', hcseq', hrr'⟩ := toSipMessage_spec hresp
  refine ⟨?_, ?_, ?_, ?_, ?_, ?_, ?_⟩
  · unfold isRequest at hm
    unfold firstLine at hline
    split at hline
    · unfold SipMessage.isRequest SipMessage.requestMethod
      rw [← Option.some.inj hline]
      rfl
    · rename_i hstatus
      rw [hstatus] at hm
      exact Bool.noConfusion hm
    · exact absurd hline (by simp)
  · obtain ⟨reason, hstart⟩ := h.startLine
    unfold firstLine at hline'
    rw [hstart] at hline'
    unfold SipMessage.isResponse SipMessage.code?
    rw [← Option.some.inj hline']
    rfl
  · unfold getCallId at hcallId hcallId'
    rw [h.callId, hcallId] at hcallId'
    exact (Option.some.inj hcallId').symm
  · unfold getNameAddress at hfrom hfrom'
    rw [h.fromHeader, hfrom] at hfrom'
    exact (Option.some.inj hfrom').symm
  · unfold getTag at hfromTag hfromTag'
    rw [h.fromHeader, hfromTag] at hfromTag'
    exact (Option.some.inj hfromTag').symm
  · unfold getCSeq at hcseq hcseq'
    rw [h.cseq, hcseq] at hcseq'
    exact (Option.some.inj hcseq').symm
  · rw [h.recordRoutes, if_pos ⟨by omega, hcode.2⟩, hrr] at hrr'
    exact (Option.some.inj hrr').symm

/-- **Both ends build dual dialog states** from an INVITE and a 2xx for it, with any list of
Record-Route values in any grouping. -/
theorem dual_dialogs {config : FactoryConfig} {invite answer : BasicSipMessage} {code : ℤ}
    {reason : Text} {localTag : Option Text} {contact : Option NameAddressText}
    {contentType : Option Text} {body : Option (List UInt8)} {req resp : SipMessage}
    (hinvite : invite.isRequest = true) (hcode : 200 ≤ code ∧ code < 300)
    (hanswer :
      createResponse config invite code reason localTag contact contentType body = some answer)
    (hreq : invite.toSipMessage = some req) (hresp : answer.toSipMessage = some resp) :
    DialogInfo.Dual (DialogInfo.afterAnswer true req resp)
      (DialogInfo.afterAnswer false req resp) :=
  DialogInfo.dual_afterAnswer
    (accepts_of_answers (createResponse_spec hanswer) hinvite hcode hreq hresp)

/-- An INVITE with three Record-Route values in two headers. -/
def recordRouted : BasicSipMessage where
  startLine := some (.request "INVITE".toList (some "sip:bob@h".toList))
  headers := [⟨SipHeaders.via, "SIP/2.0/UDP 10.0.0.1:5060;branch=z9hG4bK1".toList⟩,
    ⟨SipHeaders.recordRoute, "<sip:p3;lr>".toList⟩,
    ⟨SipHeaders.recordRoute, "<sip:p2;lr>, <sip:p1;lr>".toList⟩,
    ⟨SipHeaders.to, "<sip:bob@h>".toList⟩, ⟨SipHeaders.from, "<sip:alice@h>;tag=1".toList⟩,
    ⟨SipHeaders.callId, "call".toList⟩, ⟨SipHeaders.cseq, "1 INVITE".toList⟩,
    ⟨SipHeaders.contact, "<sip:alice@10.0.0.1>".toList⟩]

theorem dual_dialogs_recordRouted :
    ∃ answer req resp,
      createResponse {} recordRouted 200 "OK".toList (some "2".toList) none none none =
        some answer ∧
      recordRouted.toSipMessage = some req ∧ answer.toSipMessage = some resp ∧
      req.recordRoutes.length = 3 ∧
      DialogInfo.Dual (DialogInfo.afterAnswer true req resp)
        (DialogInfo.afterAnswer false req resp) := by
  obtain ⟨answer, hanswer⟩ := Option.isSome_iff_exists.mp (show (createResponse {} recordRouted 200
    "OK".toList (some "2".toList) none none none).isSome = true by decide +kernel)
  have hthree : recordRouted.toSipMessage.map (·.recordRoutes.length) = some 3 := by decide +kernel
  obtain ⟨req, hreq, hlength⟩ := Option.map_eq_some_iff.mp hthree
  have hsome : ((createResponse {} recordRouted 200 "OK".toList (some "2".toList) none none
      none).bind toSipMessage).isSome = true := by decide +kernel
  rw [hanswer] at hsome
  obtain ⟨resp, hresp⟩ := Option.isSome_iff_exists.mp hsome
  exact ⟨answer, req, resp, hanswer, hreq, hresp, hlength,
    dual_dialogs rfl (by decide) hanswer hreq hresp⟩

end BasicSipMessage
end SoftPhone
