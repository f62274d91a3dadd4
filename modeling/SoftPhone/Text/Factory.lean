import SoftPhone.Text.Identifiers
import SoftPhone.Text.NameAddress

/-!
# `BasicSipMessageFactory` and `SipMessageFactory`, on the text of the headers

The functions that make a request, a response, an ACK for a non-2xx response and a CANCEL, and
what the provider does to a request that it has received.  `none` is an exception: a header is
missing, or its value cannot be read.
-/

namespace SoftPhone

open SipParser BasicSipMessage

/-- A word without separators and quotes, as `pickBranch` returns one and as the configuration
names a transport. -/
abbrev Token : Type := { t : Text // ∀ c ∈ t, isParamSeparator c = false ∧ c ≠ '"' }

/-- What the factories take from the configuration. -/
structure FactoryConfig where
  /-- `SipStack.default_transport_protocols[0]`. -/
  transportProtocol : Token := ⟨"udp".toList, by decide⟩
  defaultExpires : ℤ := 3600
  uaInfo : Option Text := none
  serverInfo : Option Text := none

namespace BasicSipMessage

/-! ## Accessors -/

/-- `isRequest`. -/
def isRequest (m : BasicSipMessage) : Bool :=
  match m.startLine with
  | some (.request _ _) => true
  | _ => false

/-- `isResponse`. -/
def isResponse (m : BasicSipMessage) : Bool :=
  match m.startLine with
  | some (.status _ _) => true
  | _ => false

/-- `getRequestLine().getMethod()`. -/
def getMethod (m : BasicSipMessage) : Option Text :=
  match m.startLine with
  | some (.request method _) => some method
  | _ => none

/-- `getRequestLine().getAddress()`; the URI may be null. -/
def getRequestUri (m : BasicSipMessage) : Option (Option Text) :=
  match m.startLine with
  | some (.request _ uri) => some uri
  | _ => none

/-- `getToHeader().getNameAddress()`, and of the other headers with a name-address. -/
def getNameAddress (hname : Text) (m : BasicSipMessage) : Option NameAddressText :=
  (m.getHeader hname).bind fun h => EndPointHeader.getNameAddress h.value

/-- `getToHeader().getTag()`, and of the other headers with a tag. -/
def getTag (hname : Text) (m : BasicSipMessage) : Option (Option Text) :=
  (m.getHeader hname).bind fun h => EndPointHeader.getTag h.value

/-! ## Factories -/

section Config

variable (config : FactoryConfig)

/-- `BasicSipMessageFactory.createRequest(method,request_uri,to,from,...)`, with the branch that
`pickBranch` has returned. -/
def createRequest (branch : Token) (method : Text) (requestUri : Option Text)
    (to_ from_ : NameAddressText) (callId : Text) (cseq : ℤ) (localTag remoteTag : Option Text)
    (contact : Option NameAddressText) (contentType : Option Text) (body : Option (List UInt8)) :
    BasicSipMessage :=
  let req : BasicSipMessage := { startLine := some (.request method requestUri) }
  let via := ViaHeader.ofHost config.transportProtocol.val "0.0.0.0".toList 0
  let req := req.addViaHeader ⟨SipHeaders.via, ViaHeader.setBranch (some branch.val) via⟩
  let req := req.setHeader ⟨SipHeaders.maxForwards, valueOf 70⟩
  let req := req.setHeader ⟨SipHeaders.to, EndPointHeader.ofNameAddress to_ remoteTag⟩
  let req := req.setHeader ⟨SipHeaders.from, EndPointHeader.ofNameAddress from_ localTag⟩
  let req := req.setHeader ⟨SipHeaders.callId, callId⟩
  let req := req.setHeader ⟨SipHeaders.cseq, valueOf cseq ++ ' ' :: method⟩
  let req := match contact with
    | none => req
    | some contact => req.addHeader ⟨SipHeaders.contact, contact.toText⟩ false
  let req := req.setHeader ⟨SipHeaders.expires, valueOf config.defaultExpires⟩
  let req := match config.uaInfo with
    | none => req
    | some uaInfo => req.setHeader ⟨SipHeaders.userAgent, uaInfo⟩
  req.setBody contentType body

/-- The To header of a response: `toh.setTag(local_tag)`, unless the tag is null. -/
def taggedTo (localTag : Option Text) (toh : Header) : Header :=
  match localTag with
  | none => toh
  | some localTag => { toh with value := EndPointHeader.setTag localTag toh.value }

/-- The Record-Route headers of a response that may set up a dialog. -/
def copyRecordRoutes (req : BasicSipMessage) (code : ℤ) (resp : BasicSipMessage) :
    BasicSipMessage :=
  match req.getRecordRoutes with
  | none => resp
  | some routes => if 180 ≤ code ∧ code < 300 then resp.setRecordRoutes routes else resp

/-- `resp.setContactHeader(...)` and `resp.setServerHeader(...)`, unless they are null. -/
def setContactAndServer (contact : Option NameAddressText) (resp : BasicSipMessage) :
    BasicSipMessage :=
  let resp := match contact with
    | none => resp
    | some contact => resp.setContactHeader ⟨SipHeaders.contact, contact.toText⟩
  match config.serverInfo with
  | none => resp
  | some serverInfo => resp.setHeader ⟨SipHeaders.server, serverInfo⟩

/-- `BasicSipMessageFactory.createResponse(req,code,reason,local_tag,contact,...)`. -/
def createResponse (req : BasicSipMessage) (code : ℤ) (reason : Text) (localTag : Option Text)
    (contact : Option NameAddressText) (contentType : Option Text)
    (body : Option (List UInt8)) : Option BasicSipMessage := do
  let resp : BasicSipMessage := { startLine := some (.status code reason) }
  let resp := resp.setVias (← req.getVias)
  let resp := copyRecordRoutes req code resp
  let resp := resp.setHeader (taggedTo localTag (← req.getHeader SipHeaders.to))
  let resp := resp.setHeader (← req.getHeader SipHeaders.from)
  let resp := resp.setHeader (← req.getHeader SipHeaders.callId)
  let resp := resp.setHeader (← req.getHeader SipHeaders.cseq)
  some ((setContactAndServer config contact resp).setBody contentType body)

/-- `if (ack.hasViaHeader()) ack.removeViaHeader()`. -/
def withoutTopVia (m : BasicSipMessage) : Option BasicSipMessage :=
  if m.hasHeader SipHeaders.via then m.removeViaHeader else some m

/-- `if (method.hasRouteHeader()) ack.setRoutes(method.getRoutes())`. -/
def copyRoutes (routes : Option MultipleHeader) (m : BasicSipMessage) : BasicSipMessage :=
  match routes with
  | none => m
  | some routes => m.setRoutes routes

/-- `SipMessageFactory.createNon2xxAckRequest(method,resp)`. -/
def createNon2xxAckRequest (branch : Token) (method resp : BasicSipMessage) :
    Option BasicSipMessage := do
  let requestUri ← method.getRequestUri
  let to_ ← resp.getNameAddress SipHeaders.to
  let from_ ← method.getNameAddress SipHeaders.from
  let callId ← method.getCallId
  let cseq ← method.getCSeq
  let localTag ← method.getTag SipHeaders.from
  let remoteTag ← resp.getTag SipHeaders.to
  let ack := createRequest config branch "ACK".toList requestUri to_ from_ callId cseq localTag
    remoteTag none none none
  let ack := ack.removeHeader SipHeaders.expires
  -- the Via that `createRequest` has made is removed
  let ack ← ack.withoutTopVia
  let via ← resp.getViaHeader
  let viaBranch ← ViaHeader.getBranch via
  let host ← ViaHeader.getHost via
  let port ← ViaHeader.getPort via
  let via := ViaHeader.setBranch viaBranch (ViaHeader.ofHost (ViaHeader.getProtocol via) host port)
  some ((ack.addViaHeader ⟨SipHeaders.via, via⟩).copyRoutes method.getRoutes)

/-- A header is set to the one of another message, if that one has it. -/
def copyHeader (hname : Text) (req m : BasicSipMessage) : BasicSipMessage :=
  match req.getHeader hname with
  | none => m
  | some h => m.setHeader h

/-- `SipMessageFactory.createCancelRequest(req)`. -/
def createCancelRequest (branch : Token) (req : BasicSipMessage) : Option BasicSipMessage := do
  let requestUri ← req.getRequestUri
  let contact ← (← req.getContactHeader) |> EndPointHeader.getNameAddress
  let to_ ← req.getNameAddress SipHeaders.to
  let from_ ← req.getNameAddress SipHeaders.from
  let callId ← req.getCallId
  let cseq ← req.getCSeq
  let localTag ← req.getTag SipHeaders.from
  let remoteTag ← req.getTag SipHeaders.to
  let cancel := createRequest config branch "CANCEL".toList requestUri to_ from_ callId cseq
    localTag remoteTag (some contact) none none
  -- the Via that `createRequest` has made stays
  let vias ← req.getVias
  let via ← vias.getTop
  let cancel := cancel.addViaHeader via
  let cancel := copyHeader SipHeaders.authorization req cancel
  some (copyHeader SipHeaders.proxyAuthorization req cancel)

end Config

/-! ## The provider -/

/-- `SipProvider.onReceivedMessage`: the top Via of a request from the address `srcAddr` and the
port `srcPort` gets the parameters received and rport. -/
def onReceivedMessage (forceRport : Bool) (srcAddr : Text) (srcPort : ℤ)
    (msg : BasicSipMessage) : Option BasicSipMessage :=
  if msg.isRequest then do
    let vias ← msg.getVias
    let vh ← vias.getTop
    let p ← ViaHeader.receivedVia forceRport srcAddr srcPort vh.value
    if p.2 then (← msg.removeViaHeader).addViaHeader { vh with value := p.1 } else msg
  else some msg

/-! ## Identifiers of messages -/

/-- The branch and the sent-by of the top Via, as the transaction identifiers use them. -/
def viaIds (m : BasicSipMessage) : Option (Option Text × Option Text) :=
  match m.getViaHeader with
  | none => some (none, none)
  | some via =>
    (if ViaHeader.hasBranch via then ViaHeader.getBranch via else some none).map fun branch =>
      (branch, ViaHeader.getSentBy via)

/-- `new TransactionId(uac,msg)`. -/
def transactionId (uac : Bool) (m : BasicSipMessage) : Option Text := do
  let callId ← m.getCallId
  let via ← m.viaIds
  let seqn ← m.getCSeq
  let method ← m.getCSeqMethod
  some (getTransactionId uac callId seqn method via.2 via.1)

/-- The identifier of a `CancelTransactionServer(req)`. -/
def cancelServerId (req : BasicSipMessage) : Option Text := do
  let callId ← req.getCallId
  let via ← req.viaIds
  let seqn ← req.getCSeq
  some (getTransactionId false callId seqn "CANCEL".toList via.2 via.1)

end BasicSipMessage
end SoftPhone
