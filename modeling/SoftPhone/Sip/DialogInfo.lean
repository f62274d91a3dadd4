import SoftPhone.Sip.Message

/-!
# The dialog information and the messages made from it

`DialogInfo` is the state of a dialog in the sense of the protocol: Call-ID,
tags, names, contacts, sequence numbers and route set.  `update` refreshes it
from a message; the `create...` functions are the ones of `SipMessageFactory` and
`BasicSipMessageFactory` that the dialog layer calls.

What the library picks at random or reads from its configuration is collected in
`SipStack`: the configuration flags, the tags, the branch that `pickBranch` gives
to the `n`-th request that keeps one, and the connection that the `n`-th
`sendMessage` reports (`none` for a connection-less transport).

The route-set option `on_dialog_route` is off, its default.
-/

namespace SoftPhone

/-- The configuration of the stack, and what it takes from outside. -/
structure SipStack where
  earlyDialog : Bool := true
  autoPrack : Bool := false
  autoTrying : Bool := true
  supportedOptionTags : List String := [otag100rel, otagTimer]
  requiredOptionTags : List String := []
  minSessionInterval : ℤ := 90
  defaultSessionInterval : ℤ := 0
  /-- `SipProvider.pickTag(req)`, a digest of the request. -/
  pickTag : SipMessage → String := fun _ => "tag"
  /-- What `SipProvider.pickBranch` gives to the `n`-th request that keeps it. -/
  pickBranch : ℕ → String := fun n => toString n
  /-- The value of `SipProvider.pickCallId`, for the call the dialog makes. -/
  pickCallId : String := "call"
  /-- The value of `SipProvider.pickTag()`, for the call the dialog makes. -/
  pickLocalTag : String := "local"
  /-- The connection reported by the `n`-th call of `SipProvider.sendMessage`. -/
  connection : ℕ → Option ConnectionId := fun _ => none
  /-- The dialog is an `ExtendedInviteDialog`. -/
  extended : Bool := false
  /-- The user name an `ExtendedInviteDialog` authenticates with. -/
  username : Option String := none
  /-- The password an `ExtendedInviteDialog` authenticates with. -/
  passwd : Option String := none

/-- `SipProvider.pickInitialCSeq`. -/
def pickInitialCSeq : ℤ := 1

/-- Class `DialogInfo`. -/
structure DialogInfo where
  localName : Option NameAddress := none
  remoteName : Option NameAddress := none
  localContact : Option NameAddress := none
  remoteContact : Option NameAddress := none
  callId : Option String := none
  localTag : Option String := none
  remoteTag : Option String := none
  localCSeq : ℤ := -1
  remoteCSeq : ℤ := -1
  lastRSeq : ℤ := -1
  /-- The route set; a null vector is not an empty one. -/
  route : Option (List NameAddress) := none
  secure : Bool := false
  sessionInterval : ℤ := 0
  refresher : Option String := none
  deriving DecidableEq, Repr

namespace DialogInfo

/-! ## `update` -/

/-- `update`, names, tags and sequence numbers, as transaction client.  The
remote tag is overwritten by every message, the local one only when it is
missing. -/
def updateNamesClient (d : DialogInfo) (m : SipMessage) : DialogInfo :=
  { d with
    remoteName := d.remoteName <|> some m.toName
    remoteTag := m.toTag
    localName := d.localName <|> some m.fromName
    localTag := d.localTag <|> m.fromTag
    localCSeq := if m.cseq > d.localCSeq then m.cseq else d.localCSeq }

/-- `update`, names, tags and sequence numbers, as transaction server. -/
def updateNamesServer (d : DialogInfo) (m : SipMessage) : DialogInfo :=
  { d with
    localName := d.localName <|> some m.toName
    localTag := m.toTag
    remoteName := d.remoteName <|> some m.fromName
    remoteTag := d.remoteTag <|> m.fromTag
    remoteCSeq := if m.cseq > d.remoteCSeq then m.cseq else d.remoteCSeq
    localCSeq := if d.localCSeq = -1 then pickInitialCSeq - 1 else d.localCSeq }

/-- `update`, contacts. -/
def updateContact (d : DialogInfo) (isClient : Bool) (m : SipMessage) : DialogInfo :=
  match m.contact with
  | none => d
  | some c =>
    if (isClient && m.isRequest) || (!isClient && m.isResponse) then
      { d with localContact := some c }
    else { d with remoteContact := some c }

/-- `update`, route set, as transaction client. -/
def updateRouteClient (d : DialogInfo) (m : SipMessage) : DialogInfo :=
  let d := if m.isRequest && !m.routes.isEmpty && d.route.isNone then
    { d with route := some m.routes } else d
  if m.isResponse && !m.recordRoutes.isEmpty then
    { d with route := some m.recordRoutes.reverse } else d

/-- `update`, route set, as transaction server. -/
def updateRouteServer (d : DialogInfo) (m : SipMessage) : DialogInfo :=
  let d := if m.isRequest && !m.routes.isEmpty && d.route.isNone then
    { d with route := some m.routes.reverse } else d
  if m.isRequest && !m.recordRoutes.isEmpty then
    { d with route := some m.recordRoutes } else d

/-- `update`, the secure flag. -/
def updateSecure (d : DialogInfo) (m : SipMessage) : DialogInfo :=
  match m.requestUri with
  | none => d
  | some uri => { d with secure := d.secure || (uri.isSecure && m.viaProtocol == "tls") }

/-- Updates empty attributes (tags, route set) and mutable attributes (sequence
numbers, contacts), based on a new message. -/
def update (d : DialogInfo) (isClient : Bool) (m : SipMessage) : DialogInfo :=
  let d := { d with callId := d.callId <|> some m.callId }
  let d := if isClient then d.updateNamesClient m else d.updateNamesServer m
  let d := d.updateContact isClient m
  let d := if isClient then d.updateRouteClient m else d.updateRouteServer m
  d.updateSecure m

@[simp] theorem updateContact_remoteCSeq (d : DialogInfo) (b : Bool) (m : SipMessage) :
    (d.updateContact b m).remoteCSeq = d.remoteCSeq := by
  unfold updateContact
  split
  · rfl
  · split <;> rfl

@[simp] theorem updateRouteClient_remoteCSeq (d : DialogInfo) (m : SipMessage) :
    (d.updateRouteClient m).remoteCSeq = d.remoteCSeq := by
  unfold updateRouteClient
  dsimp only
  split <;> split <;> rfl

@[simp] theorem updateRouteServer_remoteCSeq (d : DialogInfo) (m : SipMessage) :
    (d.updateRouteServer m).remoteCSeq = d.remoteCSeq := by
  unfold updateRouteServer
  dsimp only
  split <;> split <;> rfl

@[simp] theorem updateSecure_remoteCSeq (d : DialogInfo) (m : SipMessage) :
    (d.updateSecure m).remoteCSeq = d.remoteCSeq := by
  unfold updateSecure
  split <;> rfl

/-- As transaction client, `update` leaves the remote sequence number alone. -/
theorem update_client_remoteCSeq (d : DialogInfo) (m : SipMessage) :
    (d.update true m).remoteCSeq = d.remoteCSeq := by
  simp [update, updateNamesClient]

/-- As transaction server, `update` raises the remote sequence number to the one
of the message. -/
theorem update_server_remoteCSeq (d : DialogInfo) (m : SipMessage) :
    (d.update false m).remoteCSeq = max d.remoteCSeq m.cseq := by
  simp only [update, updateNamesServer, Bool.false_eq_true, if_false, updateSecure_remoteCSeq,
    updateRouteServer_remoteCSeq, updateContact_remoteCSeq]
  split <;> omega

/-- `update` does not touch the number of the last reliable response. -/
theorem update_lastRSeq (d : DialogInfo) (isClient : Bool) (m : SipMessage) :
    (d.update isClient m).lastRSeq = d.lastRSeq := by
  have hcontact (d : DialogInfo) : (d.updateContact isClient m).lastRSeq = d.lastRSeq := by
    unfold updateContact
    split
    · rfl
    · split <;> rfl
  have hclient (d : DialogInfo) : (d.updateRouteClient m).lastRSeq = d.lastRSeq := by
    unfold updateRouteClient
    dsimp only
    split <;> split <;> rfl
  have hserver (d : DialogInfo) : (d.updateRouteServer m).lastRSeq = d.lastRSeq := by
    unfold updateRouteServer
    dsimp only
    split <;> split <;> rfl
  have hsecure (d : DialogInfo) : (d.updateSecure m).lastRSeq = d.lastRSeq := by
    unfold updateSecure
    split <;> rfl
  cases isClient <;>
    simp [update, hsecure, hclient, hserver, hcontact, updateNamesClient, updateNamesServer]

/-- The identifier the dialog is registered under. -/
def dialogId (d : DialogInfo) : SipId :=
  .dialog (d.callId.getD "") d.localTag d.remoteTag

end DialogInfo

/-! ## Message factories -/

/-- `SipStack.default_expires`. -/
def defaultExpires : ℤ := 3600

/-- `createRequest(method,request_uri,to,from,...)`, with the branch that
`pickBranch` returned. -/
def createRequest (branch : String) (method : Method) (requestUri : GenericURI)
    (toName fromName : NameAddress) (callId : String) (cseq : ℤ)
    (localTag remoteTag : Option String) (contact : Option NameAddress)
    (contentType body : Option String) : SipMessage where
  firstLine := .request method requestUri
  callId := callId
  fromName := fromName
  fromTag := localTag
  toName := toName
  toTag := remoteTag
  cseq := cseq
  cseqMethod := method
  branch := some branch
  contact := contact
  expires := some defaultExpires
  contentType := contentType
  body := body

/-- `rfc2543RouteAdapt`: a first route without `lr` becomes the Request-URI, and
the old Request-URI the last route. -/
def SipMessage.rfc2543RouteAdapt (m : SipMessage) : SipMessage :=
  match m.firstLine, m.routes with
  | .request method uri, top :: rest =>
    if top.address.lr then m
    else { m with
      firstLine := .request method top.address
      routes := rest ++ [{ address := uri }] }
  | _, _ => m

/-- `createRequest(dialog,method,...)`: the request and the dialog information
with the sequence number counted up, unless the method is ACK or CANCEL.  A
dialog without names has a null pointer here. -/
def createDialogRequest (branch : String) (d : DialogInfo) (method : Method)
    (contentType body : Option String) : Option (SipMessage × DialogInfo) :=
  match d.remoteName, d.localName with
  | some toName, some fromName =>
    let requestUri := (d.remoteContact.getD toName).address
    let d := if method = .ack ∨ method = .cancel then d
      else { d with localCSeq := d.localCSeq + 1 }
    let req := createRequest branch method requestUri toName fromName (d.callId.getD "") d.localCSeq
      d.localTag d.remoteTag d.localContact contentType body
    some ({ req with routes := d.route.getD [] }.rfc2543RouteAdapt, d)
  | _, _ => none

/-- `createResponse(req,code,reason,local_tag,contact,...)`. -/
def createTaggedResponse (req : SipMessage) (code : ℤ) (localTag : Option String)
    (contact : Option NameAddress) : SipMessage where
  firstLine := .status code
  callId := req.callId
  fromName := req.fromName
  fromTag := req.fromTag
  toName := req.toName
  toTag := localTag <|> req.toTag
  cseq := req.cseq
  cseqMethod := req.cseqMethod
  branch := req.branch
  sentBy := req.sentBy
  viaProtocol := req.viaProtocol
  recordRoutes := if 180 ≤ code ∧ code < 300 then req.recordRoutes else []
  contact := contact

/-- `createResponse(req,code,reason,contact)`: a response that may set up a
dialog gets a tag when the request has none. -/
def createResponse (S : SipStack) (req : SipMessage) (code : ℤ)
    (contact : Option NameAddress) : SipMessage :=
  let localTag :=
    if req.createsDialog ∧ req.toTag = none ∧
        ((S.earlyDialog ∧ code ≠ 100) ∨ (200 ≤ code ∧ code < 300)) then
      some (S.pickTag req)
    else none
  createTaggedResponse req code localTag contact

@[simp] theorem code_createResponse (S : SipStack) (req : SipMessage) (code : ℤ)
    (contact : Option NameAddress) : (createResponse S req code contact).code = code := rfl

/-- `create2xxAckRequest(dialog,resp,...)`: the CSeq is the one of the
response. -/
def create2xxAckRequest (branch : String) (d : DialogInfo) (resp : SipMessage)
    (contentType body : Option String) : Option (SipMessage × DialogInfo) :=
  (createDialogRequest branch d .ack contentType body).map fun p =>
    ({ p.1 with cseq := resp.cseq, cseqMethod := .ack }, p.2)

/-- `createNon2xxAckRequest(method,resp)`. -/
def createNon2xxAckRequest (req resp : SipMessage) : SipMessage :=
  { createRequest "" .ack (req.requestUri.getD ⟨"", "", false⟩) resp.toName req.fromName
      req.callId req.cseq req.fromTag resp.toTag none none none with
    expires := none
    branch := resp.branch
    sentBy := resp.sentBy
    viaProtocol := resp.viaProtocol
    routes := req.routes }

/-- `createCancelRequest(req)`; a request without Contact has a null pointer
here. -/
def createCancelRequest (req : SipMessage) : Option SipMessage :=
  req.contact.map fun contact =>
    { createRequest "" .cancel (req.requestUri.getD ⟨"", "", false⟩) req.toName req.fromName
        req.callId req.cseq req.fromTag req.toTag (some contact) none none with
      branch := req.branch
      sentBy := req.sentBy
      viaProtocol := req.viaProtocol
      authorization := req.authorization
      proxyAuthorization := req.proxyAuthorization }

/-- `createPrackRequest(dialog,resp_1xx,...)`. -/
def createPrackRequest (branch : String) (d : DialogInfo) (resp1xx : SipMessage)
    (contentType body : Option String) : Option (SipMessage × DialogInfo) :=
  match resp1xx.rseq with
  | none => none
  | some rseq =>
    (createDialogRequest branch d .prack contentType body).map fun p =>
      ({ p.1 with rack := some ⟨rseq, resp1xx.cseq, resp1xx.cseqMethod⟩ }, p.2)

/-- `createByeRequest(dialog)`. -/
def createByeRequest (branch : String) (d : DialogInfo) :
    Option (SipMessage × DialogInfo) :=
  (createDialogRequest branch d .bye none none).map fun p =>
    ({ p.1 with expires := none, contact := none }, p.2)

/-- `createReferRequest(dialog,refer_to,referred_by)`. -/
def createReferRequest (branch : String) (d : DialogInfo) (referTo : NameAddress)
    (referredBy : Option NameAddress) : Option (SipMessage × DialogInfo) :=
  (createDialogRequest branch d .refer none none).map fun p =>
    ({ p.1 with referTo := some referTo, referredBy := referredBy <|> d.localName }, p.2)

/-- `createNotifyRequest(dialog,event,id,sipfragment)`. -/
def createNotifyRequest (branch : String) (d : DialogInfo) (event sipfragment : String) :
    Option (SipMessage × DialogInfo) :=
  (createDialogRequest branch d .notify (some "message/sipfrag;version=2.0")
    (some sipfragment)).map fun p => ({ p.1 with expires := none, event := some event }, p.2)

/-! ## Messages of a call

The runs that show what a condition excludes are about a call of alice to bob. -/

/-- A name-address without display name. -/
def sampleName (user : String) : NameAddress := { address := ⟨"sip", user, false⟩ }

/-- A request of alice to bob. -/
def sampleRequest (method : Method) (cseq : ℤ) (toTag : Option String) (branch : String) :
    SipMessage where
  firstLine := .request method ⟨"sip", "bob", false⟩
  callId := "call"
  fromName := sampleName "alice"
  fromTag := some "alice"
  toName := sampleName "bob"
  toTag := toTag
  cseq := cseq
  cseqMethod := method
  branch := some branch
  contact := some (sampleName "alice")
  body := some "sdp"

/-- Bob's response to a request. -/
def sampleResponse (req : SipMessage) (code : ℤ) : SipMessage :=
  createTaggedResponse req code (some "tag") (some (sampleName "bob"))

/-- The stack of an `ExtendedInviteDialog` of alice. -/
def sampleStack : SipStack := { extended := true, username := some "alice", passwd := some "secret" }

/-- A challenge that alice can answer. -/
def sampleChallenge : Challenge := { realm := some "realm", nonce := some "nonce" }

/-- The INVITE that alice starts the call with. -/
def sampleInvite : Request .invite := ⟨sampleRequest .invite 1 none "1", rfl, rfl⟩

end SoftPhone
