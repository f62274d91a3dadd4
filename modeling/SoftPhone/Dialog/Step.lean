import SoftPhone.Dialog.InviteDialog

/-!
# The user's calls, and the steps of a dialog

`Api` lists the public methods of the dialog that a user calls.  Where a method
takes a message the source names its kind (`the INVITE message`, `the BYE request
message`), and so does the type here.

`step` takes one event: a message from the network, a timer, a call of the user, or
the return of the code on top of the stack.  A message or a timer is worked off
when nothing else is; the user calls a method when nothing else is worked off or
from inside a callback.
-/

namespace SoftPhone

/-- A request of any method. -/
abbrev AnyRequest : Type := { m : SipMessage // m.isRequest = true }

/-- The calls of the user. -/
inductive Api where
  | setSupportedExtensions (tags : List String)
  | setRequiredExtensions (tags : List String)
  | listen
  | invite (target fromName : NameAddress) (contact : Option NameAddress) (sdp : String)
  | inviteMessage (invite : Request .invite)
  | inviteWithoutOffer
  | inviteMessageWithoutOffer (invite : Request .invite)
  | reInvite (contact : Option NameAddress) (sdp : String)
  | reInviteMessage (invite : Request .invite)
  | reInviteWithoutOffer (contact : Option NameAddress) (sdp : String)
  | reInviteMessageWithoutOffer (invite : Request .invite)
  | ring
  | accept (contact : Option NameAddress) (sdp : String)
  | refuse
  | refuseWith (code : ℤ)
  | redirect (code : ℤ) (contact : NameAddress)
  | respond (code : ℤ) (contact : Option NameAddress) (contentType body : Option String)
  | respondMessage (resp : Response)
  | confirm2xxWithAnswer (contact : Option NameAddress) (sdp : String)
  | confirm2xxWithAck (ack : Request .ack)
  | confirm1xx (resp : Response) (contentType body : Option String)
  | confirm1xxMessage (prack : SipMessage)
  | bye
  | byeMessage (bye : Request .bye)
  | cancel
  | cancelMessage (cancel : Request .cancel)
  | info (contentType body : Option String)
  | infoMessage (req : Request .info)
  | update (contact : Option NameAddress) (sdp : String)
  | updateMessage (req : Request .update)
  | acceptUpdate (sdp : Option String)
  | refuseUpdate
  | terminate
  /-- Of `ExtendedInviteDialog` only, as are the ones below. -/
  | request (req : AnyRequest)
  | refer (referTo : NameAddress) (referredBy : Option NameAddress)
  | notify (sipfragment : String)
  | acceptRefer (req : SipMessage)
  | refuseRefer (req : SipMessage)

/-- What happens next. -/
inductive Event where
  /-- The provider receives a message. -/
  | recv (m : SipMessage)
  /-- A timer of a transaction expires. -/
  | timeout (a : Agent) (n : TimerName)
  /-- A timer of the reliable provisional responder expires. -/
  | responderTimeout (n : TimerName)
  /-- The user calls a method. -/
  | api (a : Api)
  /-- The code on top of the stack returns or goes on. -/
  | ret

/-- The event is a call of the user with the property `P`. -/
def Event.IsCall (P : Api → Prop) : Event → Prop
  | .api a => P a
  | _ => False

instance (P : Api → Prop) [DecidablePred P] : DecidablePred (Event.IsCall P)
  | .api a => inferInstanceAs (Decidable (P a))
  | .recv _ | .timeout _ _ | .responderTimeout _ | .ret => isFalse id

namespace World

variable (S : SipStack)

/-! ## The user's calls -/

/-- `listen`. -/
def listen (w : World) : World :=
  if w.status = .init then
    let r := w.inviteServers.next
    let w := (w.changeStatus .waiting).setInviteTs r
    { w with inviteServers := w.inviteServers.new (.newListening S true) }.onInviteServer (some r)
      (·.listen)
  else w

/-- `invite(invite)`, the headers that are added. -/
def decorateInvite (d : InviteDialog) (invite : SipMessage) : SipMessage :=
  let invite := if d.requiredOptionTags = [] then invite
    else { invite with requireTags := some d.requiredOptionTags }
  let invite := if d.supportedOptionTags = [] then invite
    else { invite with supportedTags := some d.supportedOptionTags }
  if invite.supports otagTimer ∧ 0 < d.info.sessionInterval then
    { invite with
      minSE := some S.minSessionInterval
      sessionExpires := some ⟨d.info.sessionInterval, none⟩ }
  else invite

/-- `invite_tc=...`. -/
def setInviteTc (w : World) (r : ℕ) : World := { w with dlg.inviteTc := some r }

/-- `invite` and `reInvite`, once the state is changed. -/
def sendInvite (w : World) (invite : SipMessage) : World :=
  let w := (w.setInviteReq invite).updateDialogInfo true invite
  (w.setInviteTc w.inviteClients.next).startInviteClient S invite

/-- `invite(invite)`. -/
def invite (w : World) (invite : SipMessage) : World :=
  if w.status = .init then
    (w.changeStatus .inviting).sendInvite S (decorateInvite S w.dlg invite)
  else w

/-- `invite(target,from,contact,session_descriptor)`. -/
def inviteTarget (w : World) (target fromName : NameAddress) (contact : Option NameAddress)
    (sdp : String) : World :=
  if w.status = .init then
    let req := createRequest (S.pickBranch w.provider.branches) .invite target.address target
      fromName S.pickCallId pickInitialCSeq (some S.pickLocalTag) none contact
      (some "application/sdp") (some sdp)
    { w with provider.branches := w.provider.branches + 1 }.invite S req
  else w

/-- `reInvite(invite)`. -/
def reInvite (w : World) (invite : SipMessage) : World :=
  if w.status = .call then (w.changeStatus .reInviting).sendInvite S invite else w

/-- `reInvite(contact,session_descriptor)`. -/
def reInviteOffer (w : World) (contact : Option NameAddress) (sdp : String) : World :=
  if w.status = .call then
    match w.create S fun branch info =>
        createDialogRequest branch info .invite (some "application/sdp") (some sdp) with
    | none => w
    | some (req, w) => w.reInvite S { req with contact := contact <|> req.contact }
  else w

/-- The flag of `inviteWithoutOffer` and `reInviteWithoutOffer`, set before anything
is checked. -/
def withoutOffer (w : World) : World := { w with dlg.inviteOffer := false }

/-- `respond(code,reason,contact,content_type,body)`. -/
def respondCode (w : World) (code : ℤ) (contact : Option NameAddress)
    (contentType body : Option String) : World :=
  if w.status.IsInvited then
    match w.dlg.inviteReq with
    | none => w
    | some invite => w.respond S { createResponse S invite code contact with
        contentType := contentType
        body := body }
  else w

/-- `confirm2xxWithAnswer(ack)`, the fields. -/
def setAckReq (w : World) (ack : SipMessage) : World :=
  { w with dlg.ackReq := some ack, dlg.inviteOffer := true }

/-- `confirm2xxWithAnswer(ack)`. -/
def confirm2xx (w : World) (ack : SipMessage) : World :=
  let w := w.setAckReq ack
  let w := match ack.contact with
    | none => w
    | some contact => w.setLocalContact contact
  w.startAckClient ack

/-- `confirm2xxWithAnswer(contact,session_descriptor)`. -/
def confirm2xxWithAnswer (w : World) (contact : Option NameAddress) (sdp : String) : World :=
  let w := match contact with
    | none => w
    | some contact => w.setLocalContact contact
  match w.dlg.inv2xxResp with
  | none => w
  | some resp =>
    match w.create S fun branch info =>
        create2xxAckRequest branch info resp (some "application/sdp") (some sdp) with
    | none => w
    | some (ack, w) => w.confirm2xx ack

/-- `bye(bye)`. -/
def byeMessage (w : World) (bye : SipMessage) : World :=
  if w.status = .call then (w.changeStatus .byeing).startClient S bye true else w

/-- `bye()`. -/
def bye (w : World) : World :=
  if w.status = .call then
    match w.create S createByeRequest with
    | none => w
    | some (req, w) => w.byeMessage S req
  else w

/-- `cancel(cancel)`. -/
def cancelMessage (w : World) (cancel : SipMessage) : World :=
  if w.status.IsInviting then
    if w.inviteTcProceeding then w.startClient S cancel false
    else w.onInviteClient w.dlg.inviteTc (·.terminate)
  else if w.status.IsWaiting then w.onInviteServer w.dlg.inviteTs (·.terminate)
  else w

/-- `cancel()`. -/
def cancel (w : World) : World :=
  if w.status.IsInviting then
    if w.inviteTcProceeding then
      match w.dlg.inviteReq.bind createCancelRequest with
      | none => w
      | some req => w.cancelMessage S req
    else w.onInviteClient w.dlg.inviteTc (·.terminate)
  else if w.status.IsWaiting then w.onInviteServer w.dlg.inviteTs (·.terminate)
  else w

/-- `info(req)`. -/
def infoMessage (w : World) (req : SipMessage) : World :=
  if w.status = .call then w.startClient S req true else w

/-- `info(content_type,body)`. -/
def info (w : World) (contentType body : Option String) : World :=
  if w.status = .call then
    match w.create S fun branch info =>
        createDialogRequest branch info .info contentType body with
    | none => w
    | some (req, w) => w.infoMessage S req
  else w

/-- `update(req)`. -/
def updateMessage (w : World) (req : SipMessage) : World :=
  if w.status.isEarly || w.status.isConfirmed then w.startClient S req true else w

/-- `update(contact,session_descriptor)`. -/
def update (w : World) (contact : Option NameAddress) (sdp : String) : World :=
  if w.status.isEarly || w.status.isConfirmed then
    match w.create S fun branch info =>
        createDialogRequest branch info .update (some "application/sdp") (some sdp) with
    | none => w
    | some (req, w) => w.updateMessage S { req with contact := contact <|> req.contact }
  else w

/-- `acceptUpdate` and `refuseUpdate`. -/
def respondUpdate (w : World) (code : ℤ) (sdp : Option String) : World :=
  match (w.dlg.updateTs.bind w.servers.get).bind (·.request) with
  | none => w
  | some req =>
    let resp := createResponse S req code none
    w.respond S (match sdp with
      | none => resp
      | some _ => { resp with contentType := some "application/sdp", body := sdp })

/-- `terminate`. -/
def terminate (w : World) : World :=
  if w.status = .close then w
  else
    let w := w.changeStatus .close
    let w := w.onInviteClient w.dlg.inviteTc (·.terminate)
    let w := w.onInviteServer w.dlg.inviteTs (·.terminate)
    let w := w.onCancelServer w.dlg.cancelTs (·.terminate)
    let w := w.onServer w.dlg.updateTs (·.terminate)
    let w := w.onAckServer w.dlg.ackTs (·.terminate)
    let w := w.onServer w.dlg.byeTs (·.terminate)
    { w with dlg := w.dlg.forget }.fire .onDlgClosed

/-- `request(req)` of `ExtendedInviteDialog`. -/
def request (w : World) (req : SipMessage) : World :=
  if S.extended then w.startClient S req true else w

/-- A request that `ExtendedInviteDialog` makes in the dialog. -/
def requestWith (w : World)
    (factory : String → DialogInfo → Option (SipMessage × DialogInfo)) : World :=
  if S.extended then
    match w.create S factory with
    | none => w
    | some (req, w) => w.request S req
  else w

/-- `acceptRefer` and `refuseRefer`. -/
def respondRefer (w : World) (req : SipMessage) (code : ℤ) : World :=
  if S.extended then w.respond S (createResponse S req code none) else w

/-- A call of the user. -/
def call (w : World) : Api → World
  | .setSupportedExtensions tags => { w with dlg.supportedOptionTags := tags }
  | .setRequiredExtensions tags => { w with dlg.requiredOptionTags := tags }
  | .listen => w.listen S
  | .invite target fromName contact sdp => w.inviteTarget S target fromName contact sdp
  | .inviteMessage invite => w.invite S invite
  -- `invite(target,from,contact,null)`: a null pointer after the check of the state
  | .inviteWithoutOffer => w.withoutOffer
  | .inviteMessageWithoutOffer invite => w.withoutOffer.invite S invite
  | .reInvite contact sdp => w.reInviteOffer S contact sdp
  | .reInviteMessage invite => w.reInvite S invite
  | .reInviteWithoutOffer contact sdp => w.withoutOffer.reInviteOffer S contact sdp
  | .reInviteMessageWithoutOffer invite => w.withoutOffer.reInvite S invite
  | .ring => w.respondCode S 180 none none none
  | .accept contact sdp => w.respondCode S 200 contact (some "application/sdp") (some sdp)
  | .refuse => w.respondCode S 486 none none none
  | .refuseWith code => w.respondCode S code none none none
  | .redirect code contact => w.respondCode S code (some contact) none none
  | .respond code contact contentType body => w.respondCode S code contact contentType body
  | .respondMessage resp => w.respond S resp
  | .confirm2xxWithAnswer contact sdp => w.confirm2xxWithAnswer S contact sdp
  | .confirm2xxWithAck ack => w.confirm2xx ack
  | .confirm1xx resp contentType body => w.confirm1xxOf S resp contentType body
  | .confirm1xxMessage prack => w.confirm1xx S prack
  | .bye => w.bye S
  | .byeMessage bye => w.byeMessage S bye
  | .cancel => w.cancel S
  | .cancelMessage cancel => w.cancelMessage S cancel
  | .info contentType body => w.info S contentType body
  | .infoMessage req => w.infoMessage S req
  | .update contact sdp => w.update S contact sdp
  | .updateMessage req => w.updateMessage S req
  | .acceptUpdate sdp => w.respondUpdate S 200 sdp
  | .refuseUpdate => w.respondUpdate S 504 none
  | .terminate => w.terminate
  | .request req => w.request S req
  | .refer referTo referredBy =>
    w.requestWith S fun branch info => createReferRequest branch info referTo referredBy
  | .notify sipfragment =>
    w.requestWith S fun branch info => createNotifyRequest branch info "refer" sipfragment
  | .acceptRefer req => w.respondRefer S req 202
  | .refuseRefer req => w.respondRefer S req 603

/-! ## Messages and timers -/

/-- What an invite client did, up to its callback. -/
def putInviteClient (w : World) (r : ℕ)
    (o : Outcome InviteTransactionClient ClientCallback ClientRest) : World :=
  { w with
    inviteClients := w.inviteClients.put r o.self
    provider := w.provider.calls (.inviteClient r) o.calls
    stack := (o.rest.toList.map fun rest => .code (.inviteClient r rest)) ++ w.stack }

/-- What an invite client did, and its callback. -/
def inviteClientDid (w : World) (r : ℕ)
    (o : Outcome InviteTransactionClient ClientCallback ClientRest) : World :=
  match o.callback with
  | none => w.putInviteClient r o
  | some c => (w.putInviteClient r o).onClientCallback S o.self.request c

/-- What a client did, up to its callback. -/
def putClient (w : World) (r : ℕ)
    (o : Outcome TransactionClient ClientCallback ClientRest) : World :=
  { w with
    clients := w.clients.put r o.self
    provider := w.provider.calls (.client r) o.calls
    stack := (o.rest.toList.map fun rest => .code (.client r rest)) ++ w.stack }

/-- What a client did, and its callback. -/
def clientDid (w : World) (r : ℕ)
    (o : Outcome TransactionClient ClientCallback ClientRest) : World :=
  match o.callback with
  | none => w.putClient r o
  | some c => (w.putClient r o).onClientCallback S o.self.request c

/-- What an invite server did, up to its callback. -/
def putInviteServer (w : World) (r : ℕ)
    (o : Outcome InviteTransactionServer ServerCallback ServerRest) : World :=
  { w with
    inviteServers := w.inviteServers.put r o.self
    provider := w.provider.calls (.inviteServer r) o.calls
    stack := (o.rest.toList.map fun rest => .code (.inviteServer r rest)) ++ w.stack }

/-- What an invite server did, and its callback. -/
def inviteServerDid (w : World) (r : ℕ)
    (o : Outcome InviteTransactionServer ServerCallback ServerRest) : World :=
  match o.callback with
  | none => w.putInviteServer r o
  | some c => (w.putInviteServer r o).onServerCallback S (.inviteServer r) c

/-- What a server did, up to its callback. -/
def putServer (w : World) (r : ℕ)
    (o : Outcome TransactionServer ServerCallback ServerRest) : World :=
  { w with
    servers := w.servers.put r o.self
    provider := w.provider.calls (.server r) o.calls }

/-- What a server did, and its callback. -/
def serverDid (w : World) (r : ℕ)
    (o : Outcome TransactionServer ServerCallback ServerRest) : World :=
  match o.callback with
  | none => w.putServer r o
  | some c => (w.putServer r o).onServerCallback S (.server r) c

/-- What a cancel server did, up to its callback. -/
def putCancelServer (w : World) (r : ℕ)
    (o : Outcome TransactionServer ServerCallback ServerRest) : World :=
  { w with
    cancelServers := w.cancelServers.put r o.self
    provider := w.provider.calls (.cancelServer r) o.calls }

/-- What a cancel server did, and its callback. -/
def cancelServerDid (w : World) (r : ℕ)
    (o : Outcome TransactionServer ServerCallback ServerRest) : World :=
  match o.callback with
  | none => w.putCancelServer r o
  | some c => (w.putCancelServer r o).onServerCallback S (.cancelServer r) c

/-- What an ACK server did, up to its callback. -/
def putAckServer (w : World) (r : ℕ)
    (o : Outcome AckTransactionServer AckServerCallback ServerRest) : World :=
  { w with
    ackServers := w.ackServers.put r o.self
    provider := w.provider.calls (.ackServer r) o.calls }

/-- What an ACK server did, and its callback. -/
def ackServerDid (w : World) (r : ℕ)
    (o : Outcome AckTransactionServer AckServerCallback ServerRest) : World :=
  match o.callback with
  | none => w.putAckServer r o
  | some .onTransAckTimeout => (w.putAckServer r o).onTransAckTimeout

/-- The provider passes a message to one of its listeners. -/
def deliver (w : World) (a : Agent) (m : SipMessage) : World :=
  let w := w.observe (.received a m)
  match a with
  | .dialog => w.onReceivedMessage S m
  | .ackClient => w
  | .inviteClient r =>
    match w.inviteClients.get r with
    | none => w
    | some t =>
      w.inviteClientDid S r (t.onReceivedMessage (S.connection w.provider.sends) m)
  | .client r =>
    match w.clients.get r with
    | none => w
    | some t => w.clientDid S r (t.onReceivedMessage m)
  | .inviteServer r =>
    match w.inviteServers.get r with
    | none => w
    | some t => w.inviteServerDid S r (t.onReceivedMessage S m)
  | .server r =>
    match w.servers.get r with
    | none => w
    | some t => w.serverDid S r (t.onReceivedMessage m)
  | .cancelServer r =>
    match w.cancelServers.get r with
    | none => w
    | some t => w.cancelServerDid S r (t.onReceivedMessage m)
  | .ackServer r =>
    match w.ackServers.get r with
    | none => w
    | some t => w.ackServerDid r (t.onReceivedMessage m)

/-- A timer of a transaction expires. -/
def expire (w : World) (a : Agent) (n : TimerName) : World :=
  match a with
  | .dialog => w
  | .ackClient => w
  | .inviteClient r =>
    match w.inviteClients.get r with
    | none => w
    | some t => w.inviteClientDid S r (t.expire n)
  | .client r =>
    match w.clients.get r with
    | none => w
    | some t => w.clientDid S r (t.expire n)
  | .inviteServer r =>
    match w.inviteServers.get r with
    | none => w
    | some t => w.inviteServerDid S r (t.expire n)
  | .server r =>
    match w.servers.get r with
    | none => w
    | some t => w.serverDid S r (t.expire n)
  | .cancelServer r =>
    match w.cancelServers.get r with
    | none => w
    | some t => w.cancelServerDid S r (t.expire n)
  | .ackServer r =>
    match w.ackServers.get r with
    | none => w
    | some t => w.ackServerDid r (t.expire n)

/-- `onReceivedMessage` of the provider. -/
def receive (w : World) (m : SipMessage) : World :=
  match w.provider.getListener m with
  | none => w
  | some a => w.deliver S a m

/-! ## Steps -/

/-- The user may call a method: nothing is worked off, or the listener is. -/
def AtUser (w : World) : Prop :=
  match w.stack with
  | [] => True
  | .listener _ :: _ => True
  | .code _ :: _ => False

instance (w : World) : Decidable w.AtUser := by
  unfold AtUser
  split <;> infer_instance

/-- One event. -/
def step (w : World) : Event → World
  | .recv m => if w.stack = [] then w.receive S m else w
  | .timeout a n => if w.stack = [] then w.expire S a n else w
  | .responderTimeout n => if w.stack = [] then w.processTimeout n else w
  | .api a => if w.AtUser then w.call S a else w
  | .ret =>
    match w.stack with
    | [] => w
    | .listener _ :: rest => { w with stack := rest }
    | .code c :: rest => { w with stack := rest }.resume c

/-- `new InviteDialog(sip_provider,invite,listener)`. -/
def ofInvite (invite : SipMessage) : World :=
  (init S).onReceivedMessage S invite

/-- The worlds a run starts from: a dialog that was just made, for a call that the
user makes or waits for, or for an INVITE that was already received. -/
inductive Start : World → Prop where
  | init : Start (init S)
  | ofInvite (invite : Request .invite) : Start (ofInvite S invite)

end World
end SoftPhone
