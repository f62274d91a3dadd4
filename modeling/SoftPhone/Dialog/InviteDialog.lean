import SoftPhone.Dialog.World

/-!
# The handlers of `InviteDialog`

Every method of `InviteDialog` is a function of the world, and so are the few that
`ExtendedInviteDialog` overrides; which of the two classes the dialog has is the
flag `extended` of the stack.

A handler calls its listener last: what the source does after the callback is left
on the stack with `suspend`, in the order in which it has to be worked off.  A
null pointer in the source ends the handler, so the world stays as it was at that
point.
-/

namespace SoftPhone

namespace ReliableProvisionalResponder

/-- `stopResponseRetransmission`. -/
def stop (rr : ReliableProvisionalResponder) : ReliableProvisionalResponder :=
  { rr with retransmissionTo := none, transactionTo := none }

/-- `terminate`. -/
def terminate (rr : ReliableProvisionalResponder) : ReliableProvisionalResponder :=
  { rr.stop with listener := false }

/-- `respond`, the queue: the response is numbered and put at the end. -/
def enqueue (rr : ReliableProvisionalResponder) (resp : SipMessage) :
    ReliableProvisionalResponder :=
  { rr with
    responses := rr.responses ++ [{ resp.addRequired otag100rel with rseq := some rr.rseqCounter }]
    rseqCounter := rr.rseqCounter + 1 }

/-- The timers of the response that is sent next. -/
def startTimers (rr : ReliableProvisionalResponder) : ReliableProvisionalResponder :=
  { rr with
    transactionTo := some (.started transactionTimeout)
    retransmissionTo := some (.started retransmissionTimeout) }

/-- The head of the queue is done with: no timers, and the rest of the queue. -/
def advance (rr : ReliableProvisionalResponder) (rest : List SipMessage) :
    ReliableProvisionalResponder :=
  { rr.stop with responses := rest }

/-- The retransmission timer that follows an expired one. -/
def backOff (rr : ReliableProvisionalResponder) (timer : Timer) :
    ReliableProvisionalResponder :=
  { rr with retransmissionTo := some (.started (min (2 * timer.time) maxRetransmissionTimeout)) }

end ReliableProvisionalResponder

/-- The methods an `ExtendedInviteDialog` leaves to `InviteDialog`. -/
def Method.isBasic : Method → Bool
  | .invite | .ack | .cancel | .bye | .info | .prack => true
  | _ => false

/-- Whether a PRACK acknowledges a reliable provisional response. -/
def SipMessage.acknowledges (prack resp : SipMessage) : Bool :=
  match prack.rack, resp.rseq with
  | some rack, some rseq =>
    rack.cseq == resp.cseq && rack.method == resp.cseqMethod && rack.rseq == rseq
  | _, _ => false

namespace World

variable (S : SipStack)

/-! ## Small steps -/

/-- A request made in the dialog, and the world with the new dialog information. -/
def create (w : World)
    (factory : String → DialogInfo → Option (SipMessage × DialogInfo)) :
    Option (SipMessage × World) :=
  (factory (S.pickBranch w.provider.branches) w.dlg.info).map fun p =>
    (p.1, { w with
      dlg.info := p.2
      provider.branches := w.provider.branches + 1 })

/-- `new TransactionServer(sip_provider,req,null).respondWith(resp)`. -/
def answer (w : World) (req resp : SipMessage) : World :=
  (w.startServer req false).onServer (some w.servers.next) (·.respondWith resp)

/-- `invite_tc.isProceeding()`. -/
def inviteTcProceeding (w : World) : Bool :=
  ((w.dlg.inviteTc.bind w.inviteClients.get).map (·.status)) == some .proceeding

/-- `this.invite_req=invite`. -/
def setInviteReq (w : World) (invite : SipMessage) : World :=
  { w with dlg.inviteReq := some invite }

/-- `invite_ts=...`. -/
def setInviteTs (w : World) (r : ℕ) : World := { w with dlg.inviteTs := some r }

/-- `cancel_ts=...`. -/
def setCancelTs (w : World) (r : ℕ) : World := { w with dlg.cancelTs := some r }

/-- `bye_ts=...`. -/
def setByeTs (w : World) (r : ℕ) : World := { w with dlg.byeTs := some r }

/-- `update_ts=...`. -/
def setUpdateTs (w : World) (r : ℕ) : World := { w with dlg.updateTs := some r }

/-- The reliable responder becomes `rr`. -/
def setResponder (w : World) (rr : ReliableProvisionalResponder) : World :=
  { w with dlg.reliableResponder := some rr }

/-- `setLocalContact`. -/
def setLocalContact (w : World) (contact : NameAddress) : World :=
  { w with dlg.info.localContact := some contact }

/-! ## `ReliableProvisionalResponder` -/

/-- `sendNextResponse`. -/
def sendNextResponse (w : World) : World :=
  match w.dlg.reliableResponder with
  | none => w
  | some rr =>
    match rr.responses with
    | [] => w
    | resp :: _ =>
      (w.setResponder rr.startTimers).onInviteServer (some rr.inviteTs) (·.respondWith resp)

/-- `respond`, on a responder that is made for the current invite server when there
is none yet. -/
def respondReliably (w : World) (resp : SipMessage) : World :=
  match w.dlg.reliableResponder <|>
      w.dlg.inviteTs.map fun r => ({ inviteTs := r } : ReliableProvisionalResponder) with
  | none => w
  | some rr =>
    let w := w.setResponder (rr.enqueue resp)
    if rr.retransmissionTo = none then w.sendNextResponse else w

/-- `processPrack` after the callback. -/
def afterPrack (w : World) : World :=
  match w.dlg.reliableResponder with
  | none => w
  | some rr => if rr.retransmissionTo = none then w.sendNextResponse else w

/-- `processPrack`. -/
def processPrack (w : World) (prack : SipMessage) : World :=
  match w.dlg.reliableResponder with
  | none => w
  | some rr =>
    match rr.responses with
    | [] => w
    | resp :: rest =>
      if prack.acknowledges resp then
        let w := w.observe (.processed prack)
        let w := w.setResponder (rr.advance rest)
        let w := w.answer prack (createResponse S prack 200 none)
        if rr.listener then
          (w.suspend .afterPrack).fire
            (.onDlgInviteReliableProvisionalResponseConfirmed resp prack)
        else w.afterPrack
      else w

/-- `processTimeout`. -/
def processTimeout (w : World) (n : TimerName) : World :=
  match w.dlg.reliableResponder with
  | none => w
  | some rr =>
    match n, rr.retransmissionTo, rr.transactionTo with
    | .retransmission, some timer, _ =>
      if timer.Delivers then
        let w := w.setResponder (rr.backOff timer)
        match rr.responses with
        | [] => w
        | resp :: _ => w.onInviteServer (some rr.inviteTs) (·.respondWith resp)
      else w
    | .transaction, _, some timer =>
      if timer.Delivers then
        match rr.responses with
        | [] => w.setResponder rr.stop
        | resp :: rest =>
          let w := w.setResponder (rr.advance rest)
          if rr.listener then
            (w.suspend .afterResponderTimeout).fire
              (.onDlgInviteReliableProvisionalResponseTimeout resp)
          else w.sendNextResponse
      else w
    | _, _, _ => w

/-! ## `respond` -/

/-- The extension is required by the INVITE, or required here and supported by the
INVITE. -/
def wants100rel (w : World) : Bool :=
  match w.dlg.inviteReq with
  | none => false
  | some invite =>
    invite.requires otag100rel ||
      (w.dlg.isExtensionRequired otag100rel && invite.supports otag100rel)

/-- `respond`, a provisional response to the INVITE. -/
def respondProvisional (w : World) (resp : SipMessage) : World :=
  let w := if S.earlyDialog then w.updateDialogInfo false resp else w
  if resp.code ≠ 100 ∧ w.wants100rel then w.respondReliably resp
  else w.onInviteServer w.dlg.inviteTs (·.respondWith resp)

/-- The session timers of a 2xx: the dialog information and the response. -/
def sessionTimers (info : DialogInfo) (invite resp : SipMessage) : DialogInfo × SipMessage :=
  match invite.supports otagTimer, invite.sessionExpires with
  | true, some sh =>
    let delta :=
      if 0 < info.sessionInterval ∧ info.sessionInterval < sh.deltaSeconds then
        info.sessionInterval
      else sh.deltaSeconds
    ({ info with sessionInterval := delta, refresher := some "uac" },
      { resp.addRequired otagTimer with sessionExpires := some ⟨delta, some "uac"⟩ })
  | timer, _ =>
    if 0 < info.sessionInterval then
      let interval := max (invite.minSE.getD S.minSessionInterval) info.sessionInterval
      ({ info with sessionInterval := interval, refresher := some "uas" },
        { (if timer then resp.addRequired otagTimer else resp) with
          sessionExpires := some ⟨interval, some "uas"⟩ })
    else (info, resp)

/-- `if (reliable_responder!=null) reliable_responder.terminate()`. -/
def terminateResponder (w : World) : World :=
  { w with
    dlg.reliableResponder := w.dlg.reliableResponder.map ReliableProvisionalResponder.terminate }

/-- The supported extensions are put into a 2xx. -/
def addSupported (w : World) (resp : SipMessage) : SipMessage :=
  if w.dlg.supportedOptionTags = [] then resp
  else { resp with supportedTags := some w.dlg.supportedOptionTags }

/-- The `AckTransactionServer` of the dialog, started. -/
def startDialogAckServer (w : World) (conn : Option ConnectionId) (invite : SipMessage)
    (p : DialogInfo × SipMessage) : World :=
  { w with dlg.info := p.1, dlg.ackTs := some w.ackServers.next }.startAckServer conn invite p.2

/-- `respond`, a 2xx to the INVITE: the invite server is terminated and an
`AckTransactionServer` sends the response. -/
def respondSuccess (w : World) (resp : SipMessage) : World :=
  let w := w.changeStatus (if w.status = .invited then .accepted else .reAccepted)
  let conn := (w.dlg.inviteTs.bind w.inviteServers.get).bind (·.connectionId)
  let w := (w.onInviteServer w.dlg.inviteTs (·.terminate)).terminateResponder
  match w.dlg.inviteReq with
  | none => w
  | some invite =>
    w.startDialogAckServer conn invite (sessionTimers S w.dlg.info invite resp)

/-- `respond`, a failure response to the INVITE. -/
def respondFailure (w : World) (resp : SipMessage) : World :=
  (w.changeStatus (if w.status = .invited then .refused else .reRefused)).onInviteServer
    w.dlg.inviteTs (·.respondWith resp)

/-- `respond`, for CSeq method INVITE.  A code below 100 ends in the last branch,
like a failure, but without an update of the dialog. -/
def respondInvite (w : World) (resp : SipMessage) : World :=
  if w.status.IsInvited then
    let resp := { resp with passedFor := w.dlg.inviteTs }
    if 100 ≤ resp.code ∧ resp.code < 200 then w.respondProvisional S resp
    else
      let w := if 200 ≤ resp.code then w.updateDialogInfo false resp else w
      if 200 ≤ resp.code ∧ resp.code < 300 then
        w.respondSuccess S (w.addSupported resp)
      else w.respondFailure resp
  else w

/-- `InviteDialog.respond(resp)`. -/
def inviteDialogRespond (w : World) (resp : SipMessage) : World :=
  match resp.getTransactionMethod with
  | .invite => w.respondInvite S resp
  | .update =>
    if w.status.isEarly || w.status.isConfirmed then
      (w.updateDialogInfo false resp).onServer w.dlg.updateTs (·.respondWith resp)
    else w
  | .bye => if w.status = .byed then w.onServer w.dlg.byeTs (·.respondWith resp) else w
  | _ => w

/-- `respond(resp)`; an `ExtendedInviteDialog` looks the server transaction up. -/
def respond (w : World) (resp : SipMessage) : World :=
  let method := resp.getTransactionMethod
  if S.extended ∧ method ≠ .invite ∧ method ≠ .cancel ∧ method ≠ .bye then
    w.onServer (w.dlg.transactions (.transactionServer resp)) (·.respondWith resp)
  else w.inviteDialogRespond S resp

/-! ## Requests -/

/-- `processInviteMessage`: a response that refuses an INVITE with unsupported
extensions. -/
def processInviteMessage (w : World) (invite : SipMessage) : Option SipMessage :=
  match invite.requireTags with
  | none => none
  | some tags =>
    let unsupported := tags.filter fun tag => !w.dlg.isExtensionSupported tag
    if unsupported = [] then none
    else some { createResponse S invite 420 none with unsupportedTags := some unsupported }

/-- `onReceivedMessage`, an INVITE.  The state is only verified, not acted upon. -/
def onReceivedInvite (w : World) (m : SipMessage) : World :=
  let r := w.inviteServers.next
  let w := w.observe (.processed m)
  let w := w.changeStatus (if w.status = .init then .invited else .reInvited)
  let w := (w.setInviteReq m).updateDialogInfo false m
  let w := (w.setInviteTs r).startInviteServer S m
  match w.processInviteMessage S m with
  | some resp => w.respond S resp
  | none =>
    let w := (w.setCancelTs r).startCancelServer r m
    if w.status = .invited then w.fire (.onDlgInvite m) else w.fire (.onDlgReInvite m)

/-- `onReceivedMessage`, an ACK. -/
def onReceivedAck (w : World) (m : SipMessage) : World :=
  if w.status.IsAccepted then
    let w := w.changeStatus .call
    let w := w.onAckServer w.dlg.ackTs (·.terminate)
    let w := w.onCancelServer w.dlg.cancelTs (·.terminate)
    (w.suspend .fireDlgCall).fire (.onDlgAck m)
  else w

/-- `onReceivedMessage`, a BYE. -/
def onReceivedBye (w : World) (m : SipMessage) : World :=
  if w.status = .call ∨ w.status = .byeing then
    let w := (w.observe (.processed m)).changeStatus .byed
    let w := (w.setByeTs w.servers.next).startServer m true
    let w := w.respond S (createResponse S m 200 none)
    (w.suspend .closeAfterBye).fire (.onDlgBye m)
  else w

/-- `onReceivedMessage`, an INFO. -/
def onReceivedInfo (w : World) (m : SipMessage) : World :=
  let w := (w.observe (.processed m)).answer m (createResponse S m 200 none)
  if m.contentType.isSome then w.fire (.onDlgInfo m) else w

/-- `onReceivedMessage`, an UPDATE. -/
def onReceivedUpdate (w : World) (m : SipMessage) : World :=
  let w := (w.observe (.processed m)).updateDialogInfo false m
  ((w.setUpdateTs w.servers.next).startServer m false).fire (.onDlgUpdate m)

/-- The Session-Expires header asks for less than the minimum. -/
def sessionTooShort (m : SipMessage) : Bool :=
  m.supports otagTimer &&
    match m.sessionExpires with
    | none => false
    | some sh => sh.deltaSeconds < S.minSessionInterval

/-- A request other than ACK and CANCEL whose CSeq is not above the remote one. -/
def tooLate (w : World) (m : SipMessage) : Bool :=
  !(m.is .ack || m.is .cancel) && m.cseq ≤ w.dlg.info.remoteCSeq

/-- `onReceivedMessage`, a request. -/
def onReceivedRequest (w : World) (m : SipMessage) : World :=
  if w.tooLate m then w
  else if sessionTooShort S m then
    w.answer m { createResponse S m 422 none with minSE := some S.minSessionInterval }
  else
    match m.requestMethod with
    | some .invite => w.onReceivedInvite S m
    | some .ack => w.onReceivedAck m
    | some .bye => w.onReceivedBye S m
    | some .info => w.onReceivedInfo S m
    | some .prack => w.processPrack S m
    | some .update => w.onReceivedUpdate m
    | _ => w.answer m (createResponse S m 405 none)

/-- `onReceivedMessage`, a response: the last ACK is sent again, whatever the response
is. -/
def onReceivedResponse (w : World) : World :=
  if w.status = .call then
    match w.dlg.ackReq with
    | none => w
    | some ack => w.startAckClient ack
  else w

/-- `InviteDialog.onReceivedMessage`. -/
def inviteDialogOnReceivedMessage (w : World) (m : SipMessage) : World :=
  if m.isRequest then w.onReceivedRequest S m else w.onReceivedResponse

/-- `ExtendedInviteDialog.onReceivedMessage`, the requests that it does not leave to
`InviteDialog`. -/
def onReceivedAltRequest (w : World) (m : SipMessage) : World :=
  let w := (w.observe (.processed m))
  let w := { w with
    dlg.transactions :=
      Function.update w.dlg.transactions (.transactionServer m) (some w.servers.next) }.startServer
        m true
  match m.requestMethod with
  | some .refer => if m.referTo.isSome then w.fire (.onDlgRefer m) else w
  | some .notify =>
    let w := w.respond S (createResponse S m 200 none)
    if m.event.isSome then w.fire (.onDlgNotify m) else w
  | _ => w.fire (.onDlgAltRequest m)

/-- `onReceivedMessage`. -/
def onReceivedMessage (w : World) (m : SipMessage) : World :=
  match S.extended, m.requestMethod with
  | true, some method =>
    if method.isBasic then w.inviteDialogOnReceivedMessage S m else w.onReceivedAltRequest S m
  | _, _ => w.inviteDialogOnReceivedMessage S m

/-! ## Callbacks of the client transactions -/

/-- `confirm1xx(prack)`. -/
def confirm1xx (w : World) (prack : SipMessage) : World :=
  if prack.is .prack then w.startClient S prack false else w

/-- `confirm1xx(resp_1xx,content_type,body)`. -/
def confirm1xxOf (w : World) (resp : SipMessage) (contentType body : Option String) : World :=
  match w.create S fun branch info => createPrackRequest branch info resp contentType body with
  | none => w
  | some (prack, w) => w.confirm1xx S prack

/-- `onTransProvisionalResponse`, a reliable response that was not seen before. -/
def onReliableResponse (w : World) (rseq : ℤ) (m : SipMessage) : World :=
  let w := { w with dlg.info.lastRSeq := rseq }
  if S.autoPrack then
    match w.create S fun branch info => createPrackRequest branch info m none none with
    | none => w
    | some (prack, w) => (w.confirm1xx S prack).fire (.onDlgInviteReliableProvisionalResponse m)
  else w.fire (.onDlgInviteReliableProvisionalResponse m)

/-- `onTransProvisionalResponse`. -/
def onTransProvisionalResponse (w : World) (method : Method) (m : SipMessage) : World :=
  if method = .invite then
    let w := if S.earlyDialog then w.updateDialogInfo true m else w
    match m.requires otag100rel, m.rseq with
    | true, some rseq =>
      if w.dlg.info.lastRSeq < 0 ∨ w.dlg.info.lastRSeq < rseq then w.onReliableResponse S rseq m
      else w
    | _, _ => w.fire (.onDlgInviteProvisionalResponse m)
  else w

/-- `onTransFailureResponse`, for the INVITE. -/
def onInviteFailureResponse (w : World) (m : SipMessage) : World :=
  if w.status = .reInviting then
    (w.changeStatus .call).fire (.onDlgReInviteFailureResponse m)
  else if w.status = .inviting then
    ((w.changeStatus .close).suspend .fireDlgClosed).fire
      (if 300 ≤ m.code ∧ m.code < 400 then .onDlgInviteRedirectResponse m
      else .onDlgInviteFailureResponse m)
  else w

/-- `InviteDialog.onTransFailureResponse`. -/
def inviteDialogOnTransFailureResponse (w : World) (method : Method) (m : SipMessage) : World :=
  match method with
  | .invite => w.onInviteFailureResponse m
  | .update =>
    if w.status.isEarly || w.status.isConfirmed then w.fire (.onDlgUpdateResponse m) else w
  | .bye =>
    if w.status = .byeing then (w.changeStatus .call).fire (.onDlgByeFailureResponse m) else w
  | _ => w

/-- `ack_req=ack`, and the ACK is sent. -/
def sendAck (w : World) (ack : SipMessage) : World :=
  { w with dlg.ackReq := some ack }.startAckClient ack

/-- `inv2xx_resp=msg`. -/
def setInv2xxResp (w : World) (m : SipMessage) : World :=
  { w with dlg.inv2xxResp := some m }

/-- `onTransSuccessResponse`, the acknowledgement of a 2xx for the INVITE: the ACK, or
the 2xx is kept until the user has an answer to the offer in it. -/
def acknowledge (w : World) (m : SipMessage) : Option World :=
  if w.dlg.inviteOffer then
    (w.create S fun branch info => create2xxAckRequest branch info m none none).map fun p =>
      p.2.sendAck p.1
  else some (w.setInv2xxResp m)

/-- `onTransSuccessResponse`, the callbacks for a 2xx for the INVITE. -/
def fireSuccess (w : World) (reInviting : Bool) (m : SipMessage) : World :=
  if reInviting then (w.suspend (.sessionTimers m)).fire (.onDlgReInviteSuccessResponse m)
  else ((w.suspend (.sessionTimers m)).suspend .fireDlgCall).fire (.onDlgInviteSuccessResponse m)

/-- `onTransSuccessResponse`, for the INVITE. -/
def onInviteSuccessResponse (w : World) (m : SipMessage) : World :=
  if w.status.IsInviting ∧ 200 ≤ m.code ∧ m.code < 300 ∧ m.getTransactionMethod = .invite then
    let reInviting := w.status == .reInviting
    let w := (w.changeStatus .call).updateDialogInfo true m
    match w.acknowledge S m with
    | none => w
    | some w => w.fireSuccess reInviting m
  else w

/-- `InviteDialog.onTransSuccessResponse`. -/
def inviteDialogOnTransSuccessResponse (w : World) (method : Method) (m : SipMessage) : World :=
  match method with
  | .invite => w.onInviteSuccessResponse S m
  | .update =>
    if w.status.isEarly || w.status.isConfirmed then
      (w.updateDialogInfo true m).fire (.onDlgUpdateResponse m)
    else w
  | .bye =>
    if w.status = .byeing then
      ((w.changeStatus .close).suspend .fireDlgClosed).fire (.onDlgByeSuccessResponse m)
    else w
  | _ => w

/-- `InviteDialog.onTransTimeout`. -/
def inviteDialogOnTransTimeout (w : World) (method : Method) : World :=
  match method with
  | .invite =>
    if w.status.IsInviting then
      ((w.changeStatus .close).suspend .fireDlgClosed).fire .onDlgInviteTimeout
    else w
  | .bye => if w.status = .byeing then (w.changeStatus .close).fire .onDlgClosed else w
  | _ => w

/-! ## Callbacks of the client transactions, as `ExtendedInviteDialog` has them -/

/-- `MAX_ATTEMPTS`. -/
def maxAttempts : ℕ := 3

/-- The challenge that a 401 or 407 is answered with credentials for. -/
def challenge (w : World) (m : SipMessage) : Option Challenge :=
  if w.dlg.attempts < maxAttempts then
    if m.code = 401 then m.wwwAuthenticate
    else if m.code = 407 then m.proxyAuthenticate
    else none
  else none

/-- The request sent again with credentials: the next CSeq, a new branch. -/
def authorized (branch : String) (req m : SipMessage) (ch : Challenge) : SipMessage :=
  let credentials : Credentials :=
    { method := req.requestMethod.getD req.cseqMethod
      uri := req.requestUri.getD ⟨"", "", false⟩
      challenge := ch
      qop := ch.qopOptions.map fun _ => "auth"
      username := S.username
      passwd := S.passwd }
  let req := { req with cseq := req.cseq + 1, branch := some branch }
  if m.code = 401 then { req with authorization := some credentials }
  else { req with proxyAuthorization := some credentials }

/-- `onTransFailureResponse`, the authentication.  A challenge without realm has a
null pointer here, and so have, once the branch is picked, a missing user name and a
challenge without nonce. -/
def authenticate (w : World) (req m : SipMessage) (ch : Challenge) : World :=
  let w := { w with dlg.attempts := w.dlg.attempts + 1 }
  if ch.realm = none then w
  else
    let req := authorized S (S.pickBranch w.provider.branches) req m ch
    let w := { w with provider.branches := w.provider.branches + 1 }
    if S.username = none ∨ ch.nonce = none then w
    else if req.is .invite then w.startInviteClient S req
    else w.startClient S req true

/-- The methods whose responses an `ExtendedInviteDialog` leaves to `InviteDialog`. -/
def leftToInviteDialog (method : Method) : Bool :=
  method == .invite || method == .cancel || method == .bye

/-- The response to a request of another method. -/
def onAltResponse (w : World) (method : Method) (m : SipMessage) : World :=
  w.fire (if method = .refer then .onDlgReferResponse m else .onDlgAltResponse m)

/-- `onTransFailureResponse`; `req` is the request of the transaction. -/
def onTransFailureResponse (w : World) (req m : SipMessage) : World :=
  let method := req.getTransactionMethod
  if S.extended then
    match w.challenge m with
    | some ch => w.authenticate S req m ch
    | none =>
      if leftToInviteDialog method then w.inviteDialogOnTransFailureResponse method m
      else w.onAltResponse method m
  else w.inviteDialogOnTransFailureResponse method m

/-- `onTransSuccessResponse`. -/
def onTransSuccessResponse (w : World) (req m : SipMessage) : World :=
  let method := req.getTransactionMethod
  if S.extended then
    let w := { w with dlg.attempts := 0 }
    if leftToInviteDialog method then w.inviteDialogOnTransSuccessResponse S method m
    else w.onAltResponse method m
  else w.inviteDialogOnTransSuccessResponse S method m

/-- `onTransTimeout`. -/
def onTransTimeout (w : World) (req : SipMessage) : World :=
  w.inviteDialogOnTransTimeout req.getTransactionMethod

/-- The callback of a client transaction whose request is `req`. -/
def onClientCallback (w : World) (req : SipMessage) : ClientCallback → World
  | .onTransProvisionalResponse m => w.onTransProvisionalResponse S req.getTransactionMethod m
  | .onTransSuccessResponse m => w.onTransSuccessResponse S req m
  | .onTransFailureResponse m => w.onTransFailureResponse S req m
  | .onTransTimeout => w.onTransTimeout req

/-! ## Callbacks of the server transactions -/

/-- `onTransRequest`, the INVITE that a listening dialog was waiting for. -/
def onTransRequestInvite (w : World) (m : SipMessage) : World :=
  if w.status = .waiting then
    let w := (w.observe (.processed m)).changeStatus .invited
    let w := (w.setInviteReq m).updateDialogInfo false m
    match w.processInviteMessage S m with
    | some resp => w.respond S resp
    | none => w.fire (.onDlgInvite m)
  else w

/-- `onTransRequest`, a CANCEL, after its 200: the INVITE is answered with 487. -/
def onTransRequestCancel (w : World) (m : SipMessage) : World :=
  if w.status.IsInvited then
    match w.dlg.inviteReq with
    | none => w
    | some invite => (w.respond S (createResponse S invite 487 none)).fire (.onDlgCancel m)
  else w

/-- `onTransRequest`; `ts` is the server transaction. -/
def onTransRequest (w : World) (ts : Agent) (m : SipMessage) : World :=
  match m.getTransactionMethod with
  | .invite => w.onTransRequestInvite S m
  | .cancel =>
    let resp := createResponse S m 200 none
    let w := match ts with
      | .inviteServer r => w.onInviteServer (some r) (·.respondWith resp)
      | .cancelServer r => w.onCancelServer (some r) (·.respondWith resp)
      | .server r => w.onServer (some r) (·.respondWith resp)
      | _ => w
    w.onTransRequestCancel S m
  | _ => w

/-- `onTransFailureAck`. -/
def onTransFailureAck (w : World) : World :=
  if w.status.IsRefused then
    let w := w.onCancelServer w.dlg.cancelTs (·.terminate)
    if w.status = .reRefused then w.changeStatus .call
    else (w.changeStatus .close).fire .onDlgClosed
  else w

/-- The callback of a server transaction. -/
def onServerCallback (w : World) (ts : Agent) : ServerCallback → World
  | .onTransRequest m => w.onTransRequest S ts m
  | .onTransFailureAck _ => w.onTransFailureAck

/-- `onTransAckTimeout`. -/
def onTransAckTimeout (w : World) : World :=
  if w.status.IsAccepted ∨ w.status.IsRefused then (w.changeStatus .close).fire .onDlgClosed
  else w

/-! ## After a callback -/

/-- `onTransSuccessResponse` after its callbacks. -/
def readSessionTimers (w : World) (m : SipMessage) : World :=
  match m.sessionExpires with
  | none => w
  | some sh => { w with
      dlg.info.sessionInterval := sh.deltaSeconds
      dlg.info.refresher := sh.refresher }

/-- Run code that was left on the stack. -/
def resume (w : World) : Rest → World
  | .inviteClient r rest => w.onInviteClient (some r) (·.resume rest)
  | .client r rest => w.onClient (some r) (·.resume rest)
  | .inviteServer r rest => w.onInviteServer (some r) fun t => (t.resume rest, [])
  | .fireDlgCall => w.fire .onDlgCall
  | .fireDlgClosed => w.fire .onDlgClosed
  | .closeAfterBye => (w.changeStatus .close).fire .onDlgClosed
  | .sessionTimers m => w.readSessionTimers m
  | .afterPrack => w.afterPrack
  | .afterResponderTimeout => w.sendNextResponse

end World
end SoftPhone
