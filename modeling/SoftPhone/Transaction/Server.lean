import SoftPhone.Transaction.Basic

/-!
# Server transactions

`TransactionServer` is the generic server transaction, made for a request or made
listening; a `CancelTransactionServer` is one that listens under the identifier of
the CANCEL for a given request.  `InviteTransactionServer` is the one for INVITE up
to a failure response and its ACK.  `AckTransactionServer` takes over after a 2xx:
it sends the 2xx, and would send it again until somebody terminates it.
-/

namespace SoftPhone

/-! ## `TransactionServer` -/

/-- Class `TransactionServer`. -/
structure TransactionServer where
  status : TransactionStatus := .idle
  /-- Missing in a server that is still listening. -/
  request : Option SipMessage := none
  transactionId : SipId
  connectionId : Option ConnectionId := none
  /-- `transaction_listener!=null`. -/
  listener : Bool
  response : Option SipMessage := none
  clearingTo : Timer := .placeholder transactionTimeout
  deriving DecidableEq, Repr

namespace TransactionServer

/-- `new TransactionServer(provider,req,listener)`, which starts at once. -/
def new (req : SipMessage) (listener : Bool) : TransactionServer × List ProviderCall :=
  ({ status := .trying
     request := some req
     transactionId := .transactionServer req
     connectionId := req.connectionId
     listener := listener },
    [.addSelectiveListener (.transactionServer req)])

/-- `new CancelTransactionServer(sip_provider,req,listener)`. -/
def newCancel (req : SipMessage) (listener : Bool) : TransactionServer where
  transactionId := .cancelServer req
  listener := listener

/-- `listen`. -/
def listen (t : TransactionServer) : TransactionServer × List ProviderCall :=
  if t.status = .idle then
    ({ t with status := .waiting }, [.addSelectiveListener t.transactionId])
  else (t, [])

/-- `doTerminate`. -/
def doTerminate (t : TransactionServer) : TransactionServer × List ProviderCall :=
  if t.status = .terminated then (t, [])
  else
    ({ t with clearingTo := t.clearingTo.halt, status := .terminated },
      [.removeSelectiveListener t.transactionId])

/-- `terminate`. -/
def terminate (t : TransactionServer) : TransactionServer × List ProviderCall :=
  ({ t.doTerminate.1 with listener := false }, t.doTerminate.2)

/-- What `respondWith` does after a final response was sent. -/
def complete (t : TransactionServer) : TransactionServer × List ProviderCall :=
  let t := { t with status := .completed }
  -- over a reliable transport the clearing timeout is zero
  if t.connectionId = none then ({ t with clearingTo := .started t.clearingTo.time }, [])
  else t.doTerminate

/-- `respondWith`. -/
def respondWith (t : TransactionServer) (resp : SipMessage) :
    TransactionServer × List ProviderCall :=
  let resp := { resp with connectionId := t.connectionId }
  let t := { t with response := some resp }
  if t.status.isPending then
    if 100 ≤ resp.code ∧ resp.code < 200 then
      ({ t with status := .proceeding }, [.sendMessage resp])
    else if 200 ≤ resp.code ∧ resp.code < 700 then
      (t.complete.1, .sendMessage resp :: t.complete.2)
    else (t, [.sendMessage resp])
  else (t, [])

/-- A listening server becomes the server of `m`. -/
def begin (t : TransactionServer) (m : SipMessage) :
    TransactionServer × List ProviderCall :=
  ({ t with
      status := .trying
      request := some m
      connectionId := m.connectionId
      transactionId := .transactionServer m },
    if SipId.transactionServer m = t.transactionId then []
    else [.removeSelectiveListener t.transactionId,
      .addSelectiveListener (.transactionServer m)])

/-- `onReceivedMessage`, up to the callback. -/
def onReceivedMessage (t : TransactionServer) (m : SipMessage) :
    Outcome TransactionServer ServerCallback ServerRest :=
  if m.isRequest then
    if t.status = .waiting then
      { self := (t.begin m).1
        calls := (t.begin m).2
        callback := if t.listener then some (.onTransRequest m) else none }
    else if t.status = .proceeding ∨ t.status = .completed then
      -- retransmission of the last response
      { self := t, calls := t.response.toList.map .sendMessage }
    else { self := t }
  else { self := t }

/-- `onTimeout(to)`. -/
def onTimeout (t : TransactionServer) :
    TimerName → Outcome TransactionServer ServerCallback ServerRest
  | .clearing => { self := t.doTerminate.1, calls := t.doTerminate.2 }
  | _ => { self := t }

/-- The timer held in a field expires. -/
def expire (t : TransactionServer) :
    TimerName → Outcome TransactionServer ServerCallback ServerRest
  | .clearing =>
    let halted := { t with clearingTo := t.clearingTo.halt }
    t.clearingTo.expire t halted (halted.onTimeout .clearing)
  | _ => { self := t }

end TransactionServer

/-! ## `InviteTransactionServer` -/

/-- Class `InviteTransactionServer`. -/
structure InviteTransactionServer where
  status : TransactionStatus := .idle
  /-- Missing in a server that is still listening. -/
  request : Option SipMessage := none
  transactionId : SipId
  connectionId : Option ConnectionId := none
  /-- `invite_ts_listener!=null`. -/
  listener : Bool
  response : Option SipMessage := none
  autoTrying : Bool
  retransmissionTo : Timer := .placeholder retransmissionTimeout
  endTo : Timer := .placeholder transactionTimeout
  clearingTo : Timer := .placeholder clearingTimeout
  deriving DecidableEq, Repr

namespace InviteTransactionServer

/-- `new InviteTransactionServer(sip_provider,listener)`: it waits for any
INVITE. -/
def newListening (S : SipStack) (listener : Bool) : InviteTransactionServer where
  transactionId := .method .invite
  listener := listener
  autoTrying := S.autoTrying

/-- `listen`. -/
def listen (t : InviteTransactionServer) : InviteTransactionServer × List ProviderCall :=
  if t.status = .idle then
    ({ t with status := .waiting }, [.addSelectiveListener t.transactionId])
  else (t, [])

/-- `doTerminate`. -/
def doTerminate (t : InviteTransactionServer) :
    InviteTransactionServer × List ProviderCall :=
  if t.status = .terminated then (t, [])
  else
    ({ t with
        retransmissionTo := t.retransmissionTo.halt
        clearingTo := t.clearingTo.halt
        endTo := t.endTo.halt
        status := .terminated },
      [.removeSelectiveListener t.transactionId])

/-- `terminate`. -/
def terminate (t : InviteTransactionServer) :
    InviteTransactionServer × List ProviderCall :=
  ({ t.doTerminate.1 with listener := false }, t.doTerminate.2)

/-- What `respondWith` does after a failure response was sent: Timer H always,
Timer G over an unreliable transport only. -/
def complete (t : InviteTransactionServer) : InviteTransactionServer :=
  { t with
    status := .completed
    retransmissionTo :=
      if t.connectionId = none then .started t.retransmissionTo.time else t.retransmissionTo
    endTo := .started t.endTo.time }

/-- `respondWith`. -/
def respondWith (t : InviteTransactionServer) (resp : SipMessage) :
    InviteTransactionServer × List ProviderCall :=
  let resp := { resp with connectionId := t.connectionId }
  let t := { t with response := some resp }
  if t.status.isPending then
    if 100 ≤ resp.code ∧ resp.code < 200 then
      ({ t with status := .proceeding }, [.sendMessage resp])
    else if 200 ≤ resp.code ∧ resp.code < 300 then
      (t.terminate.1, .sendMessage resp :: t.terminate.2)
    else if 300 ≤ resp.code ∧ resp.code < 700 then
      (t.complete, [.sendMessage resp])
    else (t, [.sendMessage resp])
  else (t, [])

/-- The server is in TRYING: send "100 Trying" when that is automatic. -/
def tryInvite (S : SipStack) (t : InviteTransactionServer) (invite : SipMessage) :
    InviteTransactionServer × List ProviderCall :=
  if t.autoTrying then t.respondWith (createResponse S invite 100 none) else (t, [])

/-- The server of the INVITE `invite`, in TRYING. -/
def ofInvite (S : SipStack) (invite : SipMessage) (listener : Bool) :
    InviteTransactionServer where
  status := .trying
  request := some invite
  transactionId := .transactionServer invite
  connectionId := invite.connectionId
  listener := listener
  autoTrying := S.autoTrying

/-- `new InviteTransactionServer(sip_provider,invite,listener)`. -/
def new (S : SipStack) (invite : SipMessage) (listener : Bool) :
    InviteTransactionServer × List ProviderCall :=
  let t := ofInvite S invite listener
  ((t.tryInvite S invite).1,
    .addSelectiveListener t.transactionId :: (t.tryInvite S invite).2)

/-- A listening server becomes the server of `m`. -/
def begin (S : SipStack) (t : InviteTransactionServer) (m : SipMessage) :
    InviteTransactionServer × List ProviderCall :=
  let t' := { t with
    status := .trying
    request := some m
    connectionId := m.connectionId
    transactionId := .transactionServer m }
  ((t'.tryInvite S m).1,
    .removeSelectiveListener t.transactionId ::
      .addSelectiveListener t'.transactionId :: (t'.tryInvite S m).2)

/-- `onReceivedMessage`, up to the callback. -/
def onReceivedMessage (S : SipStack) (t : InviteTransactionServer) (m : SipMessage) :
    Outcome InviteTransactionServer ServerCallback ServerRest :=
  if m.is .invite then
    if t.status = .waiting then
      { self := (t.begin S m).1
        calls := (t.begin S m).2
        callback := if t.listener then some (.onTransRequest m) else none }
    else if t.status = .proceeding ∨ t.status = .completed then
      -- retransmission of the last response
      { self := t, calls := t.response.toList.map .sendMessage }
    else { self := t }
  else if m.is .ack ∧ t.status = .completed then
    { self := { t with
        retransmissionTo := t.retransmissionTo.halt
        endTo := t.endTo.halt
        status := .confirmed }
      callback := if t.listener then some (.onTransFailureAck m) else none
      rest := some .startClearing }
  else { self := t }

/-- What `onReceivedMessage` does after the callback for an ACK. -/
def resume (t : InviteTransactionServer) : ServerRest → InviteTransactionServer
  | .startClearing => { t with clearingTo := .started t.clearingTo.time }

/-- `onTimeout(to)`. -/
def onTimeout (t : InviteTransactionServer) :
    TimerName → Outcome InviteTransactionServer ServerCallback ServerRest
  | .retransmission =>
    if t.status = .completed then
      { self := { t with
          retransmissionTo :=
            .started (min (2 * t.retransmissionTo.time) maxRetransmissionTimeout) }
        calls := t.response.toList.map .sendMessage }
    else { self := t }
  | .ending =>
    if t.status = .completed then { self := t.terminate.1, calls := t.terminate.2 }
    else { self := t }
  | .clearing =>
    if t.status = .confirmed then { self := t.terminate.1, calls := t.terminate.2 }
    else { self := t }
  | .transaction => { self := t }

/-- The timer held in a field. -/
def timer (t : InviteTransactionServer) : TimerName → Option Timer
  | .retransmission => some t.retransmissionTo
  | .ending => some t.endTo
  | .clearing => some t.clearingTo
  | .transaction => none

/-- Stop the timer held in a field. -/
def haltTimer (t : InviteTransactionServer) : TimerName → InviteTransactionServer
  | .retransmission => { t with retransmissionTo := t.retransmissionTo.halt }
  | .ending => { t with endTo := t.endTo.halt }
  | .clearing => { t with clearingTo := t.clearingTo.halt }
  | .transaction => t

/-- The timer held in a field expires. -/
def expire (t : InviteTransactionServer) (n : TimerName) :
    Outcome InviteTransactionServer ServerCallback ServerRest :=
  match t.timer n with
  | some timer => timer.expire t (t.haltTimer n) ((t.haltTimer n).onTimeout n)
  | none => { self := t }

end InviteTransactionServer

/-! ## `AckTransactionServer` -/

/-- Class `AckTransactionServer`. -/
structure AckTransactionServer where
  status : TransactionStatus := .idle
  transactionId : SipId
  connectionId : Option ConnectionId := none
  /-- `transaction_listener!=null`. -/
  listener : Bool
  response : SipMessage
  retransmissionTo : Timer := .placeholder retransmissionTimeout
  transactionTo : Timer := .placeholder transactionTimeout
  deriving DecidableEq, Repr

namespace AckTransactionServer

/-- `new AckTransactionServer(sip_provider,connection_id,invite,resp,listener)`. -/
def new (connectionId : Option ConnectionId) (invite resp : SipMessage) (listener : Bool) :
    AckTransactionServer where
  transactionId := .transactionServer invite
  connectionId := connectionId
  listener := listener
  response := { resp with connectionId := connectionId }

/-- `respond`.  The timers that are started are the placeholders. -/
def respond (t : AckTransactionServer) : AckTransactionServer × List ProviderCall :=
  ({ t with
      status := .proceeding
      transactionTo := t.transactionTo.start
      retransmissionTo :=
        if t.connectionId = none then t.retransmissionTo.start else t.retransmissionTo },
    [.addSelectiveListener t.transactionId, .sendMessage t.response])

/-- `doTerminate`. -/
def doTerminate (t : AckTransactionServer) : AckTransactionServer × List ProviderCall :=
  if t.status = .terminated then (t, [])
  else
    ({ t with
        status := .terminated
        retransmissionTo := t.retransmissionTo.halt
        transactionTo := t.transactionTo.halt },
      [.removeSelectiveListener t.transactionId])

/-- `terminate`. -/
def terminate (t : AckTransactionServer) : AckTransactionServer × List ProviderCall :=
  ({ t.doTerminate.1 with listener := false }, t.doTerminate.2)

/-- `onReceivedMessage`. -/
def onReceivedMessage (t : AckTransactionServer) (m : SipMessage) :
    Outcome AckTransactionServer AckServerCallback ServerRest :=
  { self := t
    calls := if t.status = .proceeding ∧ m.is .invite then [.sendMessage t.response] else [] }

/-- `onTimeout(to)`, up to the callback. -/
def onTimeout (t : AckTransactionServer) :
    TimerName → Outcome AckTransactionServer AckServerCallback ServerRest
  | .retransmission =>
    if t.status = .proceeding then
      { self := { t with
          retransmissionTo :=
            .started (min (2 * t.retransmissionTo.time) maxRetransmissionTimeout) }
        calls := [.sendMessage t.response] }
    else { self := t }
  | .transaction =>
    if t.status = .proceeding then
      { self := t.doTerminate.1
        calls := t.doTerminate.2
        callback := if t.listener then some .onTransAckTimeout else none }
    else { self := t }
  | _ => { self := t }

/-- The timer held in a field. -/
def timer (t : AckTransactionServer) : TimerName → Option Timer
  | .retransmission => some t.retransmissionTo
  | .transaction => some t.transactionTo
  | _ => none

/-- Stop the timer held in a field. -/
def haltTimer (t : AckTransactionServer) : TimerName → AckTransactionServer
  | .retransmission => { t with retransmissionTo := t.retransmissionTo.halt }
  | .transaction => { t with transactionTo := t.transactionTo.halt }
  | _ => t

/-- The timer held in a field expires. -/
def expire (t : AckTransactionServer) (n : TimerName) :
    Outcome AckTransactionServer AckServerCallback ServerRest :=
  match t.timer n with
  | some timer => timer.expire t (t.haltTimer n) ((t.haltTimer n).onTimeout n)
  | none => { self := t }

end AckTransactionServer

end SoftPhone
