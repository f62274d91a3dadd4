import SoftPhone.Transaction.Basic

/-!
# Client transactions

`TransactionClient` is the generic client transaction, `InviteTransactionClient`
the one for INVITE.  They differ where the protocol does: the INVITE client stops
its timers at the first provisional response, acknowledges failure responses
itself, and terminates on a 2xx.
-/

namespace SoftPhone

/-! ## `TransactionClient` -/

/-- Class `TransactionClient`. -/
structure TransactionClient where
  status : TransactionStatus := .idle
  request : SipMessage
  transactionId : SipId
  connectionId : Option ConnectionId := none
  /-- `transaction_listener!=null`. -/
  listener : Bool
  retransmissionTo : Timer := .placeholder retransmissionTimeout
  transactionTo : Timer := .placeholder transactionTimeout
  clearingTo : Timer := .placeholder clearingTimeout
  deriving DecidableEq, Repr

namespace TransactionClient

/-- `new TransactionClient(sip_provider,req,listener)`. -/
def new (req : SipMessage) (listener : Bool) : TransactionClient where
  request := req
  transactionId := .transactionClient req
  listener := listener

/-- `request()`; `conn` is what `sendMessage` returns. -/
def start (t : TransactionClient) (conn : Option ConnectionId) :
    TransactionClient × List ProviderCall :=
  ({ t with
      status := .trying
      transactionTo := .started t.transactionTo.time
      connectionId := conn
      retransmissionTo := .started t.retransmissionTo.time },
    [.addSelectiveListener t.transactionId, .sendMessage t.request])

/-- `doTerminate`. -/
def doTerminate (t : TransactionClient) : TransactionClient × List ProviderCall :=
  if t.status = .terminated then (t, [])
  else
    ({ t with
        retransmissionTo := t.retransmissionTo.halt
        transactionTo := t.transactionTo.halt
        clearingTo := t.clearingTo.halt
        status := .terminated },
      [.removeSelectiveListener t.transactionId])

/-- `terminate`. -/
def terminate (t : TransactionClient) : TransactionClient × List ProviderCall :=
  ({ t.doTerminate.1 with listener := false }, t.doTerminate.2)

/-- The callback, when there is a listener. -/
def notify (t : TransactionClient) (c : ClientCallback) : Option ClientCallback :=
  if t.listener then some c else none

/-- `onReceivedMessage`, up to the callback. -/
def onReceivedMessage (t : TransactionClient) (m : SipMessage) :
    Outcome TransactionClient ClientCallback ClientRest :=
  match m.code? with
  | none => { self := t }
  | some code =>
    if 100 ≤ code ∧ code < 200 ∧ t.status.isPending then
      { self := { t with status := .proceeding }
        callback := t.notify (.onTransProvisionalResponse m) }
    else if 200 ≤ code ∧ code < 700 ∧ t.status.isPending then
      { self := { t with
          retransmissionTo := t.retransmissionTo.halt
          transactionTo := t.transactionTo.halt
          status := .completed }
        callback := t.notify
          (if code < 300 then .onTransSuccessResponse m else .onTransFailureResponse m)
        rest := some .settle }
    else { self := t }

/-- What `onReceivedMessage` and `onTimeout` do after their callbacks. -/
def resume (t : TransactionClient) : ClientRest → TransactionClient × List ProviderCall
  | .settle =>
    if t.connectionId = none then ({ t with clearingTo := .started t.clearingTo.time }, [])
    else t.doTerminate
  | .dropListener => ({ t with listener := false }, [])

/-- `onTimeout(to)`, up to the callback. -/
def onTimeout (t : TransactionClient) :
    TimerName → Outcome TransactionClient ClientCallback ClientRest
  | .retransmission =>
    -- retransmission only for unreliable transport
    if t.status.isPending ∧ t.connectionId = none then
      let timeout := 2 * t.retransmissionTo.time
      { self := { t with
          retransmissionTo := .started
            (if timeout > maxRetransmissionTimeout ∨ t.status = .proceeding then
              maxRetransmissionTimeout else timeout) }
        calls := [.sendMessage t.request] }
    else { self := t }
  | .transaction =>
    { self := t.doTerminate.1
      calls := t.doTerminate.2
      callback := t.notify .onTransTimeout
      rest := some .dropListener }
  | .clearing => { self := t.doTerminate.1, calls := t.doTerminate.2 }
  | .ending => { self := t }

/-- The timer held in a field. -/
def timer (t : TransactionClient) : TimerName → Option Timer
  | .retransmission => some t.retransmissionTo
  | .transaction => some t.transactionTo
  | .clearing => some t.clearingTo
  | .ending => none

/-- Stop the timer held in a field. -/
def haltTimer (t : TransactionClient) : TimerName → TransactionClient
  | .retransmission => { t with retransmissionTo := t.retransmissionTo.halt }
  | .transaction => { t with transactionTo := t.transactionTo.halt }
  | .clearing => { t with clearingTo := t.clearingTo.halt }
  | .ending => t

/-- The timer held in a field expires. -/
def expire (t : TransactionClient) (n : TimerName) :
    Outcome TransactionClient ClientCallback ClientRest :=
  match t.timer n with
  | some timer => timer.expire t (t.haltTimer n) ((t.haltTimer n).onTimeout n)
  | none => { self := t }

end TransactionClient

/-! ## `InviteTransactionClient` -/

/-- Class `InviteTransactionClient`. -/
structure InviteTransactionClient where
  status : TransactionStatus := .idle
  request : SipMessage
  transactionId : SipId
  connectionId : Option ConnectionId := none
  /-- `invite_tc_listener!=null`. -/
  listener : Bool
  ack : Option SipMessage := none
  retransmissionTo : Timer := .placeholder retransmissionTimeout
  transactionTo : Timer := .placeholder transactionTimeout
  endTo : Timer := .placeholder transactionTimeout
  deriving DecidableEq, Repr

namespace InviteTransactionClient

/-- `new InviteTransactionClient(sip_provider,req,listener)`. -/
def new (req : SipMessage) (listener : Bool) : InviteTransactionClient where
  request := req
  transactionId := .transactionClient req
  listener := listener

/-- `request()`; `conn` is what `sendMessage` returns. -/
def start (t : InviteTransactionClient) (conn : Option ConnectionId) :
    InviteTransactionClient × List ProviderCall :=
  ({ t with
      status := .trying
      transactionTo := .started t.transactionTo.time
      connectionId := conn
      retransmissionTo := .started t.retransmissionTo.time },
    [.addSelectiveListener t.transactionId, .sendMessage t.request])

/-- `doTerminate`. -/
def doTerminate (t : InviteTransactionClient) :
    InviteTransactionClient × List ProviderCall :=
  if t.status = .terminated then (t, [])
  else
    ({ t with
        retransmissionTo := t.retransmissionTo.halt
        transactionTo := t.transactionTo.halt
        endTo := t.endTo.halt
        status := .terminated },
      [.removeSelectiveListener t.transactionId])

/-- `terminate`. -/
def terminate (t : InviteTransactionClient) :
    InviteTransactionClient × List ProviderCall :=
  ({ t.doTerminate.1 with listener := false }, t.doTerminate.2)

/-- The callback, when there is a listener. -/
def notify (t : InviteTransactionClient) (c : ClientCallback) : Option ClientCallback :=
  if t.listener then some c else none

/-- `onReceivedMessage`, up to the callback; `conn` is what `sendMessage` returns
for the ACK of a failure response. -/
def onReceivedMessage (t : InviteTransactionClient) (conn : Option ConnectionId)
    (m : SipMessage) : Outcome InviteTransactionClient ClientCallback ClientRest :=
  match m.code? with
  | none => { self := t }
  | some code =>
    if 100 ≤ code ∧ code < 200 ∧ t.status.isPending then
      { self :=
          if t.status = .trying then
            { t with
              retransmissionTo := t.retransmissionTo.halt
              transactionTo := t.transactionTo.halt
              status := .proceeding }
          else t
        callback := t.notify (.onTransProvisionalResponse m) }
    else if 300 ≤ code ∧ code < 700 ∧ t.status.isPending then
      let ack := createNon2xxAckRequest t.request m
      { self := { t with
          retransmissionTo := t.retransmissionTo.halt
          transactionTo := t.transactionTo.halt
          ack := some ack
          status := .completed
          connectionId := conn }
        calls := [.sendMessage ack]
        callback := t.notify (.onTransFailureResponse m)
        rest := some .settle }
    else if 300 ≤ code ∧ code < 700 ∧ t.status = .completed then
      -- retransmit the ACK only in case of unreliable transport
      { self := t
        calls := if t.connectionId = none then (t.ack.toList.map .sendMessage) else [] }
    else if 200 ≤ code ∧ code < 300 ∧ t.status.isPending then
      { self := t.doTerminate.1
        calls := t.doTerminate.2
        callback := t.notify (.onTransSuccessResponse m)
        rest := some .dropListener }
    else { self := t }

/-- What `onReceivedMessage` and `onTimeout` do after their callbacks. -/
def resume (t : InviteTransactionClient) :
    ClientRest → InviteTransactionClient × List ProviderCall
  | .settle =>
    let t := { t with listener := false }
    if t.connectionId = none then ({ t with endTo := .started t.endTo.time }, [])
    else t.doTerminate
  | .dropListener => ({ t with listener := false }, [])

/-- `onTimeout(to)`, up to the callback. -/
def onTimeout (t : InviteTransactionClient) :
    TimerName → Outcome InviteTransactionClient ClientCallback ClientRest
  | .retransmission =>
    -- retransmission only in case of unreliable transport
    if t.status = .trying ∧ t.connectionId = none then
      { self := { t with retransmissionTo := .started (2 * t.retransmissionTo.time) }
        calls := [.sendMessage t.request] }
    else { self := t }
  | .transaction =>
    { self := t.doTerminate.1
      calls := t.doTerminate.2
      callback := t.notify .onTransTimeout
      rest := some .dropListener }
  | .ending =>
    { self := { t.doTerminate.1 with listener := false }, calls := t.doTerminate.2 }
  | .clearing => { self := t }

/-- The timer held in a field. -/
def timer (t : InviteTransactionClient) : TimerName → Option Timer
  | .retransmission => some t.retransmissionTo
  | .transaction => some t.transactionTo
  | .ending => some t.endTo
  | .clearing => none

/-- Stop the timer held in a field. -/
def haltTimer (t : InviteTransactionClient) : TimerName → InviteTransactionClient
  | .retransmission => { t with retransmissionTo := t.retransmissionTo.halt }
  | .transaction => { t with transactionTo := t.transactionTo.halt }
  | .ending => { t with endTo := t.endTo.halt }
  | .clearing => t

/-- The timer held in a field expires. -/
def expire (t : InviteTransactionClient) (n : TimerName) :
    Outcome InviteTransactionClient ClientCallback ClientRest :=
  match t.timer n with
  | some timer => timer.expire t (t.haltTimer n) ((t.haltTimer n).onTimeout n)
  | none => { self := t }

end InviteTransactionClient

end SoftPhone
