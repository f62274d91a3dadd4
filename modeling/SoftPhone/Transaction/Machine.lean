import SoftPhone.Machine.Run
import SoftPhone.Transaction.ClientState
import SoftPhone.Transaction.Server

/-!
# A transaction by itself

A transaction seen alone takes messages, timers and calls of its methods, in any
order.  A message or a timer is worked off when the transaction is at rest; while it
waits for its listener to return, the listener may call its methods.

The five classes are put together in one type, so that a statement about every
transaction is one statement.
-/

namespace SoftPhone

open Machine

/-- What can happen to a transaction.  A method that its class does not have does
nothing. -/
inductive TransactionEvent where
  /-- A message comes; `conn` is what `sendMessage` returns for an ACK. -/
  | received (m : SipMessage) (conn : Option ConnectionId)
  /-- The timer in a field expires. -/
  | expired (n : TimerName)
  /-- `request()`; `conn` is what `sendMessage` returns. -/
  | request (conn : Option ConnectionId)
  | listen
  | respondWith (resp : SipMessage)
  | respond
  | setAutoTrying (autoTrying : Bool)
  | terminate
  /-- The listener returns from a callback. -/
  | returns

/-- A transaction, and what it does when its listener returns. -/
structure Running (σ ρ : Type) where
  self : σ
  rest : Option ρ := none

namespace Running

variable {σ κ ρ : Type}

/-- What a method did, up to its callback. -/
def ofOutcome (o : Outcome σ κ ρ) : Running σ ρ := ⟨o.self, o.rest⟩

/-- A method without callback. -/
def call (p : Running σ ρ) (f : σ → σ) : Running σ ρ := ⟨f p.self, p.rest⟩

/-- A message or a timer, worked off at rest. -/
def whenIdle (p : Running σ ρ) (f : σ → Outcome σ κ ρ) : Running σ ρ :=
  match p.rest with
  | none => ofOutcome (f p.self)
  | some _ => p

/-- The listener returns. -/
def resumed (p : Running σ ρ) (f : σ → ρ → σ) : Running σ ρ :=
  match p.rest with
  | none => p
  | some k => ⟨f p.self k, none⟩

/-- The calls of the provider for a message or a timer. -/
def calls (p : Running σ ρ) (f : σ → Outcome σ κ ρ) : List ProviderCall :=
  match p.rest with
  | none => (f p.self).calls
  | some _ => []

/-- The callback for a message or a timer. -/
def callback (p : Running σ ρ) (f : σ → Outcome σ κ ρ) : Option κ :=
  match p.rest with
  | none => (f p.self).callback
  | some _ => none

end Running

/-- `new TransactionServer(sip_provider,method,listener)`. -/
def TransactionServer.newListening (method : Method) (listener : Bool) : TransactionServer where
  transactionId := .method method
  listener := listener

/-- `setAutoTrying`. -/
def InviteTransactionServer.setAutoTrying (t : InviteTransactionServer) (autoTrying : Bool) :
    InviteTransactionServer :=
  { t with autoTrying := autoTrying }

/-- A transaction of one of the five classes. -/
inductive Transaction where
  | client (p : Running TransactionClient ClientRest)
  | inviteClient (p : Running InviteTransactionClient ClientRest)
  | server (p : Running TransactionServer ServerRest)
  | inviteServer (p : Running InviteTransactionServer ServerRest)
  | ackServer (p : Running AckTransactionServer ServerRest)

namespace Transaction

/-- One event of a `TransactionClient`. -/
def stepClient (p : Running TransactionClient ClientRest) :
    TransactionEvent → Running TransactionClient ClientRest
  | .received m _ => p.whenIdle fun t => t.onReceivedMessage m
  | .expired n => p.whenIdle fun t => t.expire n
  | .request conn => p.call fun t => (t.start conn).1
  | .terminate => p.call fun t => t.terminate.1
  | .returns => p.resumed fun t k => (t.resume k).1
  | _ => p

/-- One event of an `InviteTransactionClient`. -/
def stepInviteClient (p : Running InviteTransactionClient ClientRest) :
    TransactionEvent → Running InviteTransactionClient ClientRest
  | .received m conn => p.whenIdle fun t => t.onReceivedMessage conn m
  | .expired n => p.whenIdle fun t => t.expire n
  | .request conn => p.call fun t => (t.start conn).1
  | .terminate => p.call fun t => t.terminate.1
  | .returns => p.resumed fun t k => (t.resume k).1
  | _ => p

/-- One event of a `TransactionServer`. -/
def stepServer (p : Running TransactionServer ServerRest) :
    TransactionEvent → Running TransactionServer ServerRest
  | .received m _ => p.whenIdle fun t => t.onReceivedMessage m
  | .expired n => p.whenIdle fun t => t.expire n
  | .listen => p.call fun t => t.listen.1
  | .respondWith resp => p.call fun t => (t.respondWith resp).1
  | .terminate => p.call fun t => t.terminate.1
  | _ => p

/-- One event of an `InviteTransactionServer`. -/
def stepInviteServer (S : SipStack) (p : Running InviteTransactionServer ServerRest) :
    TransactionEvent → Running InviteTransactionServer ServerRest
  | .received m _ => p.whenIdle fun t => t.onReceivedMessage S m
  | .expired n => p.whenIdle fun t => t.expire n
  | .listen => p.call fun t => t.listen.1
  | .respondWith resp => p.call fun t => (t.respondWith resp).1
  | .setAutoTrying autoTrying => p.call fun t => t.setAutoTrying autoTrying
  | .terminate => p.call fun t => t.terminate.1
  | .returns => p.resumed fun t k => t.resume k
  | _ => p

/-- One event of an `AckTransactionServer`. -/
def stepAckServer (p : Running AckTransactionServer ServerRest) :
    TransactionEvent → Running AckTransactionServer ServerRest
  | .received m _ => p.whenIdle fun t => t.onReceivedMessage m
  | .expired n => p.whenIdle fun t => t.expire n
  | .respond => p.call fun t => t.respond.1
  | .terminate => p.call fun t => t.terminate.1
  | _ => p

/-- One event. -/
def step (S : SipStack) : Transaction → TransactionEvent → Transaction
  | .client p, e => .client (stepClient p e)
  | .inviteClient p, e => .inviteClient (stepInviteClient p e)
  | .server p, e => .server (stepServer p e)
  | .inviteServer p, e => .inviteServer (stepInviteServer S p e)
  | .ackServer p, e => .ackServer (stepAckServer p e)

/-- The constructors of the five classes, and of `CancelTransactionServer`. -/
inductive Start (S : SipStack) : Transaction → Prop where
  | client (req : SipMessage) (listener : Bool) :
      Start S (.client { self := .new req listener })
  | inviteClient (req : SipMessage) (listener : Bool) :
      Start S (.inviteClient { self := .new req listener })
  | server (req : SipMessage) (listener : Bool) :
      Start S (.server { self := (TransactionServer.new req listener).1 })
  | listeningServer (method : Method) (listener : Bool) :
      Start S (.server { self := .newListening method listener })
  | cancelServer (req : SipMessage) (listener : Bool) :
      Start S (.server { self := .newCancel req listener })
  | inviteServer (autoTrying : Bool) (invite : SipMessage) (listener : Bool) :
      Start S (.inviteServer
        { self := (InviteTransactionServer.new { S with autoTrying := autoTrying } invite listener).1 })
  | listeningInviteServer (listener : Bool) :
      Start S (.inviteServer { self := .newListening S listener })
  | ackServer (conn : Option ConnectionId) (invite resp : SipMessage) (listener : Bool) :
      Start S (.ackServer { self := .new conn invite resp listener })

/-- The transaction is not waiting for its listener. -/
def AtRest : Transaction → Prop
  | .client p => p.rest = none
  | .inviteClient p => p.rest = none
  | .server p => p.rest = none
  | .inviteServer p => p.rest = none
  | .ackServer p => p.rest = none

/-- The timer held in a field. -/
def timer : Transaction → TimerName → Option Timer
  | .client p, n => p.self.timer n
  | .inviteClient p, n => p.self.timer n
  | .server p, .clearing => some p.self.clearingTo
  | .server _, _ => none
  | .inviteServer p, n => p.self.timer n
  | .ackServer p, n => p.self.timer n

/-- The state. -/
def status : Transaction → TransactionStatus
  | .client p => p.self.status
  | .inviteClient p => p.self.status
  | .server p => p.self.status
  | .inviteServer p => p.self.status
  | .ackServer p => p.self.status

/-- The connection; none for an unreliable transport. -/
def connectionId : Transaction → Option ConnectionId
  | .client p => p.self.connectionId
  | .inviteClient p => p.self.connectionId
  | .server p => p.self.connectionId
  | .inviteServer p => p.self.connectionId
  | .ackServer p => p.self.connectionId

/-- The callback that an event of a client transaction ends in. -/
def callback : Transaction → TransactionEvent → Option ClientCallback
  | .client p, .received m _ => p.callback fun t => t.onReceivedMessage m
  | .client p, .expired n => p.callback fun t => t.expire n
  | .inviteClient p, .received m conn => p.callback fun t => t.onReceivedMessage conn m
  | .inviteClient p, .expired n => p.callback fun t => t.expire n
  | _, _ => none

/-- What an event makes a server transaction ask of the provider. -/
def serverCalls (S : SipStack) : Transaction → TransactionEvent → List ProviderCall
  | .server p, .received m _ => p.calls fun t => t.onReceivedMessage m
  | .server p, .expired n => p.calls fun t => t.expire n
  | .server p, .listen => p.self.listen.2
  | .server p, .respondWith resp => (p.self.respondWith resp).2
  | .server p, .terminate => p.self.terminate.2
  | .inviteServer p, .received m _ => p.calls fun t => t.onReceivedMessage S m
  | .inviteServer p, .expired n => p.calls fun t => t.expire n
  | .inviteServer p, .listen => p.self.listen.2
  | .inviteServer p, .respondWith resp => (p.self.respondWith resp).2
  | .inviteServer p, .terminate => p.self.terminate.2
  | .ackServer p, .received m _ => p.calls fun t => t.onReceivedMessage m
  | .ackServer p, .expired n => p.calls fun t => t.expire n
  | .ackServer p, .respond => p.self.respond.2
  | .ackServer p, .terminate => p.self.terminate.2
  | _, _ => []

end Transaction
end SoftPhone
