import SoftPhone.Sip.DialogInfo

/-!
# Timers, states and actions of the transactions

The six transaction classes share the class `Transaction`: a status, the
provider they send through and register with, and timers.

A method of a transaction runs until it calls its listener back; what the method
does after the callback is a `ClientRest` or `ServerRest`, run when the listener
returns.  Between the two the listener may call any method of the transaction.

A timer is identified by the field that holds it.  The source compares an
expiring timer with the fields by reference, and a timer that was replaced in its
field equals none of them, so its expiry does nothing.
-/

namespace SoftPhone

/-- `SipStack.retransmission_timeout`, in milliseconds. -/
def retransmissionTimeout : ℕ := 500

/-- `SipStack.max_retransmission_timeout`. -/
def maxRetransmissionTimeout : ℕ := 4000

/-- `SipStack.transaction_timeout`. -/
def transactionTimeout : ℕ := 32000

/-- `SipStack.clearing_timeout`. -/
def clearingTimeout : ℕ := 5000

/-- Class `Timer`: the timeout value, whether it is running, and whether it has a
listener. -/
structure Timer where
  time : ℕ
  isRunning : Bool := false
  listener : Bool := false
  deriving DecidableEq, Repr

namespace Timer

/-- `new Timer(time,null)`: the placeholder that keeps the timeout value. -/
def placeholder (time : ℕ) : Timer := ⟨time, false, false⟩

/-- `start`, for a positive timeout. -/
def start (t : Timer) : Timer := { t with isRunning := true }

/-- `new Timer(time,this)` and `start`. -/
def started (time : ℕ) : Timer := start ⟨time, false, true⟩

/-- `halt`: a running timer stops and forgets its listener. -/
def halt (t : Timer) : Timer :=
  if t.isRunning then { t with isRunning := false, listener := false } else t

/-- The timer runs and its expiry is delivered to the transaction. -/
def Delivers (t : Timer) : Prop := t.isRunning = true ∧ t.listener = true

instance (t : Timer) : Decidable t.Delivers := inferInstanceAs (Decidable (_ ∧ _))

@[simp] theorem delivers_started (time : ℕ) : (started time).Delivers := ⟨rfl, rfl⟩

@[simp] theorem isRunning_placeholder (time : ℕ) : (placeholder time).isRunning = false := rfl

@[simp] theorem isRunning_halt (t : Timer) : t.halt.isRunning = false := by
  unfold halt
  split
  · rfl
  · next h => simpa using h

@[simp] theorem time_halt (t : Timer) : t.halt.time = t.time := by
  unfold halt
  split <;> rfl

@[simp] theorem time_placeholder (time : ℕ) : (placeholder time).time = time := rfl

end Timer

/-- The fields that hold timers. -/
inductive TimerName where
  /-- `retransmission_to`: Timers A, E and G. -/
  | retransmission
  /-- `transaction_to`: Timers B and F. -/
  | transaction
  /-- `end_to`: Timers D and H. -/
  | ending
  /-- `clearing_to`: Timers I, J and K. -/
  | clearing
  deriving DecidableEq, Repr

/-- The states of a transaction. -/
inductive TransactionStatus where
  | idle
  | waiting
  | trying
  | proceeding
  | completed
  | confirmed
  | terminated
  deriving DecidableEq, Repr

/-- `statusIs(STATE_TRYING) || statusIs(STATE_PROCEEDING)`. -/
def TransactionStatus.isPending (s : TransactionStatus) : Bool :=
  s == .trying || s == .proceeding

/-- What a transaction asks of the provider. -/
inductive ProviderCall where
  | sendMessage (m : SipMessage)
  | addSelectiveListener (id : SipId)
  | removeSelectiveListener (id : SipId)
  deriving DecidableEq, Repr

/-- The methods of `TransactionClientListener`. -/
inductive ClientCallback where
  | onTransProvisionalResponse (m : SipMessage)
  | onTransSuccessResponse (m : SipMessage)
  | onTransFailureResponse (m : SipMessage)
  | onTransTimeout
  deriving DecidableEq, Repr

/-- What a client transaction does after a callback. -/
inductive ClientRest where
  /-- After a final response: start the last timer, or terminate at once. -/
  | settle
  /-- Forget the listener. -/
  | dropListener
  deriving DecidableEq, Repr

/-- The methods of `InviteTransactionServerListener` and
`TransactionServerListener`. -/
inductive ServerCallback where
  | onTransRequest (m : SipMessage)
  | onTransFailureAck (m : SipMessage)
  deriving DecidableEq, Repr

/-- The method of `AckTransactionServerListener`. -/
inductive AckServerCallback where
  | onTransAckTimeout
  deriving DecidableEq, Repr

/-- What a server transaction does after a callback. -/
inductive ServerRest where
  /-- After the ACK of a failure response: start `clearing_to`. -/
  | startClearing
  deriving DecidableEq, Repr

/-- A method of a transaction, run up to its callback: the transaction, the calls
to the provider in order, the callback, and what is left to do after it. -/
structure Outcome (σ κ ρ : Type) where
  self : σ
  calls : List ProviderCall := []
  callback : Option κ := none
  rest : Option ρ := none

/-- `Timer.processInnerTimeout`, for a timer of the transaction `t`: a running
timer calls its listener, if it still has one, and stops; `halted` is `t` with the
timer stopped. -/
def Timer.expire {σ κ ρ : Type} (timer : Timer) (t halted : σ) (onTimeout : Outcome σ κ ρ) :
    Outcome σ κ ρ :=
  if timer.isRunning then
    if timer.listener then onTimeout else { self := halted }
  else { self := t }

/-- The expiry of a timer that delivers is the work of `onTimeout`. -/
theorem Timer.expire_of_delivers {σ κ ρ : Type} {timer : Timer} (h : timer.Delivers) (t halted : σ)
    (onTimeout : Outcome σ κ ρ) : timer.expire t halted onTimeout = onTimeout := by
  unfold expire
  rw [if_pos h.1, if_pos h.2]

/-- It is that, or at most the timer is stopped. -/
theorem Timer.expire_cases {σ κ ρ : Type} (timer : Timer) (t halted : σ)
    (onTimeout : Outcome σ κ ρ) :
    timer.Delivers ∧ timer.expire t halted onTimeout = onTimeout ∨
      timer.expire t halted onTimeout = { self := t } ∨
      timer.expire t halted onTimeout = { self := halted } := by
  unfold expire
  split
  · next hrun =>
    split
    · next hlistener => exact .inl ⟨⟨hrun, hlistener⟩, rfl⟩
    · exact .inr (.inr rfl)
  · exact .inr (.inl rfl)

end SoftPhone
