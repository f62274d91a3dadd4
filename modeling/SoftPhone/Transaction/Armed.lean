import SoftPhone.Transaction.Machine

/-!
# A running timer behind every state that needs one

Some states of a transaction are left for certain only because a timer runs: no
message has to come, and nobody has to call.  The timer of such a state has to be
running, its expiry has to be delivered to the transaction, and it has to terminate
the transaction.

The fields of a transaction hold placeholders at first, timers without a listener,
that only keep the timeout.  Every class but one puts a new timer into the field when
it starts it.  `AckTransactionServer.respond` starts the placeholders themselves:
they run, and nobody hears of it.  So an `AckTransactionServer` in PROCEEDING neither
sends its 2xx again nor gives up, and it is the only exception (`armed_iff`).

A method that waits for its listener to return has not reached a state yet, so the
statements are about a transaction at rest.
-/

namespace SoftPhone

open Machine

namespace Timer

@[simp] theorem listener_started (time : ℕ) : (started time).listener = true := rfl

@[simp] theorem listener_placeholder (time : ℕ) : (placeholder time).listener = false := rfl

@[simp] theorem listener_start (t : Timer) : t.start.listener = t.listener := rfl

/-- A timer without a listener does not get one by being stopped. -/
theorem listener_halt {t : Timer} (h : t.listener = false) : t.halt.listener = false := by
  unfold halt
  split
  · rfl
  · exact h

/-- The expiry of a timer without a listener at most stops the timer. -/
theorem expire_of_listener {σ κ ρ : Type} {timer : Timer} (h : timer.listener = false)
    (t halted : σ) (onTimeout : Outcome σ κ ρ) :
    timer.expire t halted onTimeout = { self := if timer.isRunning then halted else t } := by
  unfold expire
  rw [h]
  by_cases hrun : timer.isRunning = true
  · rw [if_pos hrun, if_pos hrun, if_neg Bool.false_ne_true]
  · rw [if_neg hrun, if_neg hrun]

end Timer

/-- What is worked off at rest keeps a property that holds of what was done. -/
theorem Running.whenIdle_of {σ κ ρ : Type} {P : Running σ ρ → Prop} {p : Running σ ρ}
    {f : σ → Outcome σ κ ρ} (hdone : p.rest = none → P (.ofOutcome (f p.self))) (h : P p) :
    P (p.whenIdle f) := by
  unfold whenIdle
  split
  · next hrest => exact hdone hrest
  · exact h

theorem Running.whenIdle_of_rest {σ κ ρ : Type} {p : Running σ ρ} (h : p.rest = none)
    (f : σ → Outcome σ κ ρ) : p.whenIdle f = .ofOutcome (f p.self) := by
  rw [whenIdle, h]

namespace Transaction

/-! ## Client transactions -/

/-- The timers of a `TransactionClient` are where they have to be. -/
structure ClientArmed (p : Running TransactionClient ClientRest) : Prop where
  transactionTo : p.self.status.isPending = true → p.self.transactionTo.Delivers
  clearingTo : p.rest = none → p.self.status = .completed → p.self.connectionId = none →
    p.self.clearingTo.Delivers
  /-- What drops the listener comes after a timeout, not after an answer. -/
  dropListener : p.rest = some .dropListener → p.self.status ≠ .completed

namespace ClientArmed

variable {p : Running TransactionClient ClientRest}

theorem of_terminated (h : p.self.status = .terminated) : ClientArmed p where
  transactionTo hp := by rw [h] at hp; cases hp
  clearingTo _ hc := by rw [h] at hc; cases hc
  dropListener _ hc := by rw [h] at hc; cases hc

theorem start (conn : Option ConnectionId) : ClientArmed (p.call fun t => (t.start conn).1) where
  transactionTo _ := Timer.delivers_started _
  clearingTo _ hc := by cases hc
  dropListener _ hc := by cases hc

theorem received (h : ClientArmed p) (hrest : p.rest = none) (m : SipMessage) :
    ClientArmed (.ofOutcome (p.self.onReceivedMessage m)) := by
  obtain ⟨t, r⟩ := p
  obtain ⟨htransaction, hclearing, hdrop⟩ := h
  constructor <;>
    grind [Running.ofOutcome, TransactionClient.onReceivedMessage, TransactionStatus.isPending]

theorem expired (h : ClientArmed p) (hrest : p.rest = none) (n : TimerName) :
    ClientArmed (.ofOutcome (p.self.expire n)) := by
  obtain ⟨t, r⟩ := p
  obtain ⟨htransaction, hclearing, hdrop⟩ := h
  cases n <;> constructor <;>
    grind [Running.ofOutcome, TransactionClient.expire, TransactionClient.onTimeout,
      TransactionClient.timer, TransactionClient.haltTimer, TransactionClient.doTerminate_spec,
      TransactionStatus.isPending, Timer.expire, Timer.Delivers, Timer.started, Timer.start]

theorem resumed (h : ClientArmed p) :
    ClientArmed (p.resumed fun t k => (t.resume k).1) := by
  obtain ⟨t, r⟩ := p
  match r, h with
  | none, h => exact h
  | some .dropListener, h =>
    obtain ⟨htransaction, -, hdrop⟩ := h
    exact ⟨htransaction, fun _ hc => absurd hc (hdrop rfl), fun hr => by cases hr⟩
  | some .settle, h =>
    by_cases hconn : t.connectionId = none
    · -- an unreliable transport: Timer K starts
      refine ⟨fun hp => ?_, fun _ _ _ => ?_, fun hr => by cases hr⟩ <;>
        simp only [Running.resumed, TransactionClient.resume, if_pos hconn] at *
      · exact h.transactionTo hp
      · exact Timer.delivers_started _
    · refine of_terminated ?_
      simp only [Running.resumed, TransactionClient.resume, if_neg hconn]
      exact t.doTerminate_spec.1

theorem step (h : ClientArmed p) (e : TransactionEvent) : ClientArmed (stepClient p e) := by
  cases e with
  | received m conn =>
    show ClientArmed (p.whenIdle fun t => t.onReceivedMessage m)
    exact Running.whenIdle_of (fun hrest => h.received hrest m) h
  | expired n =>
    show ClientArmed (p.whenIdle fun t => t.expire n)
    exact Running.whenIdle_of (fun hrest => h.expired hrest n) h
  | request conn => exact start conn
  | terminate => exact of_terminated p.self.doTerminate_spec.1
  | returns => exact h.resumed
  | listen => exact h
  | respondWith resp => exact h
  | respond => exact h
  | setAutoTrying autoTrying => exact h

/-- Timers F and K terminate the transaction. -/
theorem status_expired (hrest : p.rest = none) {n : TimerName} {timer : Timer}
    (htimer : p.self.timer n = some timer) (hdelivers : timer.Delivers)
    (hn : n = .transaction ∨ n = .clearing) :
    (stepClient p (.expired n)).self.status = .terminated := by
  show (p.whenIdle fun t => t.expire n).self.status = .terminated
  rw [Running.whenIdle_of_rest hrest]
  show (p.self.expire n).self.status = .terminated
  simp only [TransactionClient.expire, htimer, Timer.expire_of_delivers hdelivers]
  rcases hn with rfl | rfl <;> exact (TransactionClient.doTerminate_spec _).1

end ClientArmed

/-- The timers of an `InviteTransactionClient` are where they have to be. -/
structure InviteClientArmed (p : Running InviteTransactionClient ClientRest) : Prop where
  transactionTo : p.self.status = .trying → p.self.transactionTo.Delivers
  endTo : p.rest = none → p.self.status = .completed → p.self.connectionId = none →
    p.self.endTo.Delivers
  /-- What drops the listener comes after a timeout or a 2xx, not after a refusal. -/
  dropListener : p.rest = some .dropListener → p.self.status ≠ .completed

namespace InviteClientArmed

variable {p : Running InviteTransactionClient ClientRest}

theorem of_terminated (h : p.self.status = .terminated) : InviteClientArmed p where
  transactionTo hp := by rw [h] at hp; cases hp
  endTo _ hc := by rw [h] at hc; cases hc
  dropListener _ hc := by rw [h] at hc; cases hc

theorem start (conn : Option ConnectionId) :
    InviteClientArmed (p.call fun t => (t.start conn).1) where
  transactionTo _ := Timer.delivers_started _
  endTo _ hc := by cases hc
  dropListener _ hc := by cases hc

theorem received (h : InviteClientArmed p) (hrest : p.rest = none)
    (conn : Option ConnectionId) (m : SipMessage) :
    InviteClientArmed (.ofOutcome (p.self.onReceivedMessage conn m)) := by
  obtain ⟨t, r⟩ := p
  obtain ⟨htransaction, hend, hdrop⟩ := h
  constructor <;>
    grind [Running.ofOutcome, InviteTransactionClient.onReceivedMessage,
      InviteTransactionClient.doTerminate_spec, TransactionStatus.isPending]

theorem expired (h : InviteClientArmed p) (hrest : p.rest = none) (n : TimerName) :
    InviteClientArmed (.ofOutcome (p.self.expire n)) := by
  obtain ⟨t, r⟩ := p
  obtain ⟨htransaction, hend, hdrop⟩ := h
  cases n <;> constructor <;>
    grind [Running.ofOutcome, InviteTransactionClient.expire, InviteTransactionClient.onTimeout,
      InviteTransactionClient.timer, InviteTransactionClient.haltTimer,
      InviteTransactionClient.doTerminate_spec, Timer.expire, Timer.Delivers]

theorem resumed (h : InviteClientArmed p) :
    InviteClientArmed (p.resumed fun t k => (t.resume k).1) := by
  obtain ⟨t, r⟩ := p
  match r, h with
  | none, h => exact h
  | some .dropListener, h =>
    obtain ⟨htransaction, -, hdrop⟩ := h
    exact ⟨htransaction, fun _ hc => absurd hc (hdrop rfl), fun hr => by cases hr⟩
  | some .settle, h =>
    by_cases hconn : t.connectionId = none
    · -- an unreliable transport: Timer D starts
      refine ⟨fun hp => ?_, fun _ _ _ => ?_, fun hr => by cases hr⟩ <;>
        simp only [Running.resumed, InviteTransactionClient.resume, if_pos hconn] at *
      · exact h.transactionTo hp
      · exact Timer.delivers_started _
    · refine of_terminated ?_
      simp only [Running.resumed, InviteTransactionClient.resume, if_neg hconn]
      exact ({ t with listener := false } : InviteTransactionClient).doTerminate_spec.1

theorem step (h : InviteClientArmed p) (e : TransactionEvent) :
    InviteClientArmed (stepInviteClient p e) := by
  cases e with
  | received m conn =>
    show InviteClientArmed (p.whenIdle fun t => t.onReceivedMessage conn m)
    exact Running.whenIdle_of (fun hrest => h.received hrest conn m) h
  | expired n =>
    show InviteClientArmed (p.whenIdle fun t => t.expire n)
    exact Running.whenIdle_of (fun hrest => h.expired hrest n) h
  | request conn => exact start conn
  | terminate => exact of_terminated p.self.doTerminate_spec.1
  | returns => exact h.resumed
  | listen => exact h
  | respondWith resp => exact h
  | respond => exact h
  | setAutoTrying autoTrying => exact h

/-- Timers B and D terminate the transaction. -/
theorem status_expired (hrest : p.rest = none) {n : TimerName} {timer : Timer}
    (htimer : p.self.timer n = some timer) (hdelivers : timer.Delivers)
    (hn : n = .transaction ∨ n = .ending) :
    (stepInviteClient p (.expired n)).self.status = .terminated := by
  show (p.whenIdle fun t => t.expire n).self.status = .terminated
  rw [Running.whenIdle_of_rest hrest]
  show (p.self.expire n).self.status = .terminated
  simp only [InviteTransactionClient.expire, htimer, Timer.expire_of_delivers hdelivers]
  rcases hn with rfl | rfl <;> exact (InviteTransactionClient.doTerminate_spec _).1

end InviteClientArmed

/-! ## Server transactions -/

/-- The timer of a `TransactionServer` is where it has to be. -/
def ServerArmed (p : Running TransactionServer ServerRest) : Prop :=
  p.self.status = .completed → p.self.connectionId = none → p.self.clearingTo.Delivers

namespace ServerArmed

variable {p : Running TransactionServer ServerRest}

theorem status_doTerminate (t : TransactionServer) : t.doTerminate.1.status = .terminated := by
  unfold TransactionServer.doTerminate
  split
  · assumption
  · rfl

theorem listen (h : ServerArmed p) : ServerArmed (p.call fun t => t.listen.1) := by
  unfold ServerArmed at *
  grind [Running.call, TransactionServer.listen]

theorem respondWith (h : ServerArmed p) (resp : SipMessage) :
    ServerArmed (p.call fun t => (t.respondWith resp).1) := by
  unfold ServerArmed at *
  grind [Running.call, TransactionServer.respondWith, TransactionServer.complete,
    TransactionStatus.isPending, status_doTerminate, Timer.delivers_started]

theorem terminate : ServerArmed (p.call fun t => t.terminate.1) := by
  intro hc
  have hterminated : (p.call fun t => t.terminate.1).self.status = .terminated :=
    status_doTerminate p.self
  rw [hterminated] at hc
  cases hc

theorem received (h : ServerArmed p) (m : SipMessage) :
    ServerArmed (.ofOutcome (p.self.onReceivedMessage m)) := by
  unfold ServerArmed at *
  grind [Running.ofOutcome, TransactionServer.onReceivedMessage, TransactionServer.begin]

theorem expired (h : ServerArmed p) (n : TimerName) :
    ServerArmed (.ofOutcome (p.self.expire n)) := by
  unfold ServerArmed at *
  cases n <;>
    grind [Running.ofOutcome, TransactionServer.expire, TransactionServer.onTimeout,
      status_doTerminate, Timer.expire, Timer.Delivers]

theorem step (h : ServerArmed p) (e : TransactionEvent) : ServerArmed (stepServer p e) := by
  cases e with
  | received m conn =>
    show ServerArmed (p.whenIdle fun t => t.onReceivedMessage m)
    exact Running.whenIdle_of (fun _ => h.received m) h
  | expired n =>
    show ServerArmed (p.whenIdle fun t => t.expire n)
    exact Running.whenIdle_of (fun _ => h.expired n) h
  | listen => exact h.listen
  | respondWith resp => exact h.respondWith resp
  | terminate => exact terminate
  | request conn => exact h
  | respond => exact h
  | setAutoTrying autoTrying => exact h
  | returns => exact h

/-- Timer J terminates the transaction. -/
theorem status_expired (hrest : p.rest = none) (hdelivers : p.self.clearingTo.Delivers) :
    (stepServer p (.expired .clearing)).self.status = .terminated := by
  show (p.whenIdle fun t => t.expire .clearing).self.status = .terminated
  rw [Running.whenIdle_of_rest hrest]
  show (p.self.expire .clearing).self.status = .terminated
  simp only [TransactionServer.expire, Timer.expire_of_delivers hdelivers]
  exact status_doTerminate _

end ServerArmed

/-- The timers of an `InviteTransactionServer` are where they have to be. -/
structure InviteServerArmed (p : Running InviteTransactionServer ServerRest) : Prop where
  endTo : p.self.status = .completed → p.self.endTo.Delivers
  clearingTo : p.rest = none → p.self.status = .confirmed → p.self.clearingTo.Delivers

namespace InviteServerArmed

variable {S : SipStack} {p : Running InviteTransactionServer ServerRest}

theorem of_status (hcompleted : p.self.status ≠ .completed) (hconfirmed : p.self.status ≠ .confirmed) :
    InviteServerArmed p :=
  ⟨fun hc => absurd hc hcompleted, fun _ hc => absurd hc hconfirmed⟩

theorem status_terminate (t : InviteTransactionServer) :
    t.terminate.1.status = .terminated := by
  unfold InviteTransactionServer.terminate InviteTransactionServer.doTerminate
  split
  · assumption
  · rfl

theorem terminate : InviteServerArmed (p.call fun t => t.terminate.1) := by
  have hterminated : (p.call fun t => t.terminate.1).self.status = .terminated :=
    status_terminate p.self
  refine of_status ?_ ?_ <;> rw [hterminated] <;> simp

theorem listen (h : InviteServerArmed p) : InviteServerArmed (p.call fun t => t.listen.1) := by
  obtain ⟨hend, hclearing⟩ := h
  constructor <;> grind [Running.call, InviteTransactionServer.listen]

theorem respondWith (h : InviteServerArmed p) (resp : SipMessage) :
    InviteServerArmed (p.call fun t => (t.respondWith resp).1) := by
  obtain ⟨hend, hclearing⟩ := h
  constructor <;>
    grind [Running.call, InviteTransactionServer.respondWith, InviteTransactionServer.complete,
      TransactionStatus.isPending, status_terminate, Timer.delivers_started]

theorem tryInvite {t : InviteTransactionServer} (invite : SipMessage)
    (h : InviteServerArmed { self := t }) : InviteServerArmed { self := (t.tryInvite S invite).1 } := by
  unfold InviteTransactionServer.tryInvite
  split
  · exact h.respondWith _
  · exact h

theorem received (h : InviteServerArmed p) (hrest : p.rest = none) (m : SipMessage) :
    InviteServerArmed (.ofOutcome (p.self.onReceivedMessage S m)) := by
  have hstay : InviteServerArmed { self := p.self } := ⟨h.endTo, fun _ => h.clearingTo hrest⟩
  unfold InviteTransactionServer.onReceivedMessage
  split
  · split
    · -- the first INVITE of a listening server
      exact tryInvite m (of_status (by simp) (by simp))
    · split <;> exact hstay
  · split
    · exact ⟨fun hc => (by cases hc), fun hr => by cases hr⟩
    · exact hstay

theorem expired (h : InviteServerArmed p) (hrest : p.rest = none) (n : TimerName) :
    InviteServerArmed (.ofOutcome (p.self.expire n)) := by
  obtain ⟨t, r⟩ := p
  obtain ⟨hend, hclearing⟩ := h
  cases n <;> constructor <;>
    grind [Running.ofOutcome, InviteTransactionServer.expire, InviteTransactionServer.onTimeout,
      InviteTransactionServer.timer, InviteTransactionServer.haltTimer,
      status_terminate, Timer.expire, Timer.Delivers]

theorem resumed (h : InviteServerArmed p) :
    InviteServerArmed (p.resumed fun t k => t.resume k) := by
  obtain ⟨t, r⟩ := p
  match r, h with
  | none, h => exact h
  | some .startClearing, h => exact ⟨h.endTo, fun _ _ => Timer.delivers_started _⟩

theorem step (h : InviteServerArmed p) (e : TransactionEvent) :
    InviteServerArmed (stepInviteServer S p e) := by
  cases e with
  | received m conn =>
    show InviteServerArmed (p.whenIdle fun t => t.onReceivedMessage S m)
    exact Running.whenIdle_of (fun hrest => h.received hrest m) h
  | expired n =>
    show InviteServerArmed (p.whenIdle fun t => t.expire n)
    exact Running.whenIdle_of (fun hrest => h.expired hrest n) h
  | listen => exact h.listen
  | respondWith resp => exact h.respondWith resp
  | setAutoTrying autoTrying => exact ⟨h.endTo, h.clearingTo⟩
  | terminate => exact terminate
  | returns => exact h.resumed
  | request conn => exact h
  | respond => exact h

/-- Timer H terminates a transaction in COMPLETED. -/
theorem status_expired_endTo (h : InviteServerArmed p) (hrest : p.rest = none)
    (hcompleted : p.self.status = .completed) :
    (stepInviteServer S p (.expired .ending)).self.status = .terminated := by
  show (p.whenIdle fun t => t.expire .ending).self.status = .terminated
  rw [Running.whenIdle_of_rest hrest]
  show (p.self.expire .ending).self.status = .terminated
  simp only [InviteTransactionServer.expire, InviteTransactionServer.timer,
    Timer.expire_of_delivers (h.endTo hcompleted), InviteTransactionServer.onTimeout]
  rw [if_pos (show (p.self.haltTimer .ending).status = .completed from hcompleted)]
  exact status_terminate _

/-- Timer I terminates a transaction in CONFIRMED. -/
theorem status_expired_clearingTo (h : InviteServerArmed p) (hrest : p.rest = none)
    (hconfirmed : p.self.status = .confirmed) :
    (stepInviteServer S p (.expired .clearing)).self.status = .terminated := by
  show (p.whenIdle fun t => t.expire .clearing).self.status = .terminated
  rw [Running.whenIdle_of_rest hrest]
  show (p.self.expire .clearing).self.status = .terminated
  simp only [InviteTransactionServer.expire, InviteTransactionServer.timer,
    Timer.expire_of_delivers (h.clearingTo hrest hconfirmed), InviteTransactionServer.onTimeout]
  rw [if_pos (show (p.self.haltTimer .clearing).status = .confirmed from hconfirmed)]
  exact status_terminate _

end InviteServerArmed

/-- Nobody listens to the timers of an `AckTransactionServer`, and it never waits for
its listener. -/
structure AckServerDeaf (p : Running AckTransactionServer ServerRest) : Prop where
  rest : p.rest = none
  retransmissionTo : p.self.retransmissionTo.listener = false
  transactionTo : p.self.transactionTo.listener = false

namespace AckServerDeaf

variable {p : Running AckTransactionServer ServerRest}

theorem respond (h : AckServerDeaf p) : AckServerDeaf (p.call fun t => t.respond.1) where
  rest := h.rest
  retransmissionTo := by
    show (if p.self.connectionId = none then p.self.retransmissionTo.start
      else p.self.retransmissionTo).listener = false
    split <;> exact h.retransmissionTo
  transactionTo := h.transactionTo

theorem terminate (h : AckServerDeaf p) : AckServerDeaf (p.call fun t => t.terminate.1) := by
  refine ⟨h.rest, ?_, ?_⟩ <;>
    simp only [Running.call, AckTransactionServer.terminate, AckTransactionServer.doTerminate] <;>
    split
  · exact h.retransmissionTo
  · exact Timer.listener_halt h.retransmissionTo
  · exact h.transactionTo
  · exact Timer.listener_halt h.transactionTo

theorem expired (h : AckServerDeaf p) (n : TimerName) :
    AckServerDeaf (.ofOutcome (p.self.expire n)) := by
  have hstay : AckServerDeaf { self := p.self } := ⟨rfl, h.retransmissionTo, h.transactionTo⟩
  cases n with
  | retransmission =>
    show AckServerDeaf (.ofOutcome (p.self.retransmissionTo.expire _ _ _))
    rw [Timer.expire_of_listener h.retransmissionTo]
    refine ⟨rfl, ?_, ?_⟩ <;> simp only [Running.ofOutcome] <;> split
    · exact Timer.listener_halt h.retransmissionTo
    · exact h.retransmissionTo
    · exact h.transactionTo
    · exact h.transactionTo
  | transaction =>
    show AckServerDeaf (.ofOutcome (p.self.transactionTo.expire _ _ _))
    rw [Timer.expire_of_listener h.transactionTo]
    refine ⟨rfl, ?_, ?_⟩ <;> simp only [Running.ofOutcome] <;> split
    · exact h.retransmissionTo
    · exact h.retransmissionTo
    · exact Timer.listener_halt h.transactionTo
    · exact h.transactionTo
  | ending => exact hstay
  | clearing => exact hstay

theorem step (h : AckServerDeaf p) (e : TransactionEvent) : AckServerDeaf (stepAckServer p e) := by
  cases e with
  | received m conn =>
    show AckServerDeaf (p.whenIdle fun t => t.onReceivedMessage m)
    exact Running.whenIdle_of (fun _ => ⟨rfl, h.retransmissionTo, h.transactionTo⟩) h
  | expired n =>
    show AckServerDeaf (p.whenIdle fun t => t.expire n)
    exact Running.whenIdle_of (fun _ => h.expired n) h
  | respond => exact h.respond
  | terminate => exact h.terminate
  | request conn => exact h
  | listen => exact h
  | respondWith resp => exact h
  | setAutoTrying autoTrying => exact h
  | returns => exact h

end AckServerDeaf

/-! ## Every class -/

/-- The timers of a transaction are where the source puts them. -/
def TimersKept : Transaction → Prop
  | .client p => ClientArmed p
  | .inviteClient p => InviteClientArmed p
  | .server p => ServerArmed p
  | .inviteServer p => InviteServerArmed p
  | .ackServer p => AckServerDeaf p

theorem Start.timersKept {S : SipStack} {T : Transaction} (h : Start S T) : T.TimersKept := by
  cases h with
  | client req listener => exact ⟨fun h => (by cases h), fun _ h => (by cases h), fun h => by cases h⟩
  | inviteClient req listener =>
    exact ⟨fun h => (by cases h), fun _ h => (by cases h), fun h => by cases h⟩
  | server req listener => exact fun h => by cases h
  | listeningServer method listener => exact fun h => by cases h
  | cancelServer req listener => exact fun h => by cases h
  | inviteServer autoTrying invite listener =>
    exact InviteServerArmed.tryInvite invite
      (InviteServerArmed.of_status (fun h => by cases h) (fun h => by cases h))
  | listeningInviteServer listener =>
    exact InviteServerArmed.of_status (fun h => by cases h) (fun h => by cases h)
  | ackServer conn invite resp listener => exact ⟨rfl, rfl, rfl⟩

theorem timersKept_step {S : SipStack} (T : Transaction) (e : TransactionEvent)
    (h : T.TimersKept) : (T.step S e).TimersKept := by
  cases T with
  | client p => exact ClientArmed.step h e
  | inviteClient p => exact InviteClientArmed.step h e
  | server p => exact ServerArmed.step h e
  | inviteServer p => exact InviteServerArmed.step h e
  | ackServer p => exact AckServerDeaf.step h e

theorem timersKept_run {S : SipStack} {T : Transaction} (h : Start S T)
    (es : List TransactionEvent) : (run (step S) T es).TimersKept :=
  run_invariant timersKept_step es h.timersKept

/-- The timer that has to get the transaction out of its state: for the states that
only a timer is certain to end. -/
def lastResort : Transaction → Option TimerName
  | .client p =>
    if p.self.status.isPending then some .transaction
    else if p.self.status = .completed ∧ p.self.connectionId = none then some .clearing
    else none
  | .inviteClient p =>
    if p.self.status = .trying then some .transaction
    else if p.self.status = .completed ∧ p.self.connectionId = none then some .ending
    else none
  | .server p =>
    if p.self.status = .completed ∧ p.self.connectionId = none then some .clearing else none
  | .inviteServer p =>
    if p.self.status = .completed then some .ending
    else if p.self.status = .confirmed then some .clearing
    else none
  | .ackServer p => if p.self.status = .proceeding then some .transaction else none

/-- An `AckTransactionServer` that sends its 2xx until an ACK comes. -/
def AwaitsAck : Transaction → Prop
  | .ackServer p => p.self.status = .proceeding
  | _ => False

/-- The expiry of the timer in field `n` is delivered. -/
def Delivers (T : Transaction) (n : TimerName) : Prop := ∃ t, T.timer n = some t ∧ t.Delivers

/-- The timer that the state needs is armed: it runs, it is delivered to the
transaction, and it terminates the transaction; and an `AckTransactionServer` over an
unreliable transport will send its 2xx again. -/
structure Armed (S : SipStack) (T : Transaction) : Prop where
  lastResort : ∀ n, T.lastResort = some n →
    T.Delivers n ∧ (T.step S (.expired n)).status = .terminated
  retransmission : T.AwaitsAck → T.connectionId = none → T.Delivers .retransmission

/-- An `AckTransactionServer` in PROCEEDING is not armed. -/
theorem TimersKept.not_armed {S : SipStack} {T : Transaction} (h : T.TimersKept)
    (hawaits : T.AwaitsAck) : ¬ T.Armed S := by
  intro harmed
  cases T with
  | ackServer p =>
    have hresort : (ackServer p).lastResort = some .transaction := if_pos hawaits
    obtain ⟨⟨t, ht, -, hlistener⟩, -⟩ := harmed.lastResort _ hresort
    cases ht
    rw [AckServerDeaf.transactionTo h] at hlistener
    cases hlistener
  | _ => exact hawaits

/-- **Every other transaction at rest is armed.** -/
theorem TimersKept.armed {S : SipStack} {T : Transaction} (h : T.TimersKept)
    (hrest : T.AtRest) (hawaits : ¬ T.AwaitsAck) : T.Armed S := by
  refine ⟨fun n hn => ?_, fun hack => absurd hack hawaits⟩
  cases T with
  | client p =>
    have h : ClientArmed p := h
    simp only [lastResort] at hn
    split at hn
    · next hpending =>
      cases hn
      have hdelivers := h.transactionTo hpending
      exact ⟨⟨_, rfl, hdelivers⟩, ClientArmed.status_expired hrest rfl hdelivers (.inl rfl)⟩
    · split at hn
      · next hcompleted =>
        cases hn
        have hdelivers := h.clearingTo hrest hcompleted.1 hcompleted.2
        exact ⟨⟨_, rfl, hdelivers⟩, ClientArmed.status_expired hrest rfl hdelivers (.inr rfl)⟩
      · cases hn
  | inviteClient p =>
    have h : InviteClientArmed p := h
    simp only [lastResort] at hn
    split at hn
    · next htrying =>
      cases hn
      have hdelivers := h.transactionTo htrying
      exact ⟨⟨_, rfl, hdelivers⟩,
        InviteClientArmed.status_expired hrest rfl hdelivers (.inl rfl)⟩
    · split at hn
      · next hcompleted =>
        cases hn
        have hdelivers := h.endTo hrest hcompleted.1 hcompleted.2
        exact ⟨⟨_, rfl, hdelivers⟩,
          InviteClientArmed.status_expired hrest rfl hdelivers (.inr rfl)⟩
      · cases hn
  | server p =>
    simp only [lastResort] at hn
    split at hn
    · next hcompleted =>
      cases hn
      have hdelivers : p.self.clearingTo.Delivers := h hcompleted.1 hcompleted.2
      exact ⟨⟨_, rfl, hdelivers⟩, ServerArmed.status_expired hrest hdelivers⟩
    · cases hn
  | inviteServer p =>
    have h : InviteServerArmed p := h
    simp only [lastResort] at hn
    split at hn
    · next hcompleted =>
      cases hn
      exact ⟨⟨_, rfl, h.endTo hcompleted⟩, h.status_expired_endTo hrest hcompleted⟩
    · split at hn
      · next hconfirmed =>
        cases hn
        exact ⟨⟨_, rfl, h.clearingTo hrest hconfirmed⟩,
          h.status_expired_clearingTo hrest hconfirmed⟩
      · cases hn
  | ackServer p =>
    have hnone : (ackServer p).lastResort = none := if_neg hawaits
    rw [hnone] at hn
    cases hn

end Transaction
end SoftPhone
