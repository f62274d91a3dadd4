import SoftPhone.Transaction.Armed

/-!
# One outcome for every client transaction

The listener of a client transaction hears provisional responses, and then one
outcome: a success, a failure or a timeout.  After the outcome it hears nothing more,
and after `terminate` nothing at all.

Three timers and the message handler may bring the outcome.  What keeps them apart is
that Timer B or F runs only while the transaction waits for an answer
(`TimesOut`): a final response stops it, and in the INVITE client the first
provisional response does.
-/

namespace SoftPhone

open Machine

/-- A provisional response, and no outcome. -/
def ClientCallback.IsProvisional : ClientCallback → Prop
  | .onTransProvisionalResponse _ => True
  | _ => False

instance (k : ClientCallback) : Decidable k.IsProvisional :=
  match k with
  | .onTransProvisionalResponse _ => isTrue trivial
  | .onTransSuccessResponse _ => isFalse id
  | .onTransFailureResponse _ => isFalse id
  | .onTransTimeout => isFalse id

/-- The start of a client transaction. -/
def TransactionEvent.IsRequest : TransactionEvent → Prop
  | .request _ => True
  | _ => False

/-- Timer F runs only while an answer may still come. -/
def TransactionClient.TimesOut (t : TransactionClient) : Prop :=
  t.transactionTo.isRunning = true → t.status.isPending = true

/-- Timer B runs only before the first answer. -/
def InviteTransactionClient.TimesOut (t : InviteTransactionClient) : Prop :=
  t.transactionTo.isRunning = true → t.status = .trying

namespace Transaction

/-- A client transaction. -/
def IsClient : Transaction → Prop
  | .client _ | .inviteClient _ => True
  | _ => False

/-- The client transaction waits for an answer. -/
def Awaits : Transaction → Prop
  | .client p => p.self.status.isPending = true
  | .inviteClient p => p.self.status.isPending = true
  | _ => False

/-- The client transaction has a listener. -/
def HasListener : Transaction → Prop
  | .client p => p.self.listener = true
  | .inviteClient p => p.self.listener = true
  | _ => False

/-- Timer B or F runs only while an answer may still come. -/
def TimesOut : Transaction → Prop
  | .client p => p.self.TimesOut
  | .inviteClient p => p.self.TimesOut
  | _ => True

/-- What one event of a client transaction does, seen by its listener. -/
structure ClientTold (S : SipStack) (T : Transaction) (e : TransactionEvent) : Prop where
  timesOut : (T.step S e).TimesOut
  awaits : ¬ e.IsRequest → (T.step S e).Awaits → T.Awaits
  hasListener : (T.step S e).HasListener → T.HasListener
  /-- A callback finds a transaction that waits, and an outcome ends the waiting. -/
  callback : ∀ k ∈ T.callback e, T.Awaits ∧ T.HasListener ∧
    (¬ k.IsProvisional → ¬ (T.step S e).Awaits)

end Transaction

/-! ## The two classes -/

/-- What holds of a transaction, with the timer stopped and after its expiry, holds
when the timer may or may not be heard. -/
theorem Timer.expire_of {σ κ ρ : Type} {P : σ → Prop} {timer : Timer} {t halted : σ}
    {onTimeout : Outcome σ κ ρ} (ht : P t) (hhalted : P halted) (hdone : P onTimeout.self) :
    P (timer.expire t halted onTimeout).self := by
  unfold expire
  split
  · split
    · exact hdone
    · exact hhalted
  · exact ht

namespace ClientStep

variable {s s' : ClientState} {c : Option ClientCallback}

/-- An outcome ends the waiting. -/
theorem isPending_of_outcome {k : ClientCallback} (h : ClientStep s (some k) s')
    (hk : ¬ k.IsProvisional) : s'.status.isPending = false := by
  refine h.isPending_of_final fun m hm => hk ?_
  rw [hm]
  trivial

end ClientStep

namespace TransactionClient

theorem TimesOut.of_halted {t : TransactionClient} (h : t.transactionTo.isRunning = false) :
    t.TimesOut := by
  intro hrun
  rw [h] at hrun
  cases hrun

theorem TimesOut.isRunning_doTerminate {t : TransactionClient} (h : t.TimesOut) :
    t.doTerminate.1.transactionTo.isRunning = false := by
  unfold doTerminate
  split
  · next hterminated =>
    refine Bool.eq_false_iff.mpr fun hrun => ?_
    have hpending := h hrun
    rw [hterminated] at hpending
    cases hpending
  · exact Timer.isRunning_halt _

theorem TimesOut.doTerminate {t : TransactionClient} (h : t.TimesOut) : t.doTerminate.1.TimesOut :=
  .of_halted h.isRunning_doTerminate

/-- A message makes a callback only when the transaction waits. -/
theorem isPending_of_callback {t : TransactionClient} {m : SipMessage} {k : ClientCallback}
    (h : (t.onReceivedMessage m).callback = some k) : t.status.isPending = true := by
  unfold onReceivedMessage at h
  split at h
  · cases h
  · split at h
    · next hcond => exact hcond.2.2
    · split at h
      · next hcond => exact hcond.2.2
      · cases h

/-- A timer makes a callback only when it is Timer F, and runs. -/
theorem isRunning_of_callback {t : TransactionClient} {n : TimerName} {k : ClientCallback}
    (h : (t.expire n).callback = some k) : t.transactionTo.isRunning = true := by
  cases n with
  | transaction =>
    simp only [expire, timer, Timer.expire] at h
    split at h
    · assumption
    · cases h
  | retransmission => 
    simp only [expire, timer, Timer.expire] at h
    split at h
    · split at h
      · unfold onTimeout at h
        dsimp only at h
        split at h <;> cases h
      · cases h
    · cases h
  | clearing =>
    simp only [expire, timer, Timer.expire, onTimeout] at h
    split at h
    · split at h <;> cases h
    · cases h
  | ending => cases h

theorem TimesOut.onReceivedMessage {t : TransactionClient} (h : t.TimesOut) (m : SipMessage) :
    (t.onReceivedMessage m).self.TimesOut := by
  unfold TransactionClient.onReceivedMessage
  split
  · exact h
  · split
    · exact fun _ => rfl
    · split
      · exact .of_halted (Timer.isRunning_halt _)
      · exact h

theorem TimesOut.haltTimer {t : TransactionClient} (h : t.TimesOut) (n : TimerName) :
    (t.haltTimer n).TimesOut := by
  cases n with
  | transaction => exact .of_halted (Timer.isRunning_halt _)
  | retransmission => exact h
  | clearing => exact h
  | ending => exact h

theorem TimesOut.onTimeout {t : TransactionClient} (h : t.TimesOut) (n : TimerName) :
    (t.onTimeout n).self.TimesOut := by
  cases n with
  | transaction => exact h.doTerminate
  | retransmission =>
    unfold TransactionClient.onTimeout
    dsimp only
    split <;> exact h
  | clearing => exact h.doTerminate
  | ending => exact h

theorem TimesOut.expire {t : TransactionClient} (h : t.TimesOut) (n : TimerName) :
    (t.expire n).self.TimesOut := by
  unfold TransactionClient.expire
  split
  · exact Timer.expire_of h (h.haltTimer n) ((h.haltTimer n).onTimeout n)
  · exact h

theorem TimesOut.resume {t : TransactionClient} (h : t.TimesOut) (k : ClientRest) :
    (t.resume k).1.TimesOut := by
  cases k with
  | dropListener => exact h
  | settle =>
    unfold TransactionClient.resume
    dsimp only
    split
    · exact h
    · exact h.doTerminate

end TransactionClient

namespace InviteTransactionClient

theorem TimesOut.of_halted {t : InviteTransactionClient}
    (h : t.transactionTo.isRunning = false) : t.TimesOut := by
  intro hrun
  rw [h] at hrun
  cases hrun

theorem TimesOut.isRunning_doTerminate {t : InviteTransactionClient} (h : t.TimesOut) :
    t.doTerminate.1.transactionTo.isRunning = false := by
  unfold doTerminate
  split
  · next hterminated =>
    refine Bool.eq_false_iff.mpr fun hrun => ?_
    have htrying := h hrun
    rw [hterminated] at htrying
    cases htrying
  · exact Timer.isRunning_halt _

theorem TimesOut.doTerminate {t : InviteTransactionClient} (h : t.TimesOut) :
    t.doTerminate.1.TimesOut :=
  .of_halted h.isRunning_doTerminate

/-- A message makes a callback only when the transaction waits. -/
theorem isPending_of_callback {t : InviteTransactionClient} {conn : Option ConnectionId}
    {m : SipMessage} {k : ClientCallback} (h : (t.onReceivedMessage conn m).callback = some k) :
    t.status.isPending = true := by
  unfold onReceivedMessage at h
  split at h
  · cases h
  · split at h
    · next hcond => exact hcond.2.2
    · split at h
      · next hcond => exact hcond.2.2
      · split at h
        · cases h
        · split at h
          · next hcond => exact hcond.2.2
          · cases h

/-- A timer makes a callback only when it is Timer B, and runs. -/
theorem isRunning_of_callback {t : InviteTransactionClient} {n : TimerName} {k : ClientCallback}
    (h : (t.expire n).callback = some k) : t.transactionTo.isRunning = true := by
  cases n with
  | transaction =>
    simp only [expire, timer, Timer.expire] at h
    split at h
    · assumption
    · cases h
  | retransmission =>
    simp only [expire, timer, Timer.expire] at h
    split at h
    · split at h
      · unfold onTimeout at h
        dsimp only at h
        split at h <;> cases h
      · cases h
    · cases h
  | ending =>
    simp only [expire, timer, Timer.expire, onTimeout] at h
    split at h
    · split at h <;> cases h
    · cases h
  | clearing => cases h

theorem TimesOut.onReceivedMessage {t : InviteTransactionClient} (h : t.TimesOut)
    (conn : Option ConnectionId) (m : SipMessage) :
    (t.onReceivedMessage conn m).self.TimesOut := by
  have hhalt : t.transactionTo.halt.isRunning = false := Timer.isRunning_halt _
  unfold InviteTransactionClient.onReceivedMessage
  split
  · exact h
  · split
    · dsimp only
      split
      · exact .of_halted hhalt
      · exact h
    · split
      · exact .of_halted hhalt
      · split
        · exact h
        · split
          · exact h.doTerminate
          · exact h

theorem TimesOut.haltTimer {t : InviteTransactionClient} (h : t.TimesOut) (n : TimerName) :
    (t.haltTimer n).TimesOut := by
  cases n with
  | transaction => exact .of_halted (Timer.isRunning_halt _)
  | retransmission => exact h
  | clearing => exact h
  | ending => exact h

theorem TimesOut.onTimeout {t : InviteTransactionClient} (h : t.TimesOut) (n : TimerName) :
    (t.onTimeout n).self.TimesOut := by
  cases n with
  | transaction => exact h.doTerminate
  | retransmission =>
    unfold InviteTransactionClient.onTimeout
    dsimp only
    split <;> exact h
  | ending => exact .of_halted h.isRunning_doTerminate
  | clearing => exact h

theorem TimesOut.expire {t : InviteTransactionClient} (h : t.TimesOut) (n : TimerName) :
    (t.expire n).self.TimesOut := by
  unfold InviteTransactionClient.expire
  split
  · exact Timer.expire_of h (h.haltTimer n) ((h.haltTimer n).onTimeout n)
  · exact h

theorem TimesOut.resume {t : InviteTransactionClient} (h : t.TimesOut) (k : ClientRest) :
    (t.resume k).1.TimesOut := by
  cases k with
  | dropListener => exact h
  | settle =>
    unfold InviteTransactionClient.resume
    dsimp only
    split
    · exact h
    · exact TimesOut.doTerminate (t := { t with listener := false }) h

end InviteTransactionClient

namespace Transaction

variable {S : SipStack}

/-- A message or a timer that finds the transaction at rest. -/
theorem ClientTold.of_idle {T : Transaction} {e : TransactionEvent} {s s' : ClientState}
    {c : Option ClientCallback} (htimes : (T.step S e).TimesOut)
    (hawaits : T.Awaits ↔ s.status.isPending = true) (hlistener : T.HasListener ↔ s.listener = true)
    (hawaits' : (T.step S e).Awaits ↔ s'.status.isPending = true)
    (hlistener' : (T.step S e).HasListener ↔ s'.listener = true) (hstep : ClientStep s c s')
    (hcallback : T.callback e = c) (hpending : ∀ k ∈ c, s.status.isPending = true) :
    ClientTold S T e where
  timesOut := htimes
  awaits _ h := hawaits.mpr (hstep.isPending_of (hawaits'.mp h))
  hasListener h := hlistener.mpr (hstep.listener_of (hlistener'.mp h))
  callback k hk := by
    rw [hcallback] at hk
    have hk' : c = some k := hk
    subst hk'
    refine ⟨hawaits.mpr (hpending k rfl), hlistener.mpr hstep.listener_of_callback, ?_⟩
    intro hout h
    rw [hawaits', hstep.isPending_of_outcome hout] at h
    cases h

/-- An event that changes nothing. -/
theorem ClientTold.of_stay {T : Transaction} {e : TransactionEvent} (h : T.TimesOut)
    (hstep : T.step S e = T) (hcallback : T.callback e = none) : ClientTold S T e := by
  refine ⟨?_, fun _ h => ?_, fun h => ?_, ?_⟩
  · rwa [hstep]
  · rwa [hstep] at h
  · rwa [hstep] at h
  · simp [hcallback]

theorem clientTold_client {p : Running TransactionClient ClientRest} (h : p.self.TimesOut)
    (e : TransactionEvent) : ClientTold S (client p) e := by
  obtain ⟨t, r⟩ := p
  cases e with
  | received m conn =>
    match r with
    | none =>
      exact .of_idle (h.onReceivedMessage m) Iff.rfl Iff.rfl Iff.rfl Iff.rfl
        (t.step_onReceivedMessage m) rfl fun k hk => t.isPending_of_callback hk
    | some k => exact .of_stay h rfl rfl
  | expired n =>
    match r with
    | none =>
      exact .of_idle (h.expire n) Iff.rfl Iff.rfl Iff.rfl Iff.rfl
        (t.step_expire n) rfl fun k hk => h (t.isRunning_of_callback hk)
    | some k => exact .of_stay h rfl rfl
  | request conn => exact ⟨fun _ => rfl, fun hr => absurd trivial hr, id, by simp [callback]⟩
  | terminate =>
    refine ⟨h.doTerminate, fun _ ha => ?_, fun hl => (by cases hl), by simp [callback]⟩
    have ha : t.doTerminate.1.status.isPending = true := ha
    rw [t.doTerminate_spec.1] at ha
    cases ha
  | returns =>
    match r with
    | none => exact .of_stay h rfl rfl
    | some k =>
      obtain ⟨hstatus, -, hlistener⟩ := t.state_resume k
      refine ⟨h.resume k, fun _ ha => ?_, hlistener, by simp [callback]⟩
      have ha : (t.resume k).1.status.isPending = true := ha
      rcases hstatus with hs | hs <;> rw [hs] at ha
      · exact ha
      · cases ha
  | listen => exact .of_stay h rfl rfl
  | respondWith resp => exact .of_stay h rfl rfl
  | respond => exact .of_stay h rfl rfl
  | setAutoTrying autoTrying => exact .of_stay h rfl rfl

theorem clientTold_inviteClient {p : Running InviteTransactionClient ClientRest}
    (h : p.self.TimesOut) (e : TransactionEvent) : ClientTold S (inviteClient p) e := by
  obtain ⟨t, r⟩ := p
  cases e with
  | received m conn =>
    match r with
    | none =>
      exact .of_idle (h.onReceivedMessage conn m) Iff.rfl Iff.rfl Iff.rfl Iff.rfl
        (t.step_onReceivedMessage conn m) rfl fun k hk => t.isPending_of_callback hk
    | some k => exact .of_stay h rfl rfl
  | expired n =>
    match r with
    | none =>
      refine .of_idle (h.expire n) Iff.rfl Iff.rfl Iff.rfl Iff.rfl
        (t.step_expire n) rfl fun k hk => ?_
      have htrying : t.status = .trying := h (t.isRunning_of_callback hk)
      rw [InviteTransactionClient.state, htrying]
      rfl
    | some k => exact .of_stay h rfl rfl
  | request conn => exact ⟨fun _ => rfl, fun hr => absurd trivial hr, id, by simp [callback]⟩
  | terminate =>
    refine ⟨h.doTerminate, fun _ ha => ?_, fun hl => (by cases hl), by simp [callback]⟩
    have ha : t.doTerminate.1.status.isPending = true := ha
    rw [t.doTerminate_spec.1] at ha
    cases ha
  | returns =>
    match r with
    | none => exact .of_stay h rfl rfl
    | some k =>
      obtain ⟨hstatus, -, hlistener⟩ := t.state_resume k
      refine ⟨h.resume k, fun _ ha => ?_, fun hl => ?_, by simp [callback]⟩
      · have ha : (t.resume k).1.status.isPending = true := ha
        rcases hstatus with hs | hs <;> rw [hs] at ha
        · exact ha
        · cases ha
      · have hl : (t.resume k).1.listener = true := hl
        rw [hlistener] at hl
        cases hl
  | listen => exact .of_stay h rfl rfl
  | respondWith resp => exact .of_stay h rfl rfl
  | respond => exact .of_stay h rfl rfl
  | setAutoTrying autoTrying => exact .of_stay h rfl rfl

/-! ## Every client transaction -/

theorem clientTold {T : Transaction} (h : T.TimesOut) (e : TransactionEvent)
    (hclient : T.IsClient) : ClientTold S T e := by
  cases T with
  | client p => exact clientTold_client h e
  | inviteClient p => exact clientTold_inviteClient h e
  | server p => exact hclient.elim
  | inviteServer p => exact hclient.elim
  | ackServer p => exact hclient.elim

theorem IsClient.step {T : Transaction} (h : T.IsClient) (e : TransactionEvent) :
    (T.step S e).IsClient := by
  cases T with
  | client p => trivial
  | inviteClient p => trivial
  | server p => exact h
  | inviteServer p => exact h
  | ackServer p => exact h

/-- What the runs of a client transaction keep. -/
structure ClientKept (T : Transaction) : Prop where
  isClient : T.IsClient
  timesOut : T.TimesOut

theorem ClientKept.told {T : Transaction} (h : T.ClientKept) (e : TransactionEvent) :
    ClientTold S T e :=
  clientTold h.timesOut e h.isClient

theorem ClientKept.step {T : Transaction} (h : T.ClientKept) (e : TransactionEvent) :
    (T.step S e).ClientKept :=
  ⟨h.isClient.step e, (h.told e).timesOut⟩

theorem Start.clientKept {T : Transaction} (h : Start S T) (hclient : T.IsClient) :
    T.ClientKept := by
  cases h with
  | client req listener => exact ⟨trivial, fun h => by cases h⟩
  | inviteClient req listener => exact ⟨trivial, fun h => by cases h⟩
  | server req listener => exact hclient.elim
  | listeningServer method listener => exact hclient.elim
  | cancelServer req listener => exact hclient.elim
  | inviteServer autoTrying invite listener => exact hclient.elim
  | listeningInviteServer listener => exact hclient.elim
  | ackServer conn invite resp listener => exact hclient.elim

theorem Start.not_awaits {T : Transaction} (h : Start S T) : ¬ T.Awaits := by
  intro ha
  cases h with
  | client req listener => cases ha
  | inviteClient req listener => cases ha
  | server req listener => exact ha
  | listeningServer method listener => exact ha
  | cancelServer req listener => exact ha
  | inviteServer autoTrying invite listener => exact ha
  | listeningInviteServer listener => exact ha
  | ackServer conn invite resp listener => exact ha

/-- The callbacks of a run, in order. -/
def callbacks (S : SipStack) (T : Transaction) (es : List TransactionEvent) :
    List ClientCallback :=
  outputs (step S) (fun T e => (T.callback e).toList) T es

/-- A transaction that does not wait makes no callback, until it is started. -/
theorem callbacks_of_not_awaits {T : Transaction} (h : T.ClientKept) (ha : ¬ T.Awaits)
    {es : List TransactionEvent} (hes : ∀ e ∈ es, ¬ e.IsRequest) :
    callbacks S T es = [] ∧ ¬ (run (step S) T es).Awaits := by
  induction es generalizing T with
  | nil => exact ⟨rfl, ha⟩
  | cons e es ih =>
    have he : ¬ e.IsRequest := hes e (List.mem_cons_self ..)
    have htold := h.told (S := S) e
    have hnone : T.callback e = none := by
      cases hc : T.callback e with
      | none => rfl
      | some k => exact absurd (htold.callback k hc).1 ha
    obtain ⟨hcalls, hrun⟩ := ih (h.step (S := S) e) (fun ha' => ha (htold.awaits he ha'))
      fun e' he' => hes e' (List.mem_cons_of_mem e he')
    refine ⟨?_, hrun⟩
    show (T.callback e).toList ++ callbacks S (T.step S e) es = []
    rw [hnone, hcalls]
    rfl

/-- A transaction without listener makes no callback. -/
theorem callbacks_of_not_hasListener {T : Transaction} (h : T.ClientKept)
    (hl : ¬ T.HasListener) (es : List TransactionEvent) : callbacks S T es = [] := by
  refine outputs_eq_nil (E := fun _ => True) (I := fun T => T.ClientKept ∧ ¬ T.HasListener)
    ?_ (fun _ _ => trivial) ⟨h, hl⟩
  intro T e _ ⟨h, hl⟩
  have htold := h.told (S := S) e
  refine ⟨?_, h.step e, fun hl' => hl (htold.hasListener hl')⟩
  cases hc : T.callback e with
  | none => rfl
  | some k => exact absurd (htold.callback k hc).2.1 hl

/-- After `terminate` there is no listener. -/
theorem not_hasListener_terminate (T : Transaction) : ¬ (T.step S .terminate).HasListener := by
  intro h
  cases T with
  | client p => cases h
  | inviteClient p => cases h
  | server p => exact h
  | inviteServer p => exact h
  | ackServer p => exact h

/-- A run that starts no transaction: provisional responses, and at most one
outcome after them. -/
theorem callbacks_of_kept {T : Transaction} (h : T.ClientKept) {es : List TransactionEvent}
    (hes : ∀ e ∈ es, ¬ e.IsRequest) :
    ∃ early last, callbacks S T es = early ++ Option.toList last ∧
      (∀ k ∈ early, k.IsProvisional) ∧ ∀ k ∈ last, ¬ k.IsProvisional := by
  refine outputs_early_append (E := fun e => ¬ e.IsRequest) (I := ClientKept) (O := Awaits)
    (fun T e _ h => h.step e) ?_ ?_ hes h
  · intro T e he h ha
    have htold := h.told (S := S) e
    refine ⟨?_, fun ha' => ha (htold.awaits he ha')⟩
    cases hc : T.callback e with
    | none => rfl
    | some k => exact absurd (htold.callback k hc).1 ha
  · intro T e _ h
    have htold := h.told (S := S) e
    cases hc : T.callback e with
    | none => exact .inl (by simp)
    | some k =>
      by_cases hk : k.IsProvisional
      · exact .inl (by simpa using hk)
      · exact .inr ⟨k, rfl, hk, (htold.callback k hc).2.2 hk⟩

/-- **One outcome.**  A client transaction is started once; whatever comes before and
after, its listener hears provisional responses first and at most one outcome after
them, and nothing after `terminate`. -/
theorem one_outcome {T : Transaction} (hT : Start S T) (hclient : T.IsClient)
    (conn : Option ConnectionId) {es fs : List TransactionEvent}
    (hes : ∀ e ∈ es, ¬ e.IsRequest) (hfs : ∀ e ∈ fs, ¬ e.IsRequest) :
    (∃ early last, callbacks S T (es ++ .request conn :: fs) = early ++ Option.toList last ∧
      (∀ k ∈ early, k.IsProvisional) ∧ ∀ k ∈ last, ¬ k.IsProvisional) ∧
    ∀ before after, es ++ .request conn :: fs = before ++ .terminate :: after →
      callbacks S (run (step S) T (before ++ [.terminate])) after = [] := by
  have hkept := hT.clientKept hclient
  have hrun (gs : List TransactionEvent) : (run (step S) T gs).ClientKept :=
    run_invariant (fun T e h => h.step e) gs hkept
  constructor
  · have hsplit : callbacks S T (es ++ .request conn :: fs) =
        callbacks S (run (step S) T (es ++ [.request conn])) fs := by
      obtain ⟨hbefore, -⟩ := callbacks_of_not_awaits (S := S) hkept hT.not_awaits hes
      have hrequest : (run (step S) T es).callback (.request conn) = none := by
        cases run (step S) T es <;> rfl
      rw [callbacks, outputs_append, show outputs _ _ T es = [] from hbefore, outputs_cons,
        hrequest, run_append]
      rfl
    rw [hsplit]
    exact callbacks_of_kept (hrun _) hfs
  · intro before after _
    refine callbacks_of_not_hasListener (hrun _) ?_ after
    rw [run_append]
    exact not_hasListener_terminate _

/-- The INVITE client that is refused twice, and terminated. -/
theorem one_outcome_refused :
    (∃ early last, callbacks {} (.inviteClient { self := .new sampleInvite true })
        ([] ++ .request none :: [.received (sampleResponse sampleInvite 180) none,
          .received (sampleResponse sampleInvite 486) none, .returns, .terminate,
          .received (sampleResponse sampleInvite 486) none]) = early ++ Option.toList last ∧
      (∀ k ∈ early, k.IsProvisional) ∧ ∀ k ∈ last, ¬ k.IsProvisional) ∧
    ∀ before after, [] ++ .request none :: [.received (sampleResponse sampleInvite 180) none,
        .received (sampleResponse sampleInvite 486) none, .returns, .terminate,
        .received (sampleResponse sampleInvite 486) none] = before ++ .terminate :: after →
      callbacks {} (run (step {}) (.inviteClient { self := .new sampleInvite true })
        (before ++ [.terminate])) after = [] :=
  one_outcome (S := {}) (.inviteClient _ _) trivial none (by simp)
    (by simp [TransactionEvent.IsRequest])

end Transaction
end SoftPhone
