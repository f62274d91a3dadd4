import SoftPhone.Transaction.Client

/-!
# The client transaction seen from the dialog

A dialog does not see timers or retransmissions.  What it sees of a client
transaction is a `ClientState`: the status, the request, whether the transaction
still has a listener and whether its last timer runs.  `ClientStep` says what one
message or one timer does to it and which callback comes with it; both classes of
client transactions refine it, and so does what they do after their callbacks.

A transaction that waits for an answer has not started its last timer
(`ClientState.Waiting`), so it ends with a callback and not silently.
-/

namespace SoftPhone

/-- What a dialog sees of a client transaction. -/
structure ClientState where
  status : TransactionStatus
  request : SipMessage
  listener : Bool
  /-- The timer of the completed state runs: Timer D or K. -/
  lastTimer : Bool

namespace ClientState

/-- The callback, when there is a listener. -/
def notify (s : ClientState) (c : ClientCallback) : Option ClientCallback :=
  if s.listener then some c else none

/-- A listener is told what it is notified of. -/
theorem eq_of_notify {s : ClientState} {k c : ClientCallback} (h : some k = s.notify c) :
    k = c := by
  unfold notify at h
  split at h
  · exact Option.some.inj h
  · cases h

/-- The transaction waits for an answer, and its listener for the callback. -/
def Pending (s : ClientState) : Prop := s.status.isPending = true ∧ s.listener = true

/-- The last timer is not started before there is an answer. -/
def Waiting (s : ClientState) : Prop := s.status.isPending = true → s.lastTimer = false

end ClientState

/-- One message or one timer. -/
inductive ClientStep (s : ClientState) : Option ClientCallback → ClientState → Prop where
  | stay (lastTimer : Bool) (h : lastTimer = true → s.lastTimer = true) :
      ClientStep s none { s with lastTimer := lastTimer }
  | provisional (m : SipMessage) (status : TransactionStatus) (hs : s.status.isPending = true)
      (hs' : status.isPending = true) :
      ClientStep s (s.notify (.onTransProvisionalResponse m)) { s with status := status }
  | success (m : SipMessage) (status : TransactionStatus) (lastTimer : Bool)
      (hs : s.status.isPending = true) (hs' : status.isPending = false)
      (hcode : 200 ≤ m.code ∧ m.code < 300) :
      ClientStep s (s.notify (.onTransSuccessResponse m))
        { s with status := status, lastTimer := lastTimer }
  | failure (m : SipMessage) (status : TransactionStatus) (hs : s.status.isPending = true)
      (hs' : status.isPending = false) :
      ClientStep s (s.notify (.onTransFailureResponse m)) { s with status := status }
  | timeout (lastTimer : Bool) : ClientStep s (s.notify .onTransTimeout)
      { s with status := .terminated, lastTimer := lastTimer }
  /-- The last timer expires, and there is no callback. -/
  | ended (listener lastTimer : Bool) (h : s.lastTimer = true)
      (hl : listener = true → s.listener = true) :
      ClientStep s none
        { s with status := .terminated, listener := listener, lastTimer := lastTimer }

namespace ClientStep

variable {s s' : ClientState} {c : Option ClientCallback}

theorem request_eq (h : ClientStep s c s') : s'.request = s.request := by
  cases h <;> rfl

theorem listener_of (h : ClientStep s c s') (hl : s'.listener = true) : s.listener = true := by
  cases h with
  | ended _ _ _ h => exact h hl
  | _ => exact hl

/-- A callback is made to a listener only. -/
theorem listener_of_callback {k : ClientCallback} (h : ClientStep s (some k) s') :
    s.listener = true := by
  generalize hk : some k = o at h
  cases h with
  | stay => cases hk
  | ended => cases hk
  | provisional => exact listener_of_notify hk
  | success => exact listener_of_notify hk
  | failure => exact listener_of_notify hk
  | timeout => exact listener_of_notify hk
where
  listener_of_notify {k k' : ClientCallback} (hk : some k = s.notify k') : s.listener = true := by
    unfold ClientState.notify at hk
    split at hk
    · next hl => exact hl
    · cases hk

/-- No step makes a transaction wait again. -/
theorem isPending_of (h : ClientStep s c s') (hs' : s'.status.isPending = true) :
    s.status.isPending = true := by
  cases h with
  | stay => exact hs'
  | provisional _ _ hs => exact hs
  | success _ _ _ hs => exact hs
  | failure _ _ hs => exact hs
  | timeout => cases hs'
  | ended => cases hs'

theorem isPending_eq_false (h : ClientStep s c s') (hs : s.status.isPending = false) :
    s'.status.isPending = false := by
  rw [← Bool.not_eq_true] at hs ⊢
  exact fun hs' => hs (h.isPending_of hs')

theorem pending_of (h : ClientStep s c s') (hp : s'.Pending) : s.Pending :=
  ⟨h.isPending_of hp.1, h.listener_of hp.2⟩

theorem waiting (h : ClientStep s c s') (hw : s.Waiting) : s'.Waiting := by
  intro hs'
  cases h with
  | stay lastTimer hl =>
    cases hb : lastTimer with
    | false => rfl
    | true =>
      have hrun := hl hb
      rw [hw hs'] at hrun
      cases hrun
  | provisional _ _ hs => exact hw hs
  | success _ _ _ _ hfinal =>
    rw [show _ = false from hfinal] at hs'
    cases hs'
  | failure _ _ _ hfinal =>
    rw [show _ = false from hfinal] at hs'
    cases hs'
  | timeout => cases hs'
  | ended => cases hs'

/-- A waiting transaction that makes no callback still waits. -/
theorem pending_of_none (h : ClientStep s none s') (hw : s.Waiting) (hp : s.Pending) :
    s'.Pending := by
  generalize hk : (none : Option ClientCallback) = o at h
  have hsome (k : ClientCallback) : none ≠ s.notify k := by
    simp [ClientState.notify, hp.2]
  cases h with
  | stay => exact hp
  | provisional => exact absurd hk (hsome _)
  | success => exact absurd hk (hsome _)
  | failure => exact absurd hk (hsome _)
  | timeout => exact absurd hk (hsome _)
  | ended _ _ h =>
    rw [hw hp.1] at h
    cases h

end ClientStep

/-- The message a callback is about. -/
def ClientCallback.message : ClientCallback → Option SipMessage
  | .onTransProvisionalResponse m => some m
  | .onTransSuccessResponse m => some m
  | .onTransFailureResponse m => some m
  | .onTransTimeout => none

/-- Every callback but that of a timeout is about a message. -/
theorem ClientCallback.exists_message {k : ClientCallback} (h : k ≠ .onTransTimeout) :
    ∃ m, k.message = some m := by
  cases k with
  | onTransProvisionalResponse m => exact ⟨m, rfl⟩
  | onTransSuccessResponse m => exact ⟨m, rfl⟩
  | onTransFailureResponse m => exact ⟨m, rfl⟩
  | onTransTimeout => exact absurd rfl h

/-- A callback that is about a message is made by a transaction that waits. -/
theorem ClientStep.pending_of_message {s s' : ClientState} {k : ClientCallback} {m : SipMessage}
    (h : ClientStep s (some k) s') (hm : k.message = some m) : s.Pending := by
  refine ⟨?_, h.listener_of_callback⟩
  generalize hk : some k = o at h
  cases h with
  | stay => cases hk
  | ended => cases hk
  | provisional _ _ hs => exact hs
  | success _ _ _ hs => exact hs
  | failure _ _ hs => exact hs
  | timeout =>
    rw [ClientState.eq_of_notify hk] at hm
    cases hm

/-- After a callback about a final response, or about none, the transaction waits no
more. -/
theorem ClientStep.isPending_of_final {s s' : ClientState} {k : ClientCallback}
    (h : ClientStep s (some k) s') (hk : ∀ m, k ≠ .onTransProvisionalResponse m) :
    s'.status.isPending = false := by
  generalize hc : some k = o at h
  cases h with
  | stay => cases hc
  | ended => cases hc
  | provisional m => exact absurd (ClientState.eq_of_notify hc) (hk m)
  | success _ _ _ _ hfinal => exact hfinal
  | failure _ _ _ hfinal => exact hfinal
  | timeout => rfl

/-- A provisional response leaves a transaction waiting. -/
theorem ClientStep.pending_of_provisional {s s' : ClientState} {m : SipMessage}
    (h : ClientStep s (some (.onTransProvisionalResponse m)) s') (hp : s.Pending) :
    s'.Pending := by
  generalize hk : some (ClientCallback.onTransProvisionalResponse m) = o at h
  cases h with
  | stay => cases hk
  | ended => cases hk
  | provisional _ _ _ hs' => exact ⟨hs', hp.2⟩
  | success => cases ClientState.eq_of_notify hk
  | failure => cases ClientState.eq_of_notify hk
  | timeout => cases ClientState.eq_of_notify hk

/-- A success is one by its code. -/
theorem ClientStep.code_of_success {s s' : ClientState} {m : SipMessage}
    (h : ClientStep s (some (.onTransSuccessResponse m)) s') : 200 ≤ m.code ∧ m.code < 300 := by
  generalize hk : some (ClientCallback.onTransSuccessResponse m) = o at h
  cases h with
  | stay => cases hk
  | ended => cases hk
  | provisional => cases ClientState.eq_of_notify hk
  | success _ _ _ _ _ hcode =>
    cases ClientState.eq_of_notify hk
    exact hcode
  | failure => cases ClientState.eq_of_notify hk
  | timeout => cases ClientState.eq_of_notify hk

/-- One message or one timer, with what is left to do: that is something only when the
transaction has its answer. -/
structure ClientState.Did (s : ClientState) (c : Option ClientCallback)
    (rest : Option ClientRest) (s' : ClientState) : Prop where
  step : ClientStep s c s'
  rest : rest ≠ none → s'.status.isPending = false

/-! ## The two classes -/

/-- What a dialog sees. -/
def TransactionClient.state (t : TransactionClient) : ClientState :=
  ⟨t.status, t.request, t.listener, t.clearingTo.isRunning⟩

/-- What a dialog sees. -/
def InviteTransactionClient.state (t : InviteTransactionClient) : ClientState :=
  ⟨t.status, t.request, t.listener, t.endTo.isRunning⟩

namespace TransactionClient

theorem step_onReceivedMessage (t : TransactionClient) (m : SipMessage) :
    ClientStep t.state (t.onReceivedMessage m).callback (t.onReceivedMessage m).self.state := by
  unfold onReceivedMessage
  split
  · exact .stay _ id
  · next code hcode =>
    have hm : m.code = code := by simp [SipMessage.code, hcode]
    split
    · next h => exact .provisional m .proceeding h.2.2 rfl
    · split
      · next h =>
        dsimp only
        split
        · exact .success m .completed _ h.2.2 rfl (by omega)
        · exact .failure m .completed h.2.2 rfl
      · exact .stay _ id

theorem did_onReceivedMessage (t : TransactionClient) (m : SipMessage) :
    t.state.Did (t.onReceivedMessage m).callback (t.onReceivedMessage m).rest
      (t.onReceivedMessage m).self.state := by
  refine ⟨t.step_onReceivedMessage m, ?_⟩
  unfold onReceivedMessage
  split
  · exact fun h => absurd rfl h
  · split
    · exact fun h => absurd rfl h
    · split
      · exact fun _ => rfl
      · exact fun h => absurd rfl h

/-- A callback is about the message that was received. -/
theorem message_onReceivedMessage {t : TransactionClient} {m m' : SipMessage}
    {c : ClientCallback} (hc : (t.onReceivedMessage m).callback = some c)
    (hm : c.message = some m') : m' = m := by
  unfold onReceivedMessage at hc
  split at hc
  · cases hc
  · split at hc
    · unfold notify at hc
      split at hc
      · cases hc
        exact (Option.some.inj hm).symm
      · cases hc
    · split at hc
      · unfold notify at hc
        dsimp only at hc
        split at hc
        · split at hc <;> cases hc <;> exact (Option.some.inj hm).symm
        · cases hc
      · cases hc

theorem doTerminate_spec (t : TransactionClient) :
    t.doTerminate.1.status = .terminated ∧ t.doTerminate.1.request = t.request ∧
      t.doTerminate.1.listener = t.listener := by
  unfold doTerminate
  split
  · next h => exact ⟨h, rfl, rfl⟩
  · exact ⟨rfl, rfl, rfl⟩

/-- The state of a terminated transaction. -/
theorem state_doTerminate (t : TransactionClient) :
    t.doTerminate.1.state = { t.state with
      status := .terminated
      lastTimer := t.doTerminate.1.clearingTo.isRunning } := by
  obtain ⟨hstatus, hrequest, hlistener⟩ := t.doTerminate_spec
  simp only [state, hstatus, hrequest, hlistener]

theorem step_retransmission (t : TransactionClient) :
    ClientStep t.state (t.onTimeout .retransmission).callback
      (t.onTimeout .retransmission).self.state := by
  unfold onTimeout
  dsimp only
  split <;> exact .stay _ id

theorem step_expire (t : TransactionClient) (n : TimerName) :
    ClientStep t.state (t.expire n).callback (t.expire n).self.state := by
  cases n with
  | ending => exact .stay _ id
  | retransmission =>
    simp only [expire, timer, Timer.expire]
    split
    · split
      · exact step_retransmission (t.haltTimer .retransmission)
      · exact .stay _ id
    · exact .stay _ id
  | transaction =>
    simp only [expire, timer, Timer.expire]
    split
    · split
      · simp only [onTimeout, state_doTerminate]
        exact .timeout _
      · exact .stay _ id
    · exact .stay _ id
  | clearing =>
    simp only [expire, timer, Timer.expire]
    split
    · next hrun =>
      split
      · simp only [onTimeout, state_doTerminate]
        exact .ended t.listener _ hrun id
      · exact .stay _ (by simp [haltTimer])
    · exact .stay _ id

/-- A timer leaves something to do only when the transaction has timed out. -/
theorem did_expire (t : TransactionClient) (n : TimerName) :
    t.state.Did (t.expire n).callback (t.expire n).rest (t.expire n).self.state := by
  refine ⟨t.step_expire n, ?_⟩
  cases n with
  | ending => exact fun h => absurd rfl h
  | retransmission =>
    simp only [expire, timer, Timer.expire]
    split
    · split
      · unfold onTimeout
        dsimp only
        split <;> exact fun h => absurd rfl h
      · exact fun h => absurd rfl h
    · exact fun h => absurd rfl h
  | transaction =>
    simp only [expire, timer, Timer.expire]
    split
    · split
      · intro _
        simp only [onTimeout, state_doTerminate]
        rfl
      · exact fun h => absurd rfl h
    · exact fun h => absurd rfl h
  | clearing =>
    simp only [expire, timer, Timer.expire]
    split
    · split <;> exact fun h => absurd rfl h
    · exact fun h => absurd rfl h

/-- The callback of a timer is about no message. -/
theorem message_expire {t : TransactionClient} {n : TimerName} {c : ClientCallback}
    (hc : (t.expire n).callback = some c) : c.message = none := by
  cases n with
  | ending => cases hc
  | retransmission =>
    simp only [expire, timer, Timer.expire] at hc
    split at hc
    · split at hc
      · unfold onTimeout at hc
        dsimp only at hc
        split at hc <;> cases hc
      · cases hc
    · cases hc
  | transaction =>
    simp only [expire, timer, Timer.expire, onTimeout, notify] at hc
    split at hc
    · split at hc
      · split at hc
        · cases hc
          rfl
        · cases hc
      · cases hc
    · cases hc
  | clearing =>
    simp only [expire, timer, Timer.expire, onTimeout] at hc
    split at hc
    · split at hc <;> cases hc
    · cases hc

/-- After its callbacks a transaction keeps its status or terminates. -/
theorem state_resume (t : TransactionClient) (rest : ClientRest) :
    ((t.resume rest).1.status = t.status ∨ (t.resume rest).1.status = .terminated) ∧
      (t.resume rest).1.request = t.request ∧
      ((t.resume rest).1.listener = true → t.listener = true) := by
  cases rest with
  | settle =>
    unfold resume
    dsimp only
    split
    · exact ⟨.inl rfl, rfl, id⟩
    · obtain ⟨hstatus, hrequest, hlistener⟩ := t.doTerminate_spec
      exact ⟨.inr hstatus, hrequest, fun h => hlistener ▸ h⟩
  | dropListener => exact ⟨.inl rfl, rfl, by simp [resume]⟩

end TransactionClient

namespace InviteTransactionClient

theorem doTerminate_spec (t : InviteTransactionClient) :
    t.doTerminate.1.status = .terminated ∧ t.doTerminate.1.request = t.request ∧
      t.doTerminate.1.listener = t.listener := by
  unfold doTerminate
  split
  · next h => exact ⟨h, rfl, rfl⟩
  · exact ⟨rfl, rfl, rfl⟩

/-- The state of a terminated transaction. -/
theorem state_doTerminate (t : InviteTransactionClient) :
    t.doTerminate.1.state = { t.state with
      status := .terminated
      lastTimer := t.doTerminate.1.endTo.isRunning } := by
  obtain ⟨hstatus, hrequest, hlistener⟩ := t.doTerminate_spec
  simp only [state, hstatus, hrequest, hlistener]

theorem step_onReceivedMessage (t : InviteTransactionClient) (conn : Option ConnectionId)
    (m : SipMessage) :
    ClientStep t.state (t.onReceivedMessage conn m).callback
      (t.onReceivedMessage conn m).self.state := by
  unfold onReceivedMessage
  split
  · exact .stay _ id
  · next code hcode =>
    have hm : m.code = code := by simp [SipMessage.code, hcode]
    split
    · next h =>
      dsimp only
      split
      · exact .provisional m .proceeding h.2.2 rfl
      · exact .provisional m t.status h.2.2 h.2.2
    · split
      · next h => exact .failure m .completed h.2.2 rfl
      · split
        · exact .stay _ id
        · split
          · next h =>
            simp only [state_doTerminate]
            exact .success m .terminated _ h.2.2 rfl (by omega)
          · exact .stay _ id

/-- A 2xx ends a transaction that waits. -/
theorem onReceivedMessage_of_success {t : InviteTransactionClient} (conn : Option ConnectionId)
    {m : SipMessage} (hp : t.state.Pending) (hm : m.Is2xx) :
    t.onReceivedMessage conn m =
      { self := t.doTerminate.1
        calls := t.doTerminate.2
        callback := t.notify (.onTransSuccessResponse m)
        rest := some .dropListener } := by
  obtain ⟨hresp, hlow, hhigh⟩ := hm
  obtain ⟨code, hcode⟩ := Option.isSome_iff_exists.mp hresp
  have hm : m.code = code := by simp [SipMessage.code, hcode]
  have hpending : t.status.isPending = true := hp.1
  unfold onReceivedMessage
  rw [hcode]
  dsimp only
  rw [if_neg (by omega), if_neg (by omega), if_neg (by omega),
    if_pos ⟨by omega, by omega, hpending⟩]

/-- Its listener gets the 2xx. -/
theorem callback_of_success {t : InviteTransactionClient} (conn : Option ConnectionId)
    {m : SipMessage} (hp : t.state.Pending) (hm : m.Is2xx) :
    (t.onReceivedMessage conn m).callback = some (.onTransSuccessResponse m) := by
  rw [onReceivedMessage_of_success conn hp hm]
  exact if_pos hp.2

theorem status_of_success {t : InviteTransactionClient} (conn : Option ConnectionId)
    {m : SipMessage} (hp : t.state.Pending) (hm : m.Is2xx) :
    (t.onReceivedMessage conn m).self.status = .terminated := by
  rw [onReceivedMessage_of_success conn hp hm]
  exact t.doTerminate_spec.1

theorem step_retransmission (t : InviteTransactionClient) :
    ClientStep t.state (t.onTimeout .retransmission).callback
      (t.onTimeout .retransmission).self.state := by
  unfold onTimeout
  dsimp only
  split <;> exact .stay _ id

theorem step_expire (t : InviteTransactionClient) (n : TimerName) :
    ClientStep t.state (t.expire n).callback (t.expire n).self.state := by
  cases n with
  | clearing => exact .stay _ id
  | retransmission =>
    simp only [expire, timer, Timer.expire]
    split
    · split
      · exact step_retransmission (t.haltTimer .retransmission)
      · exact .stay _ id
    · exact .stay _ id
  | transaction =>
    simp only [expire, timer, Timer.expire]
    split
    · split
      · simp only [onTimeout, state_doTerminate]
        exact .timeout _
      · exact .stay _ id
    · exact .stay _ id
  | ending =>
    simp only [expire, timer, Timer.expire]
    split
    · next hrun =>
      split
      · simp only [onTimeout]
        obtain ⟨hstatus, hrequest, -⟩ := (t.haltTimer .ending).doTerminate_spec
        simp only [state, hstatus, hrequest]
        exact .ended false _ hrun (by simp)
      · exact .stay _ (by simp [haltTimer])
    · exact .stay _ id

theorem did_onReceivedMessage (t : InviteTransactionClient) (conn : Option ConnectionId)
    (m : SipMessage) :
    t.state.Did (t.onReceivedMessage conn m).callback (t.onReceivedMessage conn m).rest
      (t.onReceivedMessage conn m).self.state := by
  refine ⟨t.step_onReceivedMessage conn m, ?_⟩
  unfold onReceivedMessage
  split
  · exact fun h => absurd rfl h
  · split
    · exact fun h => absurd rfl h
    · split
      · exact fun _ => rfl
      · split
        · exact fun h => absurd rfl h
        · split
          · intro _
            simp only [state_doTerminate]
            rfl
          · exact fun h => absurd rfl h

/-- A callback is about the message that was received. -/
theorem message_onReceivedMessage {t : InviteTransactionClient} {conn : Option ConnectionId}
    {m m' : SipMessage} {c : ClientCallback}
    (hc : (t.onReceivedMessage conn m).callback = some c) (hm : c.message = some m') :
    m' = m := by
  have hnotify {k : ClientCallback} (h : t.notify k = some c) (hk : k.message = some m) :
      m' = m := by
    unfold notify at h
    split at h
    · rw [Option.some.inj h, hm] at hk
      exact Option.some.inj hk
    · cases h
  unfold onReceivedMessage at hc
  split at hc
  · cases hc
  · split at hc
    · exact hnotify hc rfl
    · split at hc
      · exact hnotify hc rfl
      · split at hc
        · cases hc
        · split at hc
          · exact hnotify hc rfl
          · cases hc

/-- A timer leaves something to do only when the transaction has timed out. -/
theorem did_expire (t : InviteTransactionClient) (n : TimerName) :
    t.state.Did (t.expire n).callback (t.expire n).rest (t.expire n).self.state := by
  refine ⟨t.step_expire n, ?_⟩
  cases n with
  | clearing => exact fun h => absurd rfl h
  | retransmission =>
    simp only [expire, timer, Timer.expire]
    split
    · split
      · unfold onTimeout
        dsimp only
        split <;> exact fun h => absurd rfl h
      · exact fun h => absurd rfl h
    · exact fun h => absurd rfl h
  | transaction =>
    simp only [expire, timer, Timer.expire]
    split
    · split
      · intro _
        simp only [onTimeout, state_doTerminate]
        rfl
      · exact fun h => absurd rfl h
    · exact fun h => absurd rfl h
  | ending =>
    simp only [expire, timer, Timer.expire]
    split
    · split <;> exact fun h => absurd rfl h
    · exact fun h => absurd rfl h

/-- The callback of a timer is about no message. -/
theorem message_expire {t : InviteTransactionClient} {n : TimerName} {c : ClientCallback}
    (hc : (t.expire n).callback = some c) : c.message = none := by
  cases n with
  | clearing => cases hc
  | retransmission =>
    simp only [expire, timer, Timer.expire] at hc
    split at hc
    · split at hc
      · unfold onTimeout at hc
        dsimp only at hc
        split at hc <;> cases hc
      · cases hc
    · cases hc
  | transaction =>
    simp only [expire, timer, Timer.expire, onTimeout, notify] at hc
    split at hc
    · split at hc
      · split at hc
        · cases hc
          rfl
        · cases hc
      · cases hc
    · cases hc
  | ending =>
    simp only [expire, timer, Timer.expire, onTimeout] at hc
    split at hc
    · split at hc <;> cases hc
    · cases hc

/-- After its callbacks a transaction keeps its status or terminates, and it has no
listener any more. -/
theorem state_resume (t : InviteTransactionClient) (rest : ClientRest) :
    ((t.resume rest).1.status = t.status ∨ (t.resume rest).1.status = .terminated) ∧
      (t.resume rest).1.request = t.request ∧ (t.resume rest).1.listener = false := by
  cases rest with
  | settle =>
    unfold resume
    dsimp only
    split
    · exact ⟨.inl rfl, rfl, rfl⟩
    · obtain ⟨hstatus, hrequest, hlistener⟩ := doTerminate_spec { t with listener := false }
      exact ⟨.inr hstatus, hrequest, hlistener⟩
  | dropListener => exact ⟨.inl rfl, rfl, rfl⟩

theorem terminate_spec (t : InviteTransactionClient) :
    t.terminate.1.status = .terminated ∧ t.terminate.1.request = t.request ∧
      t.terminate.1.listener = false :=
  ⟨t.doTerminate_spec.1, t.doTerminate_spec.2.1, rfl⟩

end InviteTransactionClient
end SoftPhone
