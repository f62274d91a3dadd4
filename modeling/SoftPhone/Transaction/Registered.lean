import SoftPhone.Machine.Ownership
import SoftPhone.Transaction.Machine

/-!
# What a transaction registers under

A transaction is registered with the provider from the moment it starts, or listens, until it
is terminated, and always under its `transaction_id`.  So its status and its identifier tell
how it stands with the provider (`Standing`), and what every event asks of the provider
accounts for the change (`Transaction.stands_step`).

This is each transaction's own view.  What the provider's table holds is another matter.
-/

namespace SoftPhone

open Machine

/-- The change of the table that a call of the provider asks for. -/
def ProviderCall.write? : ProviderCall → Option (Write SipId)
  | .sendMessage _ => none
  | .addSelectiveListener id => some (.add id)
  | .removeSelectiveListener id => some (.remove id)

/-- The changes of the table that a list of calls asks for. -/
def registrations (cs : List ProviderCall) : List (Write SipId) :=
  cs.filterMap ProviderCall.write?

@[simp] theorem registrations_nil : registrations [] = [] := rfl

@[simp] theorem registrations_cons (c : ProviderCall) (cs : List ProviderCall) :
    registrations (c :: cs) = c.write?.toList ++ registrations cs := by
  cases c <;> rfl

@[simp] theorem registrations_append (cs ds : List ProviderCall) :
    registrations (cs ++ ds) = registrations cs ++ registrations ds :=
  List.filterMap_append

@[simp] theorem registrations_repeat (r : Option SipMessage) :
    registrations (r.toList.map .sendMessage) = [] := by
  cases r <;> rfl

/-- The identifier that a transaction in this state is registered under. -/
def TransactionStatus.registered (s : TransactionStatus) (id : SipId) : Option SipId :=
  if s = .idle ∨ s = .terminated then none else some id

@[simp] theorem TransactionStatus.registered_terminated (id : SipId) :
    TransactionStatus.terminated.registered id = none := rfl

theorem TransactionStatus.registered_eq {s : TransactionStatus} (id : SipId)
    (hs : s ≠ .idle ∧ s ≠ .terminated) : s.registered id = some id := by
  unfold registered
  exact if_neg (by simpa using hs)

theorem TransactionStatus.registered_of_isPending {s : TransactionStatus} (id : SipId)
    (hs : s.isPending = true) : s.registered id = some id := by
  cases s <;> first | rfl | cases hs

/-- Somebody who was registered under `o` and makes the calls `cs` is registered under `o'`. -/
def Registering (o : Option SipId) (cs : List ProviderCall) (o' : Option SipId) : Prop :=
  ∀ k, o' = some k ↔ account (fun j => o = some j) (registrations cs) k

namespace Registering

/-- Nothing is asked of the table. -/
theorem silent {o o' : Option SipId} {cs : List ProviderCall} (hcs : registrations cs = [])
    (ho : o' = o) : Registering o cs o' := by
  intro k
  rw [hcs, ho]
  rfl

theorem congr {o o' : Option SipId} {cs ds : List ProviderCall} (h : Registering o cs o')
    (hcs : registrations ds = registrations cs) : Registering o ds o' := by
  intro k
  rw [hcs]
  exact h k

theorem adds {o : Option SipId} {id : SipId} {cs : List ProviderCall}
    (hcs : registrations cs = [.add id]) (ho : o = none ∨ o = some id) :
    Registering o cs (some id) := by
  intro k
  rw [hcs]
  show some id = some k ↔ k = id ∨ o = some k
  rcases ho with rfl | rfl
  · simp [eq_comm]
  · simp [eq_comm]

theorem removes {o : Option SipId} {id : SipId} {cs : List ProviderCall}
    (hcs : registrations cs = [.remove id]) (ho : o = none ∨ o = some id) :
    Registering o cs none := by
  intro k
  rw [hcs]
  show none = some k ↔ k ≠ id ∧ o = some k
  rcases ho with rfl | rfl
  · simp
  · simpa using fun hne h => hne h.symm

/-- From one identifier to the next. -/
theorem moves {old id : SipId} {cs : List ProviderCall}
    (hcs : registrations cs = [.remove old, .add id]) : Registering (some old) cs (some id) := by
  intro k
  rw [hcs]
  show some id = some k ↔ k = id ∨ k ≠ old ∧ some old = some k
  constructor
  · intro h
    exact .inl (Option.some.inj h).symm
  · rintro (rfl | ⟨hne, h⟩)
    · rfl
    · exact absurd (Option.some.inj h).symm hne

end Registering

/-- A transaction is registered under its identifier or not at all. -/
theorem TransactionStatus.registered_cases (s : TransactionStatus) (id : SipId) :
    s.registered id = none ∨ s.registered id = some id := by
  unfold registered
  split
  · exact .inl rfl
  · exact .inr rfl

/-! ## How a transaction stands with the provider -/

/-- The state and the identifier of a transaction. -/
structure Standing where
  status : TransactionStatus
  id : SipId

/-- The identifier that the transaction is registered under. -/
def Standing.registered (s : Standing) : Option SipId := s.status.registered s.id

/-- A transaction that stood like `s` makes the calls `cs` and stands like `s'`.  It uses no
identifiers but its own, and it changes its own for that of the request it was waiting for. -/
structure Stands (s : Standing) (cs : List ProviderCall) (s' : Standing) : Prop where
  accounts : Registering s.registered cs s'.registered
  keys : ∀ w ∈ registrations cs, w.key = s.id ∨ w.key = s'.id
  id : s'.id = s.id ∨ ∃ m, s'.id = .transactionServer m

namespace Stands

variable {s s' : Standing} {cs ds : List ProviderCall}

theorem silent (hcs : registrations cs = []) (hid : s'.id = s.id)
    (hregistered : s'.registered = s.registered) : Stands s cs s' :=
  ⟨.silent hcs hregistered, by simp [hcs], .inl hid⟩

theorem adds (hcs : registrations cs = [.add s.id]) (hid : s'.id = s.id)
    (hregistered : s'.registered = some s.id) : Stands s cs s' := by
  refine ⟨?_, by simp [hcs, Write.key], .inl hid⟩
  rw [hregistered]
  exact .adds hcs (s.status.registered_cases _)

theorem removes (hcs : registrations cs = [.remove s.id]) (hid : s'.id = s.id)
    (hregistered : s'.registered = none) : Stands s cs s' := by
  refine ⟨?_, by simp [hcs, Write.key], .inl hid⟩
  rw [hregistered]
  exact .removes hcs (s.status.registered_cases _)

theorem moves {m : SipMessage} (hcs : registrations cs = [.remove s.id, .add s'.id])
    (hid : s'.id = .transactionServer m) (hregistered : s.registered = some s.id)
    (hregistered' : s'.registered = some s'.id) : Stands s cs s' := by
  refine ⟨?_, by simp [hcs, Write.key], .inr ⟨m, hid⟩⟩
  rw [hregistered, hregistered']
  exact .moves hcs

theorem congr (h : Stands s cs s') (hcs : registrations ds = registrations cs) : Stands s ds s' :=
  ⟨h.accounts.congr hcs, hcs ▸ h.keys, h.id⟩

/-- A timer that expires stops, and then its owner does something about it. -/
theorem expire {σ κ ρ : Type} {view : σ → Standing} {t halted : σ} {fired : Outcome σ κ ρ}
    (timer : Timer) (hhalt : view halted = view t)
    (hfired : Stands (view halted) fired.calls (view fired.self)) :
    Stands (view t) (timer.expire t halted fired).calls
      (view (timer.expire t halted fired).self) := by
  unfold Timer.expire
  split
  · split
    · exact hhalt ▸ hfired
    · exact .silent rfl (congrArg Standing.id hhalt) (congrArg Standing.registered hhalt)
  · exact .silent rfl rfl rfl

end Stands

/-! ## The client transactions -/

namespace TransactionClient

/-- How the transaction stands. -/
def standing (t : TransactionClient) : Standing := ⟨t.status, t.transactionId⟩

theorem stands_start (t : TransactionClient) (conn : Option ConnectionId) :
    Stands t.standing (t.start conn).2 (t.start conn).1.standing :=
  .adds rfl rfl rfl

theorem stands_doTerminate (t : TransactionClient) :
    Stands t.standing t.doTerminate.2 t.doTerminate.1.standing := by
  unfold doTerminate
  split
  · exact .silent rfl rfl rfl
  · exact .removes rfl rfl rfl

theorem stands_onReceivedMessage (t : TransactionClient) (m : SipMessage) :
    Stands t.standing (t.onReceivedMessage m).calls (t.onReceivedMessage m).self.standing := by
  unfold onReceivedMessage
  split
  · exact .silent rfl rfl rfl
  · split
    · next h => exact .silent rfl rfl (TransactionStatus.registered_of_isPending _ h.2.2).symm
    · split
      · next h => exact .silent rfl rfl (TransactionStatus.registered_of_isPending _ h.2.2).symm
      · exact .silent rfl rfl rfl

theorem stands_resume (t : TransactionClient) (k : ClientRest) :
    Stands t.standing (t.resume k).2 (t.resume k).1.standing := by
  cases k with
  | settle =>
    unfold resume
    dsimp only
    split
    · exact .silent rfl rfl rfl
    · exact t.stands_doTerminate
  | dropListener => exact .silent rfl rfl rfl

theorem stands_onTimeout (t : TransactionClient) (n : TimerName) :
    Stands t.standing (t.onTimeout n).calls (t.onTimeout n).self.standing := by
  cases n with
  | retransmission =>
    unfold onTimeout
    dsimp only
    split
    · exact .silent rfl rfl rfl
    · exact .silent rfl rfl rfl
  | transaction => exact t.stands_doTerminate
  | clearing => exact t.stands_doTerminate
  | ending => exact .silent rfl rfl rfl

theorem stands_expire (t : TransactionClient) (n : TimerName) :
    Stands t.standing (t.expire n).calls (t.expire n).self.standing := by
  unfold expire
  split
  · exact Stands.expire _ (by cases n <;> rfl) ((t.haltTimer n).stands_onTimeout n)
  · exact .silent rfl rfl rfl

end TransactionClient

namespace InviteTransactionClient

/-- How the transaction stands. -/
def standing (t : InviteTransactionClient) : Standing := ⟨t.status, t.transactionId⟩

theorem stands_start (t : InviteTransactionClient) (conn : Option ConnectionId) :
    Stands t.standing (t.start conn).2 (t.start conn).1.standing :=
  .adds rfl rfl rfl

theorem stands_doTerminate (t : InviteTransactionClient) :
    Stands t.standing t.doTerminate.2 t.doTerminate.1.standing := by
  unfold doTerminate
  split
  · exact .silent rfl rfl rfl
  · exact .removes rfl rfl rfl

theorem stands_onReceivedMessage (t : InviteTransactionClient) (conn : Option ConnectionId)
    (m : SipMessage) : Stands t.standing (t.onReceivedMessage conn m).calls
      (t.onReceivedMessage conn m).self.standing := by
  unfold onReceivedMessage
  split
  · exact .silent rfl rfl rfl
  · split
    · next h =>
      dsimp only
      split
      · exact .silent rfl rfl (TransactionStatus.registered_of_isPending _ h.2.2).symm
      · exact .silent rfl rfl rfl
    · split
      · next h => exact .silent rfl rfl (TransactionStatus.registered_of_isPending _ h.2.2).symm
      · split
        · refine .silent ?_ rfl rfl
          dsimp only
          split
          · exact registrations_repeat t.ack
          · rfl
        · split
          · exact t.stands_doTerminate
          · exact .silent rfl rfl rfl

theorem stands_resume (t : InviteTransactionClient) (k : ClientRest) :
    Stands t.standing (t.resume k).2 (t.resume k).1.standing := by
  cases k with
  | settle =>
    unfold resume
    dsimp only
    split
    · exact .silent rfl rfl rfl
    · exact stands_doTerminate { t with listener := false }
  | dropListener => exact .silent rfl rfl rfl

theorem stands_onTimeout (t : InviteTransactionClient) (n : TimerName) :
    Stands t.standing (t.onTimeout n).calls (t.onTimeout n).self.standing := by
  cases n with
  | retransmission =>
    unfold onTimeout
    dsimp only
    split
    · exact .silent rfl rfl rfl
    · exact .silent rfl rfl rfl
  | transaction => exact t.stands_doTerminate
  | ending => exact t.stands_doTerminate
  | clearing => exact .silent rfl rfl rfl

theorem stands_expire (t : InviteTransactionClient) (n : TimerName) :
    Stands t.standing (t.expire n).calls (t.expire n).self.standing := by
  unfold expire
  split
  · exact Stands.expire _ (by cases n <;> rfl) ((t.haltTimer n).stands_onTimeout n)
  · exact .silent rfl rfl rfl

end InviteTransactionClient

/-! ## The server transactions -/

namespace TransactionServer

/-- How the transaction stands. -/
def standing (t : TransactionServer) : Standing := ⟨t.status, t.transactionId⟩

theorem stands_new (req : SipMessage) (listener : Bool) :
    Stands ⟨.idle, .transactionServer req⟩ (new req listener).2 (new req listener).1.standing :=
  .adds rfl rfl rfl

theorem stands_listen (t : TransactionServer) :
    Stands t.standing t.listen.2 t.listen.1.standing := by
  unfold listen
  split
  · exact .adds rfl rfl rfl
  · exact .silent rfl rfl rfl

theorem stands_doTerminate (t : TransactionServer) :
    Stands t.standing t.doTerminate.2 t.doTerminate.1.standing := by
  unfold doTerminate
  split
  · exact .silent rfl rfl rfl
  · exact .removes rfl rfl rfl

/-- The server completes over a connection by terminating at once. -/
theorem stands_complete (t : TransactionServer) (ht : t.status.isPending = true) :
    Stands t.standing t.complete.2 t.complete.1.standing := by
  unfold complete
  dsimp only
  split
  · exact .silent rfl rfl (TransactionStatus.registered_of_isPending _ ht).symm
  · exact .removes rfl rfl rfl

theorem stands_respondWith (t : TransactionServer) (resp : SipMessage) :
    Stands t.standing (t.respondWith resp).2 (t.respondWith resp).1.standing := by
  unfold respondWith
  dsimp only
  split
  · next hpending =>
    split
    · exact .silent rfl rfl (TransactionStatus.registered_of_isPending _ hpending).symm
    · split
      · exact (stands_complete { t with
          response := some { resp with connectionId := t.connectionId } } hpending).congr rfl
      · exact .silent rfl rfl rfl
  · exact .silent rfl rfl rfl

theorem stands_begin (t : TransactionServer) (m : SipMessage) (ht : t.status = .waiting) :
    Stands t.standing (t.begin m).2 (t.begin m).1.standing := by
  have hregistered : t.standing.registered = some t.transactionId :=
    TransactionStatus.registered_eq _ (by rw [show t.standing.status = _ from ht]; decide)
  unfold begin
  dsimp only
  split
  · next hsame => exact .silent rfl hsame (hregistered.trans (congrArg some hsame.symm)).symm
  · exact .moves rfl rfl hregistered rfl

theorem stands_onReceivedMessage (t : TransactionServer) (m : SipMessage) :
    Stands t.standing (t.onReceivedMessage m).calls (t.onReceivedMessage m).self.standing := by
  unfold onReceivedMessage
  split
  · split
    · next ht => exact t.stands_begin m ht
    · split
      · exact .silent (registrations_repeat t.response) rfl rfl
      · exact .silent rfl rfl rfl
  · exact .silent rfl rfl rfl

theorem stands_expire (t : TransactionServer) (n : TimerName) :
    Stands t.standing (t.expire n).calls (t.expire n).self.standing := by
  cases n with
  | clearing =>
    exact Stands.expire t.clearingTo rfl
      (stands_doTerminate { t with clearingTo := t.clearingTo.halt })
  | retransmission => exact .silent rfl rfl rfl
  | transaction => exact .silent rfl rfl rfl
  | ending => exact .silent rfl rfl rfl

end TransactionServer

namespace InviteTransactionServer

/-- How the transaction stands. -/
def standing (t : InviteTransactionServer) : Standing := ⟨t.status, t.transactionId⟩

theorem stands_listen (t : InviteTransactionServer) :
    Stands t.standing t.listen.2 t.listen.1.standing := by
  unfold listen
  split
  · exact .adds rfl rfl rfl
  · exact .silent rfl rfl rfl

theorem stands_doTerminate (t : InviteTransactionServer) :
    Stands t.standing t.doTerminate.2 t.doTerminate.1.standing := by
  unfold doTerminate
  split
  · exact .silent rfl rfl rfl
  · exact .removes rfl rfl rfl

theorem stands_respondWith (t : InviteTransactionServer) (resp : SipMessage) :
    Stands t.standing (t.respondWith resp).2 (t.respondWith resp).1.standing := by
  unfold respondWith
  dsimp only
  split
  · next hpending =>
    have hregistered : t.standing.registered = some t.transactionId :=
      TransactionStatus.registered_of_isPending _ hpending
    split
    · exact .silent rfl rfl hregistered.symm
    · split
      · exact (stands_doTerminate { t with
          response := some { resp with connectionId := t.connectionId } }).congr rfl
      · split
        · exact .silent rfl rfl hregistered.symm
        · exact .silent rfl rfl rfl
  · exact .silent rfl rfl rfl

theorem respondWith_provisional {t : InviteTransactionServer} {resp : SipMessage}
    (ht : t.status.isPending = true) (hcode : 100 ≤ resp.code ∧ resp.code < 200) :
    t.respondWith resp =
      ({ t with
          response := some { resp with connectionId := t.connectionId }
          status := .proceeding },
        [.sendMessage { resp with connectionId := t.connectionId }]) := by
  unfold respondWith
  dsimp only
  rw [if_pos ht]
  exact if_pos hcode

/-- A 100 Trying changes nothing of the registration. -/
theorem tryInvite_standing (S : SipStack) {t : InviteTransactionServer} (invite : SipMessage)
    (ht : t.status = .trying) : registrations (t.tryInvite S invite).2 = [] ∧
      (t.tryInvite S invite).1.transactionId = t.transactionId ∧
      (t.tryInvite S invite).1.standing.registered = some t.transactionId := by
  unfold tryInvite
  split
  · have hpending : t.status.isPending = true := by
      rw [ht]
      rfl
    have hcode : (createResponse S invite 100 none).code = 100 := code_createResponse ..
    rw [respondWith_provisional hpending (by omega)]
    exact ⟨rfl, rfl, rfl⟩
  · refine ⟨rfl, rfl, TransactionStatus.registered_eq _ ?_⟩
    rw [show t.standing.status = _ from ht]
    decide

theorem stands_new (S : SipStack) (invite : SipMessage) (listener : Bool) :
    Stands ⟨.idle, .transactionServer invite⟩ (new S invite listener).2
      (new S invite listener).1.standing := by
  obtain ⟨hsilent, hid, hregistered⟩ :=
    tryInvite_standing S (t := ofInvite S invite listener) invite rfl
  refine .adds ?_ hid hregistered
  unfold new
  dsimp only
  rw [registrations_cons, hsilent]
  rfl

theorem stands_begin (S : SipStack) (t : InviteTransactionServer) (m : SipMessage)
    (ht : t.status = .waiting) :
    Stands t.standing (t.begin S m).2 (t.begin S m).1.standing := by
  have hregistered : t.standing.registered = some t.transactionId :=
    TransactionStatus.registered_eq _ (by rw [show t.standing.status = _ from ht]; decide)
  unfold begin
  extract_lets t'
  obtain ⟨hsilent, hid, hnew⟩ := tryInvite_standing S (t := t') m rfl
  refine .moves ?_ hid hregistered (hnew.trans (congrArg some hid.symm))
  dsimp only
  rw [registrations_cons, registrations_cons, hsilent]
  show _ = [Write.remove t.transactionId, .add (t'.tryInvite S m).1.transactionId]
  rw [hid]
  rfl

theorem stands_onReceivedMessage (S : SipStack) (t : InviteTransactionServer) (m : SipMessage) :
    Stands t.standing (t.onReceivedMessage S m).calls
      (t.onReceivedMessage S m).self.standing := by
  unfold onReceivedMessage
  split
  · split
    · next ht => exact t.stands_begin S m ht
    · split
      · exact .silent (registrations_repeat t.response) rfl rfl
      · exact .silent rfl rfl rfl
  · split
    · next h =>
      refine .silent rfl rfl (TransactionStatus.registered_eq _ ?_).symm
      rw [show t.standing.status = _ from h.2]
      decide
    · exact .silent rfl rfl rfl

theorem stands_resume (t : InviteTransactionServer) (k : ServerRest) :
    Stands t.standing [] (t.resume k).standing := by
  cases k with
  | startClearing => exact .silent rfl rfl rfl

theorem stands_onTimeout (t : InviteTransactionServer) (n : TimerName) :
    Stands t.standing (t.onTimeout n).calls (t.onTimeout n).self.standing := by
  cases n with
  | retransmission =>
    unfold onTimeout
    dsimp only
    split
    · exact .silent (registrations_repeat t.response) rfl rfl
    · exact .silent rfl rfl rfl
  | ending =>
    unfold onTimeout
    dsimp only
    split
    · exact t.stands_doTerminate
    · exact .silent rfl rfl rfl
  | clearing =>
    unfold onTimeout
    dsimp only
    split
    · exact t.stands_doTerminate
    · exact .silent rfl rfl rfl
  | transaction => exact .silent rfl rfl rfl

theorem stands_expire (t : InviteTransactionServer) (n : TimerName) :
    Stands t.standing (t.expire n).calls (t.expire n).self.standing := by
  unfold expire
  split
  · exact Stands.expire _ (by cases n <;> rfl) ((t.haltTimer n).stands_onTimeout n)
  · exact .silent rfl rfl rfl

end InviteTransactionServer

namespace AckTransactionServer

/-- How the transaction stands. -/
def standing (t : AckTransactionServer) : Standing := ⟨t.status, t.transactionId⟩

theorem stands_respond (t : AckTransactionServer) :
    Stands t.standing t.respond.2 t.respond.1.standing :=
  .adds rfl rfl rfl

theorem stands_doTerminate (t : AckTransactionServer) :
    Stands t.standing t.doTerminate.2 t.doTerminate.1.standing := by
  unfold doTerminate
  split
  · exact .silent rfl rfl rfl
  · exact .removes rfl rfl rfl

theorem stands_onReceivedMessage (t : AckTransactionServer) (m : SipMessage) :
    Stands t.standing (t.onReceivedMessage m).calls
      (t.onReceivedMessage m).self.standing := by
  unfold onReceivedMessage
  refine .silent ?_ rfl rfl
  dsimp only
  split <;> rfl

theorem stands_onTimeout (t : AckTransactionServer) (n : TimerName) :
    Stands t.standing (t.onTimeout n).calls (t.onTimeout n).self.standing := by
  cases n with
  | retransmission =>
    unfold onTimeout
    dsimp only
    split
    · exact .silent rfl rfl rfl
    · exact .silent rfl rfl rfl
  | transaction =>
    unfold onTimeout
    dsimp only
    split
    · exact t.stands_doTerminate
    · exact .silent rfl rfl rfl
  | ending => exact .silent rfl rfl rfl
  | clearing => exact .silent rfl rfl rfl

theorem stands_expire (t : AckTransactionServer) (n : TimerName) :
    Stands t.standing (t.expire n).calls (t.expire n).self.standing := by
  unfold expire
  split
  · exact Stands.expire _ (by cases n <;> rfl) ((t.haltTimer n).stands_onTimeout n)
  · exact .silent rfl rfl rfl

end AckTransactionServer

/-! ## Every transaction -/

namespace Transaction

/-- How a transaction stands with the provider. -/
def standing : Transaction → Standing
  | .client p => p.self.standing
  | .inviteClient p => p.self.standing
  | .server p => p.self.standing
  | .inviteServer p => p.self.standing
  | .ackServer p => p.self.standing

/-- What an event makes a client transaction ask of the provider. -/
def clientCalls : Transaction → TransactionEvent → List ProviderCall
  | .client p, .received m _ => p.calls fun t => t.onReceivedMessage m
  | .client p, .expired n => p.calls fun t => t.expire n
  | .client p, .request conn => (p.self.start conn).2
  | .client p, .terminate => p.self.terminate.2
  | .client p, .returns => (p.rest.map fun k => (p.self.resume k).2).getD []
  | .inviteClient p, .received m conn => p.calls fun t => t.onReceivedMessage conn m
  | .inviteClient p, .expired n => p.calls fun t => t.expire n
  | .inviteClient p, .request conn => (p.self.start conn).2
  | .inviteClient p, .terminate => p.self.terminate.2
  | .inviteClient p, .returns => (p.rest.map fun k => (p.self.resume k).2).getD []
  | _, _ => []

/-- What an event makes a transaction ask of the provider. -/
def calls (S : SipStack) (t : Transaction) (e : TransactionEvent) : List ProviderCall :=
  match t with
  | .client _ | .inviteClient _ => t.clientCalls e
  | .server _ | .inviteServer _ | .ackServer _ => t.serverCalls S e

/-- A message or a timer that is worked off at rest. -/
theorem stands_whenIdle {σ κ ρ : Type} (view : σ → Standing) (p : Running σ ρ)
    {f : σ → Outcome σ κ ρ} (hf : ∀ t, Stands (view t) (f t).calls (view (f t).self)) :
    Stands (view p.self) (p.calls f) (view (p.whenIdle f).self) := by
  unfold Running.calls Running.whenIdle
  cases p.rest with
  | none => exact hf p.self
  | some k => exact .silent rfl rfl rfl

/-- The listener returns. -/
theorem stands_resumed {σ ρ : Type} (view : σ → Standing) (p : Running σ ρ)
    {f : σ → ρ → σ × List ProviderCall}
    (hf : ∀ t k, Stands (view t) (f t k).2 (view (f t k).1)) :
    Stands (view p.self) ((p.rest.map fun k => (f p.self k).2).getD [])
      (view (p.resumed fun t k => (f t k).1).self) := by
  unfold Running.resumed
  cases p.rest with
  | none => exact .silent rfl rfl rfl
  | some k => exact hf p.self k

/-- **What a transaction asks of the provider accounts for its registration.** -/
theorem stands_step (S : SipStack) (t : Transaction) (e : TransactionEvent) :
    Stands t.standing (t.calls S e) (t.step S e).standing := by
  cases t with
  | client p =>
    cases e with
    | received m conn =>
      exact stands_whenIdle TransactionClient.standing p fun t => t.stands_onReceivedMessage m
    | expired n => exact stands_whenIdle TransactionClient.standing p fun t => t.stands_expire n
    | request conn => exact p.self.stands_start conn
    | terminate => exact p.self.stands_doTerminate
    | returns => exact stands_resumed TransactionClient.standing p fun t => t.stands_resume
    | _ => exact .silent rfl rfl rfl
  | inviteClient p =>
    cases e with
    | received m conn =>
      exact stands_whenIdle InviteTransactionClient.standing p fun t =>
        t.stands_onReceivedMessage conn m
    | expired n =>
      exact stands_whenIdle InviteTransactionClient.standing p fun t => t.stands_expire n
    | request conn => exact p.self.stands_start conn
    | terminate => exact p.self.stands_doTerminate
    | returns => exact stands_resumed InviteTransactionClient.standing p fun t => t.stands_resume
    | _ => exact .silent rfl rfl rfl
  | server p =>
    cases e with
    | received m conn =>
      exact stands_whenIdle TransactionServer.standing p fun t => t.stands_onReceivedMessage m
    | expired n => exact stands_whenIdle TransactionServer.standing p fun t => t.stands_expire n
    | listen => exact p.self.stands_listen
    | respondWith resp => exact p.self.stands_respondWith resp
    | terminate => exact p.self.stands_doTerminate
    | _ => exact .silent rfl rfl rfl
  | inviteServer p =>
    cases e with
    | received m conn =>
      exact stands_whenIdle InviteTransactionServer.standing p fun t =>
        t.stands_onReceivedMessage S m
    | expired n =>
      exact stands_whenIdle InviteTransactionServer.standing p fun t => t.stands_expire n
    | listen => exact p.self.stands_listen
    | respondWith resp => exact p.self.stands_respondWith resp
    | terminate => exact p.self.stands_doTerminate
    | returns =>
      show Stands p.self.standing [] (p.resumed fun t k => t.resume k).self.standing
      unfold Running.resumed
      cases p.rest with
      | none => exact .silent rfl rfl rfl
      | some k => exact p.self.stands_resume k
    | _ => exact .silent rfl rfl rfl
  | ackServer p =>
    cases e with
    | received m conn =>
      exact stands_whenIdle AckTransactionServer.standing p fun t => t.stands_onReceivedMessage m
    | expired n => exact stands_whenIdle AckTransactionServer.standing p fun t => t.stands_expire n
    | respond => exact p.self.stands_respond
    | terminate => exact p.self.stands_doTerminate
    | _ => exact .silent rfl rfl rfl

end Transaction
end SoftPhone
