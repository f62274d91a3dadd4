import SoftPhone.Dialog.World
import SoftPhone.Transaction.Registered

/-!
# Everybody who registers with one provider

Transactions, dialogs and listening servers share the table of a provider.  A `Population` is
that table with all the objects that were ever created; what happens to it is that an object is
created, or that one of them does something, in any order.

`addSelectiveListener` replaces whoever is registered, and logs a warning;
`removeSelectiveListener` is given an identifier and does not ask who is registered.  So the
table is what the objects think it is exactly as long as each of them keeps to identifiers that
no other live object is registered under (`owned_iff`).  Then every message finds the
transaction or the dialog that it belongs to (`dispatched`).
-/

namespace SoftPhone

open Machine

/-- `MethodId.ANY`. -/
def SipId.any : SipId := .method (.other "ANY")

/-- The identifier of the transaction that a message belongs to: requests go to servers,
responses go to clients. -/
def SipMessage.transactionKey (m : SipMessage) : SipId :=
  if m.isRequest then .transactionServer m else .transactionClient m

/-! ## Dialogs -/

namespace InviteDialog

/-- What `changeStatus` asks of the provider, where `contains` is `containsKey` of its table. -/
def statusCalls (contains : SipId → Bool) (d : InviteDialog) (s : Status) : List ProviderCall :=
  match d.dialogId with
  | none => []
  | some id =>
    if s = .close then if contains id then [.removeSelectiveListener id] else []
    else if (s.isEarly || s.isConfirmed) && !contains id then [.addSelectiveListener id]
    else []

/-- What `updateDialogInfo` asks of the provider. -/
def updateCalls (d : InviteDialog) (isClient : Bool) (m : SipMessage) : List ProviderCall :=
  let d' := d.updateInfo isClient m
  if d'.dialogId = d.dialogId then []
  else d'.dialogId.toList.map .addSelectiveListener ++
    d.dialogId.toList.map .removeSelectiveListener

/-- The state that `changeStatus` sets. -/
def setStatus (d : InviteDialog) (s : Status) : InviteDialog := { d with status := s }

/-- The identifier that a dialog is registered under: its own, until it is closed. -/
def registered (d : InviteDialog) : Option SipId :=
  if d.status = .close then none else d.dialogId

end InviteDialog

/-! ## Servers of a method -/

/-- `OptionsServer`, `CancelServer` and `NotImplementedServer`, as far as the provider is
concerned. -/
structure MethodServer where
  id : SipId
  /-- `sip_provider!=null`. -/
  active : Bool := true
  deriving DecidableEq, Repr

namespace MethodServer

/-- `new OptionsServer(sip_provider,...)`. -/
def optionsServer : MethodServer := { id := .method (.other "OPTIONS") }

/-- `new CancelServer(sip_provider)`. -/
def cancelServer : MethodServer := { id := .method .cancel }

/-- `new NotImplementedServer(sip_provider)`. -/
def notImplementedServer : MethodServer := { id := .any }

/-- `halt`. -/
def halt (s : MethodServer) : MethodServer × List ProviderCall :=
  if s.active then ({ s with active := false }, [.removeSelectiveListener s.id]) else (s, [])

/-- The identifier that the server is registered under. -/
def registered (s : MethodServer) : Option SipId := if s.active then some s.id else none

end MethodServer

/-! ## Objects -/

/-- An object that registers with the provider. -/
inductive Component where
  | transaction (t : Transaction)
  | dialog (d : InviteDialog)
  | uas (s : MethodServer)

/-- What an object does.  A method that its class does not have does nothing. -/
inductive Action where
  | transaction (e : TransactionEvent)
  | changeStatus (s : Status)
  | updateDialogInfo (isClient : Bool) (m : SipMessage)
  | halt

/-- The constructors. -/
inductive Creation where
  | client (req : SipMessage) (listener : Bool)
  | inviteClient (req : SipMessage) (listener : Bool)
  | server (req : SipMessage) (listener : Bool)
  | listeningServer (method : Method) (listener : Bool)
  | cancelServer (req : SipMessage) (listener : Bool)
  | inviteServer (autoTrying : Bool) (invite : SipMessage) (listener : Bool)
  | listeningInviteServer (listener : Bool)
  | ackServer (conn : Option ConnectionId) (invite resp : SipMessage) (listener : Bool)
  | inviteDialog
  | optionsServer
  | cancelMethodServer
  | notImplementedServer

namespace Component

/-- The identifier that an object is registered under. -/
def registered : Component → Option SipId
  | .transaction t => t.standing.registered
  | .dialog d => d.registered
  | .uas s => s.registered

/-- The object after an action, and what it asks of the provider. -/
def act (S : SipStack) (contains : SipId → Bool) : Component → Action → Component × List ProviderCall
  | .transaction t, .transaction e => (.transaction (t.step S e), t.calls S e)
  | .dialog d, .changeStatus s =>
    -- a closed dialog stays closed
    if d.status = .close ∧ s ≠ .close then (.dialog d, [])
    else (.dialog (d.setStatus s), d.statusCalls contains s)
  | .dialog d, .updateDialogInfo isClient m =>
    (.dialog (d.updateInfo isClient m), d.updateCalls isClient m)
  | .uas s, .halt => (.uas s.halt.1, s.halt.2)
  | c, _ => (c, [])

end Component

namespace Creation

/-- The new object. -/
def object (S : SipStack) : Creation → Component
  | client req listener => .transaction (.client { self := .new req listener })
  | inviteClient req listener => .transaction (.inviteClient { self := .new req listener })
  | server req listener => .transaction (.server { self := (TransactionServer.new req listener).1 })
  | listeningServer method listener =>
    .transaction (.server { self := .newListening method listener })
  | cancelServer req listener => .transaction (.server { self := .newCancel req listener })
  | inviteServer autoTrying invite listener => .transaction (.inviteServer
      { self := (InviteTransactionServer.new { S with autoTrying := autoTrying } invite listener).1 })
  | listeningInviteServer listener =>
    .transaction (.inviteServer { self := .newListening S listener })
  | ackServer conn invite resp listener =>
    .transaction (.ackServer { self := .new conn invite resp listener })
  | inviteDialog => .dialog (World.init S).dlg
  | optionsServer => .uas .optionsServer
  | cancelMethodServer => .uas .cancelServer
  | notImplementedServer => .uas .notImplementedServer

/-- What the constructor asks of the provider. -/
def calls (S : SipStack) : Creation → List ProviderCall
  | server req listener => (TransactionServer.new req listener).2
  | inviteServer autoTrying invite listener =>
    (InviteTransactionServer.new { S with autoTrying := autoTrying } invite listener).2
  | optionsServer => [.addSelectiveListener MethodServer.optionsServer.id]
  | cancelMethodServer => [.addSelectiveListener MethodServer.cancelServer.id]
  | notImplementedServer => [.addSelectiveListener MethodServer.notImplementedServer.id]
  | _ => []

end Creation

/-! ## The population -/

/-- What happens in a population. -/
inductive PopulationEvent where
  | create (c : Creation)
  | act (o : ℕ) (a : Action)

/-- The objects, and the table of the provider. -/
structure Population where
  objects : Heap Component := .empty
  sipListeners : SipId → Option ℕ := fun _ => none

namespace Population

/-- A provider that nobody has registered with. -/
def init : Population := {}

/-- `containsKey` of the table. -/
def contains (p : Population) (id : SipId) : Bool := (p.sipListeners id).isSome

/-- `getListener`: the transaction, then the dialog, then the method, then any message. -/
def getListener (p : Population) (m : SipMessage) : Option ℕ :=
  p.sipListeners m.transactionKey <|> p.sipListeners (.ofMessage m) <|>
    p.sipListeners (.ofMethod m) <|> p.sipListeners .any

/-- The identifier that the object `o` is registered under, by its own account. -/
def registered (p : Population) (o : ℕ) : Option SipId :=
  (p.objects.get o).bind Component.registered

/-- The object of an event, and what it asks of the provider. -/
def requested (S : SipStack) (p : Population) : PopulationEvent → ℕ × List ProviderCall
  | .create c => (p.objects.next, c.calls S)
  | .act o a => (o, ((p.objects.get o).map fun c => (c.act S p.contains a).2).getD [])

/-- The objects after an event. -/
def nextObjects (S : SipStack) (p : Population) : PopulationEvent → Heap Component
  | .create c => p.objects.new (c.object S)
  | .act o a => p.objects.modify o fun c => (c.act S p.contains a).1

/-- One event. -/
def step (S : SipStack) (p : Population) (e : PopulationEvent) : Population where
  objects := p.nextObjects S e
  sipListeners :=
    writes (p.requested S e).1 p.sipListeners (registrations (p.requested S e).2)

/-- The table is what the objects think it is. -/
def IsOwned (p : Population) : Prop := ∀ o id, p.sipListeners id = some o ↔ p.registered o = some id

/-- A message for the live transaction `o` is dispatched to it, and so is a message for the live
dialog `o` unless it belongs to a live transaction. -/
def Dispatches (p : Population) (m : SipMessage) (o : ℕ) : Prop :=
  (p.registered o = some m.transactionKey → p.getListener m = some o) ∧
    ((∀ o', p.registered o' ≠ some m.transactionKey) →
      p.registered o = some (.ofMessage m) → p.getListener m = some o)

/-- An object registers and unregisters only where no other live object is registered. -/
def KeepsApart (S : SipStack) (p : Population) (e : PopulationEvent) : Prop :=
  ∀ w ∈ registrations (p.requested S e).2, ∀ o, o ≠ (p.requested S e).1 →
    p.registered o ≠ some w.key

end Population

/-! ## The provider of one dialog -/

/-- The table after the calls of an agent. -/
theorem SipProvider.sipListeners_calls (p : SipProvider) (a : Agent) (cs : List ProviderCall) :
    (p.calls a cs).sipListeners = writes a p.sipListeners (registrations cs) := by
  unfold calls
  induction cs generalizing p with
  | nil => rfl
  | cons c cs ih =>
    rw [List.foldl_cons, ih, registrations_cons]
    cases c <;> rfl

/-- A dialog in its world asks for the same when its state changes, -/
theorem World.statusCalls_eq (w : World) (s : Status) :
    w.statusCalls s = w.dlg.statusCalls (fun id => (w.provider.sipListeners id).isSome) s := by
  unfold World.statusCalls InviteDialog.statusCalls
  cases w.dlg.dialogId with
  | none => rfl
  | some id => simp only [Option.not_isSome]

/-- and when it is updated. -/
theorem World.sipListeners_updateDialogInfo (w : World) (isClient : Bool) (m : SipMessage) :
    (w.updateDialogInfo isClient m).provider.sipListeners =
      writes .dialog w.provider.sipListeners (registrations (w.dlg.updateCalls isClient m)) :=
  SipProvider.sipListeners_calls ..

/-! ## What every object accounts for -/

/-- From one identifier to the next, the new one first. -/
theorem Registering.shifts {old id : SipId} {cs : List ProviderCall}
    (hcs : registrations cs = [.add id, .remove old]) (hne : id ≠ old) :
    Registering (some old) cs (some id) := by
  intro k
  rw [hcs]
  show some id = some k ↔ k ≠ old ∧ (k = id ∨ some old = some k)
  constructor
  · intro h
    obtain rfl := Option.some.inj h
    exact ⟨hne, .inl rfl⟩
  · rintro ⟨hold, rfl | h⟩
    · rfl
    · exact absurd (Option.some.inj h).symm hold

namespace InviteDialog

theorem registered_of_open {d : InviteDialog} (h : d.status ≠ .close) : d.registered = d.dialogId :=
  if_neg h

theorem registered_of_closed {d : InviteDialog} (h : d.status = .close) : d.registered = none :=
  if_pos h

theorem accounts_changeStatus {contains : SipId → Bool} {d : InviteDialog} {s : Status}
    (hopen : ¬ (d.status = .close ∧ s ≠ .close))
    (hcontains : ∀ id, d.registered = some id → contains id = true) :
    Registering d.registered (d.statusCalls contains s) (d.setStatus s).registered := by
  by_cases hs : s = .close
  · rw [registered_of_closed (d := d.setStatus s) hs]
    unfold statusCalls
    cases hid : d.dialogId with
    | none =>
      refine .silent rfl ?_
      by_cases hstatus : d.status = .close
      · exact (registered_of_closed hstatus).symm
      · exact ((registered_of_open hstatus).trans hid).symm
    | some id =>
      dsimp only
      rw [if_pos hs]
      by_cases hstatus : d.status = .close
      · rw [registered_of_closed hstatus]
        split
        · exact .removes rfl (.inl rfl)
        · exact .silent rfl rfl
      · have hsome : d.registered = some id := (registered_of_open hstatus).trans hid
        rw [if_pos (hcontains id hsome), hsome]
        exact .removes rfl (.inr rfl)
  · have hstatus : d.status ≠ .close := fun h => hopen ⟨h, hs⟩
    have hsame : (d.setStatus s).registered = d.registered :=
      (registered_of_open (d := d.setStatus s) hs).trans (registered_of_open hstatus).symm
    refine .silent ?_ hsame
    unfold statusCalls
    cases hid : d.dialogId with
    | none => rfl
    | some id =>
      -- the table has the dialog already
      have hsome : d.registered = some id := (registered_of_open hstatus).trans hid
      dsimp only
      rw [if_neg hs, hcontains id hsome, if_neg (by simp)]
      rfl

theorem accounts_updateDialogInfo (d : InviteDialog) (isClient : Bool) (m : SipMessage) :
    Registering d.registered (d.updateCalls isClient m) (d.updateInfo isClient m).registered := by
  by_cases hclose : d.status = .close
  · have hsame : (d.updateInfo isClient m).dialogId = d.dialogId := if_pos hclose
    have hcalls : d.updateCalls isClient m = [] := if_pos hsame
    rw [hcalls, registered_of_closed hclose]
    exact .silent rfl (registered_of_closed (d := d.updateInfo isClient m) hclose)
  · have hnew : (d.updateInfo isClient m).dialogId = some (d.info.update isClient m).dialogId :=
      if_neg hclose
    rw [registered_of_open hclose, registered_of_open (d := d.updateInfo isClient m) hclose, hnew]
    unfold updateCalls
    dsimp only
    rw [hnew]
    split
    · next hsame => exact .silent rfl hsame
    · next hdiff =>
      cases hold : d.dialogId with
      | none => exact .adds rfl (.inl rfl)
      | some old =>
        refine .shifts rfl ?_
        rintro rfl
        exact hdiff hold.symm

end InviteDialog

namespace Component

/-- **An object that is in the table accounts for its registration.** -/
theorem accounts_act (S : SipStack) {contains : SipId → Bool} {c : Component}
    (hcontains : ∀ id, c.registered = some id → contains id = true) (a : Action) :
    Registering c.registered (c.act S contains a).2 (c.act S contains a).1.registered := by
  cases c with
  | transaction t =>
    cases a with
    | transaction e => exact (t.stands_step S e).accounts
    | _ => exact .silent rfl rfl
  | dialog d =>
    cases a with
    | changeStatus s =>
      unfold act
      dsimp only
      split
      · exact .silent rfl rfl
      · next hopen => exact InviteDialog.accounts_changeStatus hopen hcontains
    | updateDialogInfo isClient m => exact d.accounts_updateDialogInfo isClient m
    | _ => exact .silent rfl rfl
  | uas s =>
    cases a with
    | halt =>
      show Registering s.registered s.halt.2 s.halt.1.registered
      unfold MethodServer.halt MethodServer.registered
      split
      · exact .removes rfl (.inr rfl)
      · exact .silent rfl rfl
    | _ => exact .silent rfl rfl

end Component

/-- Every transaction that starts is one of them. -/
theorem Creation.exists_of_start {S : SipStack} {t : Transaction} (h : Transaction.Start S t) :
    ∃ c : Creation, c.object S = .transaction t := by
  cases h with
  | client req listener => exact ⟨.client req listener, rfl⟩
  | inviteClient req listener => exact ⟨.inviteClient req listener, rfl⟩
  | server req listener => exact ⟨.server req listener, rfl⟩
  | listeningServer method listener => exact ⟨.listeningServer method listener, rfl⟩
  | cancelServer req listener => exact ⟨.cancelServer req listener, rfl⟩
  | inviteServer autoTrying invite listener =>
    exact ⟨.inviteServer autoTrying invite listener, rfl⟩
  | listeningInviteServer listener => exact ⟨.listeningInviteServer listener, rfl⟩
  | ackServer conn invite resp listener => exact ⟨.ackServer conn invite resp listener, rfl⟩

/-- A new object accounts for its registration. -/
theorem Creation.accounts (S : SipStack) (c : Creation) :
    Registering none (c.calls S) (c.object S).registered := by
  cases c with
  | server req listener => exact (TransactionServer.stands_new req listener).accounts
  | inviteServer autoTrying invite listener =>
    exact (InviteTransactionServer.stands_new _ invite listener).accounts
  | optionsServer => exact .adds rfl (.inl rfl)
  | cancelMethodServer => exact .adds rfl (.inl rfl)
  | notImplementedServer => exact .adds rfl (.inl rfl)
  | _ => exact .silent rfl rfl

/-! ## Histories -/

namespace Population

variable {S : SipStack}

/-- What an event changes of the accounts. -/
theorem registered_step {p : Population} (h : p.IsOwned) (e : PopulationEvent) :
    (∀ id, (p.step S e).registered (p.requested S e).1 = some id ↔
      account (fun j => p.registered (p.requested S e).1 = some j)
        (registrations (p.requested S e).2) id) ∧
    ∀ o, o ≠ (p.requested S e).1 → (p.step S e).registered o = p.registered o := by
  cases e with
  | create c =>
    have hnone : p.registered p.objects.next = none := by
      unfold registered
      rw [p.objects.get_of_le _ (Nat.le_refl _)]
      rfl
    have hnew : (p.step S (.create c)).registered p.objects.next = (c.object S).registered := by
      show ((p.objects.new (c.object S)).get p.objects.next).bind _ = _
      rw [Heap.get_new_self]
      rfl
    refine ⟨fun id => ?_, fun o hne => ?_⟩
    · show (p.step S (.create c)).registered p.objects.next = some id ↔
        account (fun j => p.registered p.objects.next = some j) (registrations (c.calls S)) id
      rw [hnew, hnone]
      exact c.accounts S id
    · show ((p.objects.new (c.object S)).get o).bind _ = _
      have hold : o ≠ p.objects.next := hne
      rw [Heap.get_new, if_neg hold]
      rfl
  | act o a =>
    refine ⟨fun id => ?_, fun o' hne => ?_⟩
    · show ((p.objects.modify o fun c => (c.act S p.contains a).1).get o).bind _ = some id ↔
        account (fun j => (p.objects.get o).bind _ = some j) (registrations
          (((p.objects.get o).map fun c => (c.act S p.contains a).2).getD [])) id
      rw [Heap.get_modify, if_pos rfl]
      cases hget : p.objects.get o with
      | none => rfl
      | some c =>
        refine c.accounts_act S (fun id hid => ?_) a id
        have hentry : p.sipListeners id = some o := by
          rw [h o id]
          unfold registered
          rw [hget]
          exact hid
        unfold contains
        rw [hentry]
        rfl
    · show ((p.objects.modify o fun c => (c.act S p.contains a).1).get o').bind _ = _
      have hother : o' ≠ o := hne
      rw [Heap.get_modify, if_neg hother]
      rfl

/-- **One event.** -/
theorem isOwned_step_iff {p : Population} (h : p.IsOwned) (e : PopulationEvent) :
    (p.step S e).IsOwned ↔ p.KeepsApart S e := by
  obtain ⟨hself, hothers⟩ := registered_step (S := S) h e
  exact owned_writes_iff (H := fun o id => p.registered o = some id) h hself
    fun o hne id => by rw [hothers o hne]

theorem isOwned_init : init.IsOwned := by
  intro o id
  exact iff_of_false (fun h => nomatch h) fun h => nomatch h

/-- A message for a live transaction finds it, and so does one for a live dialog that belongs to
no live transaction. -/
theorem IsOwned.dispatches {p : Population} (h : p.IsOwned) (m : SipMessage) (o : ℕ) :
    p.Dispatches m o := by
  refine ⟨fun ho => ?_, fun hfree ho => ?_⟩
  · unfold getListener
    rw [(h o _).mpr ho]
    rfl
  · have hnone : p.sipListeners m.transactionKey = none := by
      cases hentry : p.sipListeners m.transactionKey with
      | none => rfl
      | some o' => exact absurd ((h o' _).mp hentry) (hfree o')
    unfold getListener
    rw [hnone, (h o _).mpr ho]
    rfl

/-- Only the objects that there are can be in the way. -/
theorem keepsApart_iff_lt (p : Population) (e : PopulationEvent) :
    p.KeepsApart S e ↔ ∀ w ∈ registrations (p.requested S e).2, ∀ o < p.objects.next,
      o ≠ (p.requested S e).1 → p.registered o ≠ some w.key := by
  refine ⟨fun h w hw o _ => h w hw o, fun h w hw o hne hid => ?_⟩
  have hlt : o < p.objects.next := by
    cases hget : p.objects.get o with
    | some c => exact Heap.lt_next_of_get hget
    | none =>
      unfold registered at hid
      rw [hget] at hid
      cases hid
  exact h w hw o hlt hne hid

instance (p : Population) (e : PopulationEvent) : Decidable (p.KeepsApart S e) :=
  decidable_of_iff _ (keepsApart_iff_lt p e).symm

end Population
end SoftPhone
