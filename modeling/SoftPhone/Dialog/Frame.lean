import SoftPhone.Dialog.Step

/-!
# What the server side leaves alone

Most of what a handler does is server work: it answers a request, hands a response
to a server transaction, refreshes the dialog information.  `Serves w w'` says that
this is all that happened between `w` and `w'`: the state and the client side of the
dialog are what they were, and the log and the stack have grown by what server work
adds to them only.

`Moves w w'` says the same, but allows the state to change.

The relations are transitive, each small step of the server side is in them, and so
are the compound ones.  An invariant that does not look at the server side survives
all of them by one lemma.
-/

namespace SoftPhone

open Machine

/-! ## The log -/

namespace SipProvider

/-- What the calls of `a` add to the log, newest first. -/
def sents (a : Agent) (cs : List ProviderCall) : List Obs :=
  (cs.filterMap fun
    | .sendMessage m => some (Obs.sent a m)
    | _ => none).reverse

theorem log_calls (p : SipProvider) (a : Agent) (cs : List ProviderCall) :
    (p.calls a cs).log = sents a cs ++ p.log := by
  unfold calls
  induction cs generalizing p with
  | nil => rfl
  | cons c cs ih =>
    rw [List.foldl_cons, ih]
    cases c <;> simp [sents, call]

theorem suffix_calls (p : SipProvider) (a : Agent) (cs : List ProviderCall) :
    p.log <:+ (p.calls a cs).log := ⟨_, (log_calls p a cs).symm⟩

theorem mem_sents {a : Agent} {cs : List ProviderCall} {o : Obs} :
    o ∈ sents a cs ↔ ∃ m, ProviderCall.sendMessage m ∈ cs ∧ o = .sent a m := by
  simp only [sents, List.mem_reverse, List.mem_filterMap]
  constructor
  · rintro ⟨c, hc, ho⟩
    cases c with
    | sendMessage m => exact ⟨m, hc, (Option.some.inj ho).symm⟩
    | addSelectiveListener id => cases ho
    | removeSelectiveListener id => cases ho
  · rintro ⟨m, hm, rfl⟩
    exact ⟨_, hm, rfl⟩

/-- Calls of anybody but `b` leave at most the entries of `b` that were there. -/
theorem listener_calls_of_ne {a b : Agent} (ha : a ≠ b) (cs : List ProviderCall)
    {p : SipProvider} {id : SipId} (h : (p.calls a cs).sipListeners id = some b) :
    p.sipListeners id = some b := by
  unfold calls at h
  induction cs generalizing p with
  | nil => exact h
  | cons c cs ih =>
    have hc := ih h
    cases c with
    | sendMessage m => exact hc
    | addSelectiveListener id' =>
      by_cases hid : id = id'
      · rw [hid] at hc
        simp [call, ha] at hc
      · simpa [call, Function.update_of_ne hid] using hc
    | removeSelectiveListener id' =>
      by_cases hid : id = id'
      · rw [hid] at hc
        simp [call] at hc
      · simpa [call, Function.update_of_ne hid] using hc

end SipProvider

/-! ## Serving -/

/-- A server transaction. -/
def Agent.IsServer : Agent → Prop
  | .inviteServer _ | .server _ | .cancelServer _ | .ackServer _ => True
  | _ => False

/-- A callback that does not say that the call stands or that the dialog is closed. -/
def DialogCallback.IsNeutral : DialogCallback → Prop
  | .onDlgCall | .onDlgClosed => False
  | _ => True

/-- What server work adds to the log; that a message arrives is noted there as well. -/
def Obs.IsNeutral : Obs → Prop
  | .sent a _ => a.IsServer
  | .processed _ => True
  | .fired c => c.IsNeutral
  | .received _ _ => True

/-- Code of the server side. -/
def Rest.IsServing : Rest → Prop
  | .inviteServer _ _ | .sessionTimers _ | .afterPrack | .afterResponderTimeout => True
  | _ => False

/-- What server work leaves on the stack. -/
def Frame.IsNeutral : Frame → Prop
  | .listener _ => True
  | .code rest => rest.IsServing

namespace World

/-- The provider knows the dialog under its identifier only, and a closed one not at
all. -/
def Registered (w : World) : Prop :=
  ∀ id, w.provider.sipListeners id = some .dialog →
    w.dlg.dialogId = some id ∧ w.status ≠ .close

/-- A message that is found to be for the dialog finds it open. -/
theorem Registered.open_of_getListener {w : World} (h : w.Registered) {m : SipMessage}
    (hl : w.provider.getListener m = some .dialog) : w.status ≠ .close := by
  simp only [SipProvider.getListener, Option.orElse_eq_orElse, Option.orElse_eq_or,
    Option.or_eq_some_iff] at hl
  rcases hl with hl | ⟨-, hl | ⟨-, hl⟩⟩
  · exact (h _ hl).2
  · exact (h _ hl).2
  · exact (h _ hl).2

/-- Between `w` and `w'` only server work was done, and the state may have changed. -/
structure Moves (w w' : World) : Prop where
  inviteTc : w'.dlg.inviteTc = w.dlg.inviteTc
  inviteOffer : w'.dlg.inviteOffer = w.dlg.inviteOffer
  ackReq : w'.dlg.ackReq = w.dlg.ackReq
  inv2xxResp : w'.dlg.inv2xxResp = w.dlg.inv2xxResp
  inviteReq : w.dlg.inviteReq.isSome → w'.dlg.inviteReq.isSome
  inviteClients : w'.inviteClients = w.inviteClients
  clients : w'.clients = w.clients
  stack : ∃ fs, w'.stack = fs ++ w.stack ∧ ∀ f ∈ fs, f.IsNeutral
  log : ∃ l, w'.log = l ++ w.log ∧ ∀ o ∈ l, o.IsNeutral
  registered : w.Registered → w'.Registered

/-- Between `w` and `w'` only server work was done. -/
structure Serves (w w' : World) : Prop extends Moves w w' where
  status : w'.status = w.status

/-- Two extensions of a list by members with a property make one. -/
theorem extension_trans {α : Type} {P : α → Prop} {l l' l'' : List α}
    (h : ∃ fs, l' = fs ++ l ∧ ∀ f ∈ fs, P f) (h' : ∃ fs, l'' = fs ++ l' ∧ ∀ f ∈ fs, P f) :
    ∃ fs, l'' = fs ++ l ∧ ∀ f ∈ fs, P f := by
  obtain ⟨fs, rfl, hfs⟩ := h
  obtain ⟨gs, rfl, hgs⟩ := h'
  refine ⟨gs ++ fs, (List.append_assoc ..).symm, ?_⟩
  intro f hf
  rcases List.mem_append.mp hf with hf | hf
  · exact hgs f hf
  · exact hfs f hf

theorem Moves.trans {w w' w'' : World} (h : Moves w w') (h' : Moves w' w'') : Moves w w'' where
  inviteTc := h'.inviteTc.trans h.inviteTc
  inviteOffer := h'.inviteOffer.trans h.inviteOffer
  ackReq := h'.ackReq.trans h.ackReq
  inv2xxResp := h'.inv2xxResp.trans h.inv2xxResp
  inviteReq := fun hw => h'.inviteReq (h.inviteReq hw)
  inviteClients := h'.inviteClients.trans h.inviteClients
  clients := h'.clients.trans h.clients
  stack := extension_trans h.stack h'.stack
  log := extension_trans h.log h'.log
  registered := fun hw => h'.registered (h.registered hw)

namespace Serves

theorem refl (w : World) : Serves w w :=
  ⟨⟨rfl, rfl, rfl, rfl, id, rfl, rfl, ⟨[], rfl, by simp⟩, ⟨[], rfl, by simp⟩, id⟩, rfl⟩

theorem trans {w w' w'' : World} (h : Serves w w') (h' : Serves w' w'') : Serves w w'' :=
  ⟨h.toMoves.trans h'.toMoves, h'.status.trans h.status⟩

end Serves

/-! ## Small steps that serve -/

/-- Calls of a server transaction, whatever happens to the servers. -/
theorem serves_of_calls {w w' : World} {a : Agent} (ha : a.IsServer) {cs : List ProviderCall}
    (hprovider : w'.provider = w.provider.calls a cs) (hdlg : w'.dlg = w.dlg)
    (hinvite : w'.inviteClients = w.inviteClients) (hclients : w'.clients = w.clients)
    (hstack : w'.stack = w.stack) : Serves w w' := by
  refine ⟨⟨by rw [hdlg], by rw [hdlg], by rw [hdlg], by rw [hdlg], by rw [hdlg]; exact id, hinvite,
    hclients, ⟨[], hstack, by simp⟩, ⟨SipProvider.sents a cs, ?_, ?_⟩, ?_⟩, by rw [status, hdlg]⟩
  · rw [log, hprovider, SipProvider.log_calls]
  · intro o ho
    obtain ⟨m, -, rfl⟩ := SipProvider.mem_sents.mp ho
    exact ha
  · intro hr id hid
    have hne : a ≠ .dialog := by
      rintro rfl
      exact ha
    rw [hprovider] at hid
    rw [status, hdlg]
    exact hr id (SipProvider.listener_calls_of_ne hne cs hid)

/-- A change of what the server side holds, and of the counters of the provider. -/
theorem serves_of_log {w w' : World} (hlog : w'.log = w.log)
    (hlisteners : w'.provider.sipListeners = w.provider.sipListeners) (hdlg : w'.dlg = w.dlg)
    (hinvite : w'.inviteClients = w.inviteClients) (hclients : w'.clients = w.clients)
    (hstack : w'.stack = w.stack) : Serves w w' := by
  refine ⟨⟨by rw [hdlg], by rw [hdlg], by rw [hdlg], by rw [hdlg], by rw [hdlg]; exact id, hinvite,
    hclients, ⟨[], hstack, by simp⟩, ⟨[], hlog, by simp⟩, ?_⟩, by rw [status, hdlg]⟩
  intro hr id hid
  rw [hlisteners] at hid
  rw [status, hdlg]
  exact hr id hid

/-- A change of fields that only the server side uses. -/
theorem serves_of_dlg {w : World} {d : InviteDialog} (hstatus : d.status = w.dlg.status)
    (htc : d.inviteTc = w.dlg.inviteTc) (hoffer : d.inviteOffer = w.dlg.inviteOffer)
    (hack : d.ackReq = w.dlg.ackReq) (hresp : d.inv2xxResp = w.dlg.inv2xxResp)
    (hid : d.dialogId = w.dlg.dialogId)
    (hreq : w.dlg.inviteReq.isSome → d.inviteReq.isSome := by exact id) :
    Serves w { w with dlg := d } := by
  refine ⟨⟨htc, hoffer, hack, hresp, hreq, rfl, rfl, ⟨[], rfl, by simp⟩, ⟨[], rfl, by simp⟩, ?_⟩,
    hstatus⟩
  intro hr id h
  show d.dialogId = some id ∧ d.status ≠ .close
  rw [hid, hstatus]
  exact hr id h

theorem serves_onInviteServer (w : World) (r : Option ℕ)
    (f : InviteTransactionServer → InviteTransactionServer × List ProviderCall) :
    Serves w (w.onInviteServer r f) :=
  serves_of_calls (a := .inviteServer _) trivial rfl rfl rfl rfl rfl

theorem serves_onServer (w : World) (r : Option ℕ)
    (f : TransactionServer → TransactionServer × List ProviderCall) :
    Serves w (w.onServer r f) :=
  serves_of_calls (a := .server _) trivial rfl rfl rfl rfl rfl

theorem serves_onCancelServer (w : World) (r : Option ℕ)
    (f : TransactionServer → TransactionServer × List ProviderCall) :
    Serves w (w.onCancelServer r f) :=
  serves_of_calls (a := .cancelServer _) trivial rfl rfl rfl rfl rfl

theorem serves_onAckServer (w : World) (r : Option ℕ)
    (f : AckTransactionServer → AckTransactionServer × List ProviderCall) :
    Serves w (w.onAckServer r f) :=
  serves_of_calls (a := .ackServer _) trivial rfl rfl rfl rfl rfl

theorem serves_startServer (w : World) (req : SipMessage) (listener : Bool) :
    Serves w (w.startServer req listener) :=
  serves_of_calls (a := .server _) trivial rfl rfl rfl rfl rfl

theorem serves_startInviteServer (S : SipStack) (w : World) (invite : SipMessage) :
    Serves w (w.startInviteServer S invite) :=
  serves_of_calls (a := .inviteServer _) trivial rfl rfl rfl rfl rfl

theorem serves_startCancelServer (w : World) (r : ℕ) (req : SipMessage) :
    Serves w (w.startCancelServer r req) :=
  serves_of_calls (a := .cancelServer _) trivial rfl rfl rfl rfl rfl

theorem serves_startAckServer (w : World) (conn : Option ConnectionId)
    (invite resp : SipMessage) : Serves w (w.startAckServer conn invite resp) :=
  serves_of_calls (a := .ackServer _) trivial rfl rfl rfl rfl rfl

theorem serves_observe (w : World) {o : Obs} (ho : o.IsNeutral) : Serves w (w.observe o) :=
  ⟨⟨rfl, rfl, rfl, rfl, id, rfl, rfl, ⟨[], rfl, by simp⟩, ⟨[o], rfl, by simpa using ho⟩, id⟩, rfl⟩

theorem serves_processed (w : World) (m : SipMessage) : Serves w (w.observe (.processed m)) :=
  serves_observe w trivial

theorem serves_received (w : World) (a : Agent) (m : SipMessage) :
    Serves w (w.observe (.received a m)) :=
  serves_observe w trivial

theorem serves_fire (w : World) {c : DialogCallback} (hc : c.IsNeutral) : Serves w (w.fire c) :=
  ⟨⟨rfl, rfl, rfl, rfl, id, rfl, rfl, ⟨[.listener c], rfl, by simp [Frame.IsNeutral]⟩,
    ⟨[.fired c], rfl, by simpa [Obs.IsNeutral] using hc⟩, id⟩, rfl⟩

theorem serves_suspend (w : World) {rest : Rest} (hrest : rest.IsServing) :
    Serves w (w.suspend rest) :=
  ⟨⟨rfl, rfl, rfl, rfl, id, rfl, rfl, ⟨[.code rest], rfl, by simpa [Frame.IsNeutral] using hrest⟩,
    ⟨[], rfl, by simp⟩, id⟩, rfl⟩

/-- A dialog whose identifier changes is known under the new one only. -/
theorem registered_updateDialogInfo {w : World} (isClient : Bool) (m : SipMessage)
    (hr : w.Registered) : (w.updateDialogInfo isClient m).Registered := by
  intro id hid
  by_cases hclose : w.dlg.status = .close
  · have hsame : (w.dlg.updateInfo isClient m).dialogId = w.dlg.dialogId := by
      simp [InviteDialog.updateInfo, hclose]
    simp only [updateDialogInfo, hsame, if_true, SipProvider.calls, List.foldl_nil] at hid
    exact absurd hclose (hr id hid).2
  · refine ⟨?_, hclose⟩
    have hnew : (w.dlg.updateInfo isClient m).dialogId =
        some (w.dlg.info.update isClient m).dialogId := by
      simp [InviteDialog.updateInfo, hclose]
    show (w.dlg.updateInfo isClient m).dialogId = some id
    simp only [updateDialogInfo] at hid
    split at hid
    · next hsame =>
      rw [hsame]
      exact (hr id hid).1
    · next hdiff =>
      rw [hnew] at hid ⊢
      by_contra hne
      have hne' : id ≠ (w.dlg.info.update isClient m).dialogId := fun h => hne (by rw [h])
      cases hold : w.dlg.dialogId with
      | none =>
        simp [hold, SipProvider.calls, SipProvider.call, Function.update_of_ne hne'] at hid
        have := (hr id hid).1
        rw [hold] at this
        cases this
      | some old =>
        by_cases hio : id = old
        · simp [hold, hio, SipProvider.calls, SipProvider.call] at hid
        · simp [hold, SipProvider.calls, SipProvider.call, Function.update_of_ne hne',
            Function.update_of_ne hio] at hid
          have := (hr id hid).1
          rw [hold] at this
          exact hio (Option.some.inj this).symm

@[simp] theorem log_updateDialogInfo (w : World) (isClient : Bool) (m : SipMessage) :
    (w.updateDialogInfo isClient m).log = w.log := by
  simp only [log, updateDialogInfo, SipProvider.log_calls]
  split
  · rfl
  · cases (w.dlg.updateInfo isClient m).dialogId <;> cases w.dlg.dialogId <;> rfl

theorem serves_updateDialogInfo (w : World) (isClient : Bool) (m : SipMessage) :
    Serves w (w.updateDialogInfo isClient m) := by
  exact ⟨⟨rfl, rfl, rfl, rfl, id, rfl, rfl, ⟨[], rfl, by simp⟩,
    ⟨[], log_updateDialogInfo w isClient m, by simp⟩, registered_updateDialogInfo isClient m⟩, rfl⟩

/-- Making a request takes a branch and a sequence number. -/
theorem serves_create {S : SipStack} {w w' : World} {req : SipMessage}
    {factory : String → DialogInfo → Option (SipMessage × DialogInfo)}
    (h : w.create S factory = some (req, w')) : Serves w w' := by
  obtain ⟨p, -, heq⟩ := Option.map_eq_some_iff.mp h
  cases heq
  exact ⟨⟨rfl, rfl, rfl, rfl, id, rfl, rfl, ⟨[], rfl, by simp⟩, ⟨[], rfl, by simp⟩, id⟩, rfl⟩

theorem serves_setLocalContact (w : World) (contact : NameAddress) :
    Serves w (w.setLocalContact contact) :=
  serves_of_dlg rfl rfl rfl rfl rfl rfl

/-! ## A change of state -/

theorem registered_changeStatus {w : World} (s : Status) (hr : w.Registered) :
    (w.changeStatus s).Registered := by
  intro id hid
  refine ⟨?_, ?_⟩
  · show w.dlg.dialogId = some id
    simp only [changeStatus, statusCalls] at hid
    cases hd : w.dlg.dialogId with
    | none =>
      simp only [hd, SipProvider.calls, List.foldl_nil] at hid
      rw [← hd]
      exact (hr id hid).1
    | some old =>
      by_cases hio : id = old
      · rw [hio]
      · rw [← hd]
        refine (hr id ?_).1
        simp only [hd] at hid
        split at hid
        · split at hid <;>
            simpa [SipProvider.calls, SipProvider.call, Function.update_of_ne hio] using hid
        · split at hid <;>
            simpa [SipProvider.calls, SipProvider.call, Function.update_of_ne hio] using hid
  · rintro (hs : s = .close)
    subst hs
    simp only [changeStatus, statusCalls] at hid
    cases hd : w.dlg.dialogId with
    | none =>
      simp only [hd, SipProvider.calls, List.foldl_nil] at hid
      have := (hr id hid).1
      rw [hd] at this
      cases this
    | some old =>
      by_cases hio : id = old
      · subst hio
        simp only [hd, if_true] at hid
        split at hid
        · simp [SipProvider.calls, SipProvider.call] at hid
        · next hnone =>
          simp only [SipProvider.calls, List.foldl_nil] at hid
          exact hnone (by rw [hid]; rfl)
      · simp only [hd, if_true] at hid
        have hold : w.provider.sipListeners id = some .dialog := by
          split at hid <;>
            simpa [SipProvider.calls, SipProvider.call, Function.update_of_ne hio] using hid
        have := (hr id hold).1
        rw [hd] at this
        exact hio (Option.some.inj this).symm

@[simp] theorem log_changeStatus (w : World) (s : Status) : (w.changeStatus s).log = w.log := by
  simp only [log, changeStatus, SipProvider.log_calls, statusCalls]
  split
  · rfl
  · split
    · split <;> rfl
    · split <;> rfl

theorem moves_changeStatus (w : World) (s : Status) : Moves w (w.changeStatus s) :=
  ⟨rfl, rfl, rfl, rfl, id, rfl, rfl, ⟨[], rfl, by simp⟩, ⟨[], log_changeStatus w s, by simp⟩,
    registered_changeStatus s⟩

/-! ## Compound steps that serve -/

theorem serves_setInviteReq (w : World) (invite : SipMessage) :
    Serves w (w.setInviteReq invite) :=
  serves_of_dlg rfl rfl rfl rfl rfl rfl fun _ => rfl

theorem serves_setInviteTs (w : World) (r : ℕ) : Serves w (w.setInviteTs r) :=
  serves_of_dlg rfl rfl rfl rfl rfl rfl

theorem serves_setCancelTs (w : World) (r : ℕ) : Serves w (w.setCancelTs r) :=
  serves_of_dlg rfl rfl rfl rfl rfl rfl

theorem serves_setByeTs (w : World) (r : ℕ) : Serves w (w.setByeTs r) :=
  serves_of_dlg rfl rfl rfl rfl rfl rfl

theorem serves_setUpdateTs (w : World) (r : ℕ) : Serves w (w.setUpdateTs r) :=
  serves_of_dlg rfl rfl rfl rfl rfl rfl

theorem serves_setResponder (w : World) (rr : ReliableProvisionalResponder) :
    Serves w (w.setResponder rr) :=
  serves_of_dlg rfl rfl rfl rfl rfl rfl

theorem serves_answer (w : World) (req resp : SipMessage) : Serves w (w.answer req resp) :=
  (serves_startServer w req false).trans (serves_onServer ..)

theorem serves_sendNextResponse (w : World) : Serves w w.sendNextResponse := by
  unfold sendNextResponse
  split
  · exact .refl w
  · split
    · exact .refl w
    · exact (serves_setResponder ..).trans (serves_onInviteServer ..)

theorem serves_respondReliably (w : World) (resp : SipMessage) :
    Serves w (w.respondReliably resp) := by
  unfold respondReliably
  split
  · exact .refl w
  · dsimp only
    split
    · exact (serves_setResponder ..).trans (serves_sendNextResponse _)
    · exact serves_setResponder ..

theorem serves_afterPrack (w : World) : Serves w w.afterPrack := by
  unfold afterPrack
  split
  · exact .refl w
  · split
    · exact serves_sendNextResponse w
    · exact .refl w

theorem serves_respondProvisional (S : SipStack) (w : World) (resp : SipMessage) :
    Serves w (w.respondProvisional S resp) := by
  unfold respondProvisional
  extract_lets w₁
  have hupdate : Serves w w₁ := by
    unfold w₁
    split
    · exact serves_updateDialogInfo ..
    · exact .refl w
  split
  · exact hupdate.trans (serves_respondReliably ..)
  · exact hupdate.trans (serves_onInviteServer ..)

end World
end SoftPhone
