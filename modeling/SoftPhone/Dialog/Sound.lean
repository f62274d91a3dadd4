import SoftPhone.Dialog.Cases

/-!
# What holds of every dialog

`Sound` collects what holds after every event of every run, whatever the network and
the user do: which methods the client transactions have, that a pending INVITE is
known, that the provider has the dialog under its own identifier, and that code waits
on the stack only for a client transaction that has its answer.
-/

namespace SoftPhone

open Machine

/-- A generic client that calls the dialog back is not for an INVITE. -/
def TransactionClient.Sound (t : TransactionClient) : Prop :=
  (t.listener = true → t.request.cseqMethod ≠ .invite) ∧ t.state.Waiting

/-- An invite client is for an INVITE. -/
def InviteTransactionClient.Sound (t : InviteTransactionClient) : Prop :=
  t.request.cseqMethod = .invite ∧ t.state.Waiting

namespace World

variable {S : SipStack}

/-- What holds of every dialog. -/
structure Sound (w : World) : Prop where
  clients : ∀ r t, w.clients.get r = some t → t.Sound
  inviteClients : ∀ r t, w.inviteClients.get r = some t → t.Sound
  /-- Code waits for a client that has its answer. -/
  clientRests : ∀ r rest, Frame.code (.client r rest) ∈ w.stack →
    ∃ t, w.clients.get r = some t ∧ t.status.isPending = false
  inviteClientRests : ∀ r rest, Frame.code (.inviteClient r rest) ∈ w.stack →
    ∃ t, w.inviteClients.get r = some t ∧ t.status.isPending = false
  /-- A pending INVITE is known. -/
  invited : w.status.IsInvited → w.dlg.inviteReq.isSome
  registered : w.Registered

namespace Sound

variable {w w' : World}

/-! ## Small steps -/

/-- Server work, if a state with a pending INVITE is entered with one. -/
theorem of_moves (h : Sound w) (hm : Moves w w')
    (hinvited : w'.status.IsInvited → w'.dlg.inviteReq.isSome) : Sound w' := by
  obtain ⟨fs, hfs, hneutral⟩ := hm.stack
  refine ⟨hm.clients ▸ h.clients, hm.inviteClients ▸ h.inviteClients, ?_, ?_, hinvited,
    hm.registered h.registered⟩
  · intro r rest hmem
    rw [hfs, List.mem_append] at hmem
    rw [hm.clients]
    exact h.clientRests r rest (hmem.resolve_left fun hf => hneutral _ hf)
  · intro r rest hmem
    rw [hfs, List.mem_append] at hmem
    rw [hm.inviteClients]
    exact h.inviteClientRests r rest (hmem.resolve_left fun hf => hneutral _ hf)

theorem of_serves (h : Sound w) (hs : Serves w w') : Sound w' :=
  h.of_moves hs.toMoves fun hi => hs.inviteReq (h.invited (hs.status ▸ hi))

/-- A move to a state without a pending INVITE. -/
theorem of_moves_of_status (h : Sound w) (hm : Moves w w') {s : Status} (hs : w'.status = s)
    (hnot : ¬ s.IsInvited) : Sound w' :=
  h.of_moves hm fun hi => absurd (hs ▸ hi) hnot

theorem changeStatus (h : Sound w) {s : Status} (hnot : ¬ s.IsInvited) :
    Sound (w.changeStatus s) :=
  h.of_moves_of_status (moves_changeStatus w s) rfl hnot

/-- Code that does not wait for a client. -/
theorem suspend (h : Sound w) {rest : Rest} (hclient : ∀ r c, rest ≠ .client r c)
    (hinvite : ∀ r c, rest ≠ .inviteClient r c) : Sound (w.suspend rest) := by
  refine ⟨h.clients, h.inviteClients, ?_, ?_, h.invited, h.registered⟩
  · intro r c hmem
    rcases List.mem_cons.mp hmem with heq | hmem
    · exact absurd (Frame.code.inj heq).symm (hclient r c)
    · exact h.clientRests r c hmem
  · intro r c hmem
    rcases List.mem_cons.mp hmem with heq | hmem
    · exact absurd (Frame.code.inj heq).symm (hinvite r c)
    · exact h.inviteClientRests r c hmem

theorem fire (h : Sound w) (c : DialogCallback) : Sound (w.fire c) := by
  refine ⟨h.clients, h.inviteClients, ?_, ?_, h.invited, h.registered⟩
  · intro r rest hmem
    rcases List.mem_cons.mp hmem with heq | hmem
    · cases heq
    · exact h.clientRests r rest hmem
  · intro r rest hmem
    rcases List.mem_cons.mp hmem with heq | hmem
    · cases heq
    · exact h.inviteClientRests r rest hmem

/-- The top of the stack is taken away. -/
theorem pop (h : Sound w) {f : Frame} {rest : List Frame} (hstack : w.stack = f :: rest) :
    Sound { w with stack := rest } := by
  have hsub {g : Frame} (hg : g ∈ rest) : g ∈ w.stack := hstack ▸ List.mem_cons_of_mem f hg
  exact ⟨h.clients, h.inviteClients, fun r c hmem => h.clientRests r c (hsub hmem),
    fun r c hmem => h.inviteClientRests r c (hsub hmem), h.invited, h.registered⟩

/-- Fields of the dialog other than the state, the INVITE and the identifier. -/
theorem of_dlg (h : Sound w) {d : InviteDialog} (hstatus : d.status = w.dlg.status)
    (hreq : d.inviteReq = w.dlg.inviteReq) (hid : d.dialogId = w.dlg.dialogId) :
    Sound { w with dlg := d } := by
  refine ⟨h.clients, h.inviteClients, h.clientRests, h.inviteClientRests, ?_, ?_⟩
  · intro hi
    show d.inviteReq.isSome
    rw [hreq]
    exact h.invited (show w.dlg.status.IsInvited from hstatus ▸ hi)
  · intro id hl
    show d.dialogId = some id ∧ d.status ≠ .close
    rw [hid, hstatus]
    exact h.registered id hl

/-- Calls of anybody but the dialog do not touch what the provider knows of the
dialog. -/
theorem registered_calls (h : Sound w) {a : Agent} (ha : a ≠ .dialog) (cs : List ProviderCall) :
    ∀ id, (w.provider.calls a cs).sipListeners id = some .dialog →
      w.dlg.dialogId = some id ∧ w.status ≠ .close :=
  fun id hid => h.registered id (SipProvider.listener_calls_of_ne ha cs hid)

theorem startAckClient (h : Sound w) (ack : SipMessage) : Sound (w.startAckClient ack) :=
  ⟨h.clients, h.inviteClients, h.clientRests, h.inviteClientRests, h.invited,
    h.registered_calls (by simp) _⟩

theorem startClient (h : Sound w) {req : SipMessage} {listener : Bool}
    (hreq : listener = true → req.cseqMethod ≠ .invite) :
    Sound (w.startClient S req listener) := by
  refine ⟨Heap.forall_new (P := fun _ (t : TransactionClient) => t.Sound) h.clients ⟨hreq, fun _ => rfl⟩,
    h.inviteClients, ?_, h.inviteClientRests, h.invited, h.registered_calls (by simp) _⟩
  intro r rest hmem
  obtain ⟨t, hget, hdone⟩ := h.clientRests r rest hmem
  exact ⟨t, Heap.get_new_of_get hget _, hdone⟩

theorem startInviteClient (h : Sound w) {req : SipMessage} (hreq : req.cseqMethod = .invite) :
    Sound (w.startInviteClient S req) := by
  refine ⟨h.clients, Heap.forall_new (P := fun _ (t : InviteTransactionClient) => t.Sound)
    h.inviteClients ⟨hreq, fun _ => rfl⟩, h.clientRests, ?_, h.invited, h.registered_calls (by simp) _⟩
  intro r rest hmem
  obtain ⟨t, hget, hdone⟩ := h.inviteClientRests r rest hmem
  exact ⟨t, Heap.get_new_of_get hget _, hdone⟩

end Sound

/-- An object of a heap after a method was run. -/
theorem get_invoke {α : Type} (h : Heap α) (r : Option ℕ) (f : α → α × List ProviderCall)
    (s : ℕ) : (invoke h r f).1.get s =
      if r = some s then (h.get s).map fun a => (f a).1 else h.get s := by
  cases r with
  | none => rfl
  | some r =>
    simp only [invoke, Heap.get_modify, Option.some.injEq, eq_comm (a := s)]
    split
    · next hrs => rw [hrs]
    · rfl

namespace Sound

variable {w w' : World}

/-- A method of an invite client that keeps it sound and does not make it wait again. -/
theorem onInviteClient (h : Sound w) (r : Option ℕ)
    {f : InviteTransactionClient → InviteTransactionClient × List ProviderCall}
    (hf : ∀ t, t.Sound → (∀ s, r = some s → w.inviteClients.get s = some t →
      (f t).1.Sound ∧ ((f t).1.status.isPending = true → t.status.isPending = true))) :
    Sound (w.onInviteClient r f) := by
  refine ⟨h.clients, ?_, h.clientRests, ?_, h.invited, h.registered_calls (by simp) _⟩
  · intro s t hget
    rw [show (w.onInviteClient r f).inviteClients = (invoke w.inviteClients r f).1 from rfl,
      get_invoke] at hget
    split at hget
    · next hr =>
      obtain ⟨t₀, hget₀, rfl⟩ := Option.map_eq_some_iff.mp hget
      exact (hf t₀ (h.inviteClients s t₀ hget₀) s hr hget₀).1
    · exact h.inviteClients s t hget
  · intro s rest hmem
    obtain ⟨t, hget, hdone⟩ := h.inviteClientRests s rest hmem
    rw [show (w.onInviteClient r f).inviteClients = (invoke w.inviteClients r f).1 from rfl]
    by_cases hr : r = some s
    · refine ⟨(f t).1, by rw [get_invoke, if_pos hr, hget]; rfl, ?_⟩
      rw [← Bool.not_eq_true] at hdone ⊢
      exact fun hp => hdone ((hf t (h.inviteClients s t hget) s hr hget).2 hp)
    · exact ⟨t, by rw [get_invoke, if_neg hr]; exact hget, hdone⟩

/-- The same for a generic client. -/
theorem onClient (h : Sound w) (r : Option ℕ)
    {f : TransactionClient → TransactionClient × List ProviderCall}
    (hf : ∀ t, t.Sound → (∀ s, r = some s → w.clients.get s = some t →
      (f t).1.Sound ∧ ((f t).1.status.isPending = true → t.status.isPending = true))) :
    Sound (w.onClient r f) := by
  refine ⟨?_, h.inviteClients, ?_, h.inviteClientRests, h.invited, h.registered_calls (by simp) _⟩
  · intro s t hget
    rw [show (w.onClient r f).clients = (invoke w.clients r f).1 from rfl, get_invoke] at hget
    split at hget
    · next hr =>
      obtain ⟨t₀, hget₀, rfl⟩ := Option.map_eq_some_iff.mp hget
      exact (hf t₀ (h.clients s t₀ hget₀) s hr hget₀).1
    · exact h.clients s t hget
  · intro s rest hmem
    obtain ⟨t, hget, hdone⟩ := h.clientRests s rest hmem
    rw [show (w.onClient r f).clients = (invoke w.clients r f).1 from rfl]
    by_cases hr : r = some s
    · refine ⟨(f t).1, by rw [get_invoke, if_pos hr, hget]; rfl, ?_⟩
      rw [← Bool.not_eq_true] at hdone ⊢
      exact fun hp => hdone ((hf t (h.clients s t hget) s hr hget).2 hp)
    · exact ⟨t, by rw [get_invoke, if_neg hr]; exact hget, hdone⟩

/-- A terminated transaction waits for nothing. -/
theorem waiting_of_terminated {s : ClientState} (h : s.status = .terminated) : s.Waiting := by
  intro hp
  rw [h] at hp
  cases hp

theorem terminateInviteClient (h : Sound w) (r : Option ℕ) :
    Sound (w.onInviteClient r (·.terminate)) := by
  refine h.onInviteClient r fun t ht _ _ _ => ?_
  obtain ⟨hstatus, hrequest, -⟩ := t.terminate_spec
  refine ⟨⟨hrequest ▸ ht.1, waiting_of_terminated hstatus⟩, fun hp => ?_⟩
  rw [hstatus] at hp
  cases hp

theorem putInviteClient (h : Sound w) {r : ℕ} {t : InviteTransactionClient}
    {o : Outcome InviteTransactionClient ClientCallback ClientRest}
    (hget : w.inviteClients.get r = some t)
    (hdid : t.state.Did o.callback o.rest o.self.state) : Sound (w.putInviteClient r o) := by
  have ht := h.inviteClients r t hget
  have hrequest : o.self.request = t.request := hdid.step.request_eq
  have hself : o.self.Sound := ⟨hrequest ▸ ht.1, hdid.step.waiting ht.2⟩
  refine ⟨h.clients, Heap.forall_put (P := fun _ (t : InviteTransactionClient) => t.Sound)
    h.inviteClients hself, ?_, ?_,
    h.invited, h.registered_calls (by simp) _⟩
  · intro s rest hmem
    rcases List.mem_append.mp hmem with hmem | hmem
    · obtain ⟨c, -, heq⟩ := List.mem_map.mp hmem
      cases heq
    · exact h.clientRests s rest hmem
  · intro s rest hmem
    show ∃ t', (w.inviteClients.put r o.self).get s = some t' ∧ _
    rcases List.mem_append.mp hmem with hmem | hmem
    · obtain ⟨c, hc, heq⟩ := List.mem_map.mp hmem
      cases heq
      refine ⟨o.self, Heap.get_put_self .., hdid.rest ?_⟩
      intro hnone
      rw [hnone] at hc
      cases hc
    · exact Heap.exists_get_put hget (fun _ => hdid.step.isPending_eq_false)
        (h.inviteClientRests s rest hmem)

theorem putClient (h : Sound w) {r : ℕ} {t : TransactionClient}
    {o : Outcome TransactionClient ClientCallback ClientRest}
    (hget : w.clients.get r = some t)
    (hdid : t.state.Did o.callback o.rest o.self.state) : Sound (w.putClient r o) := by
  have ht := h.clients r t hget
  have hrequest : o.self.request = t.request := hdid.step.request_eq
  have hself : o.self.Sound :=
    ⟨fun hl => hrequest ▸ ht.1 (hdid.step.listener_of hl), hdid.step.waiting ht.2⟩
  refine ⟨Heap.forall_put (P := fun _ (t : TransactionClient) => t.Sound) h.clients hself, h.inviteClients, ?_, ?_,
    h.invited, h.registered_calls (by simp) _⟩
  · intro s rest hmem
    show ∃ t', (w.clients.put r o.self).get s = some t' ∧ _
    rcases List.mem_append.mp hmem with hmem | hmem
    · obtain ⟨c, hc, heq⟩ := List.mem_map.mp hmem
      cases heq
      refine ⟨o.self, Heap.get_put_self .., hdid.rest ?_⟩
      intro hnone
      rw [hnone] at hc
      cases hc
    · exact Heap.exists_get_put hget (fun _ => hdid.step.isPending_eq_false)
        (h.clientRests s rest hmem)
  · intro s rest hmem
    rcases List.mem_append.mp hmem with hmem | hmem
    · obtain ⟨c, -, heq⟩ := List.mem_map.mp hmem
      cases heq
    · exact h.inviteClientRests s rest hmem

/-! ## Handlers -/

theorem setInviteTc (h : Sound w) (r : ℕ) : Sound (w.setInviteTc r) := h.of_dlg rfl rfl rfl

theorem withoutOffer (h : Sound w) : Sound w.withoutOffer := h.of_dlg rfl rfl rfl

theorem setInv2xxResp (h : Sound w) (m : SipMessage) : Sound (w.setInv2xxResp m) :=
  h.of_dlg rfl rfl rfl

theorem setAckReq (h : Sound w) (ack : SipMessage) : Sound (w.setAckReq ack) :=
  h.of_dlg rfl rfl rfl

theorem sendAck (h : Sound w) (ack : SipMessage) : Sound (w.sendAck ack) := by
  have hreq : Sound { w with dlg.ackReq := some ack } := h.of_dlg rfl rfl rfl
  exact hreq.startAckClient ack

theorem sendInvite (h : Sound w) {req : SipMessage} (hreq : req.cseqMethod = .invite) :
    Sound (w.sendInvite S req) := by
  have hinfo : Serves w ((w.setInviteReq req).updateDialogInfo true req) :=
    (serves_setInviteReq ..).trans (serves_updateDialogInfo ..)
  exact ((h.of_serves hinfo).setInviteTc _).startInviteClient hreq

theorem of_receives (h : Sound w) {m : SipMessage} (hr : Receives S w m w') : Sound w' := by
  cases hr with
  | serves hs => exact h.of_serves hs
  | invite _ _ _ hm hsome => exact h.of_moves hm fun _ => hsome
  | ack _ hm hs =>
    exact ((h.of_moves_of_status hm hs (by decide)).suspend (by simp) (by simp)).fire _
  | bye _ hm hs =>
    exact ((h.of_moves_of_status hm hs (by decide)).suspend (by simp) (by simp)).fire _
  | late => exact h.startAckClient _

theorem fireSuccess (h : Sound w) (reInviting : Bool) (m : SipMessage) :
    Sound (w.fireSuccess reInviting m) := by
  have hs : Sound (w.suspend (.sessionTimers m)) := h.suspend (by simp) (by simp)
  unfold World.fireSuccess
  split
  · exact hs.fire _
  · exact (hs.suspend (by simp) (by simp)).fire _

theorem of_notifies (h : Sound w) {method : Method} {c : ClientCallback}
    (hn : Notifies S w method c w') : Sound w' := by
  cases hn with
  | serves hs => exact h.of_serves hs
  | pracks _ _ _ hs => exact ((h.of_serves hs).startClient (by simp)).fire _
  | fails => exact (h.changeStatus (by decide)).fire _
  | closes => exact ((h.changeStatus (by decide)).suspend (by simp) (by simp)).fire _
  | byeTimeout => exact (h.changeStatus (by decide)).fire _
  | acks _ _ _ _ hm hs =>
    exact ((h.of_moves_of_status hm hs (by decide)).sendAck _).fireSuccess _ _
  | keeps _ _ _ _ hm hs =>
    exact ((h.of_moves_of_status hm hs (by decide)).setInv2xxResp _).fireSuccess _ _

theorem of_served (h : Sound w) (hs : Served w w') : Sound w' := by
  cases hs with
  | serves hs => exact h.of_serves hs
  | invited _ hm hsome => exact h.of_moves hm fun _ => hsome
  | cancelled _ hm hs =>
    refine h.of_moves hm fun hi => absurd hi ?_
    rw [hs]
    split <;> decide
  | acked _ hm hs => exact h.of_moves_of_status hm hs (by decide)
  | closes _ hm hs => exact (h.of_moves_of_status hm hs (by decide)).fire _

theorem of_answers (h : Sound w) {resp : SipMessage} (ha : Answers w resp w') : Sound w' := by
  refine h.of_moves ha.moves fun hi => absurd hi ?_
  by_cases hcode : 200 ≤ resp.code ∧ resp.code < 300
  · rw [ha.accepted hcode]
    split <;> decide
  · rw [ha.refused hcode]
    split <;> decide

theorem terminate (h : Sound w) : Sound w.terminate := by
  unfold World.terminate
  split
  · exact h
  · extract_lets w₁ w₂ w₃ w₄ w₅ w₆ w₇
    have h₁ : Sound w₁ := h.changeStatus (by decide)
    have h₂ : Sound w₂ := h₁.terminateInviteClient _
    have h₃ : Sound w₃ := h₂.of_serves (serves_onInviteServer ..)
    have h₄ : Sound w₄ := h₃.of_serves (serves_onCancelServer ..)
    have h₅ : Sound w₅ := h₄.of_serves (serves_onServer ..)
    have h₆ : Sound w₆ := h₅.of_serves (serves_onAckServer ..)
    have h₇ : Sound w₇ := h₆.of_serves (serves_onServer ..)
    have h₈ : Sound { w₇ with dlg := w₇.dlg.forget } := h₇.of_dlg rfl rfl rfl
    exact h₈.fire _

theorem of_serves_or (h : Sound w) (hs : Serves w w' ∨ Serves w.withoutOffer w') : Sound w' :=
  hs.elim h.of_serves h.withoutOffer.of_serves

theorem confirm2xx (h : Sound w) (ack : SipMessage) : Sound (w.confirm2xx ack) := by
  unfold World.confirm2xx
  extract_lets w₁ w₂
  have h₁ : Sound w₁ := h.setAckReq ack
  have h₂ : Sound w₂ := by
    unfold w₂
    split
    · exact h₁
    · exact h₁.of_serves (serves_setLocalContact ..)
  exact h₂.startAckClient ack

theorem of_called (h : Sound w) {a : Api} (hc : Called S w a w') : Sound w' := by
  cases hc with
  | serves hs => exact h.of_serves hs
  | listens _ hm hs => exact h.of_moves_of_status hm hs (by decide)
  | withoutOffer hs => exact h.withoutOffer.of_serves hs
  | invites _ hs hreq =>
    exact ((h.of_serves_or hs).changeStatus (by decide)).sendInvite hreq
  | reInvites _ hs hreq =>
    exact ((h.of_serves_or hs).changeStatus (by decide)).sendInvite hreq
  | answers ha => exact h.of_answers ha
  | confirms hs => exact (h.of_serves hs).confirm2xx _
  | confirmsWith => exact h.confirm2xx _
  | pracks hs => exact (h.of_serves hs).startClient (by simp)
  | byes _ hs hreq => exact ((h.of_serves hs).changeStatus (by decide)).startClient (by simp [hreq])
  | cancels => exact h.startClient (by simp)
  | abandons => exact h.terminateInviteClient _
  | requests hs hw =>
    refine (h.of_serves hs).startClient fun _ => ?_
    rcases hw with ⟨-, hreq⟩ | ⟨-, hreq⟩ <;> simp [hreq]
  | terminates => exact h.terminate

/-- Code that goes on after a callback. -/
theorem resume (h : Sound w) {c : Rest} {rest : List Frame} (hstack : w.stack = .code c :: rest) :
    Sound ({ w with stack := rest }.resume c) := by
  have hpop := h.pop hstack
  cases c with
  | inviteClient r k =>
    obtain ⟨t, hget, hdone⟩ := h.inviteClientRests r k (by rw [hstack]; exact List.mem_cons_self ..)
    refine hpop.onInviteClient _ fun t' ht' s hr hget' => ?_
    obtain rfl := Option.some.inj hr
    obtain rfl := Option.some.inj (hget.symm.trans hget')
    obtain ⟨hstatus, hrequest, -⟩ := t.state_resume k
    have hnot : (t.resume k).1.status.isPending = false := by
      rcases hstatus with hstatus | hstatus <;> rw [hstatus]
      · exact hdone
      · rfl
    have hnotPending : (t.resume k).1.status.isPending ≠ true := by simp [hnot]
    exact ⟨⟨hrequest ▸ ht'.1, fun hp => absurd hp hnotPending⟩, fun hp => absurd hp hnotPending⟩
  | client r k =>
    obtain ⟨t, hget, hdone⟩ := h.clientRests r k (by rw [hstack]; exact List.mem_cons_self ..)
    refine hpop.onClient _ fun t' ht' s hr hget' => ?_
    obtain rfl := Option.some.inj hr
    obtain rfl := Option.some.inj (hget.symm.trans hget')
    obtain ⟨hstatus, hrequest, hlistener⟩ := t.state_resume k
    have hnot : (t.resume k).1.status.isPending = false := by
      rcases hstatus with hstatus | hstatus <;> rw [hstatus]
      · exact hdone
      · rfl
    have hnotPending : (t.resume k).1.status.isPending ≠ true := by simp [hnot]
    exact ⟨⟨fun hl => hrequest ▸ ht'.1 (hlistener hl), fun hp => absurd hp hnotPending⟩,
      fun hp => absurd hp hnotPending⟩
  | inviteServer r k => exact hpop.of_serves (serves_resume _ trivial)
  | sessionTimers m => exact hpop.of_serves (serves_resume _ trivial)
  | afterPrack => exact hpop.of_serves (serves_resume _ trivial)
  | afterResponderTimeout => exact hpop.of_serves (serves_resume _ trivial)
  | fireDlgCall => exact hpop.fire _
  | fireDlgClosed => exact hpop.fire _
  | closeAfterBye => exact (hpop.changeStatus (by decide)).fire _

theorem happens (h : Sound w) {e : Event} (he : Happens S w e w') : Sound w' := by
  cases he with
  | serves hs => exact h.of_serves hs
  | returns hstack => exact h.pop hstack
  | receives _ _ hr => exact (h.of_serves (serves_received ..)).of_receives hr
  | inviteClient _ h₁ hget hdid => exact (h.of_serves h₁).putInviteClient hget hdid
  | inviteClientCalls _ h₁ _ hget hdid _ _ hn =>
    exact ((h.of_serves h₁).putInviteClient hget hdid).of_notifies hn
  | client _ h₁ hget hdid => exact (h.of_serves h₁).putClient hget hdid
  | clientCalls _ h₁ hget hdid _ hn =>
    exact ((h.of_serves h₁).putClient hget hdid).of_notifies hn
  | served _ hs => exact h.of_served hs
  | called _ hc => exact h.of_called hc
  | resumes hstack => exact h.resume hstack
  | goesOn hstack _ hs => exact (h.pop hstack).of_serves hs

/-- A client that calls the dialog back is not for an INVITE. -/
theorem method_ne_invite (h : Sound w) {r : ℕ} {t : TransactionClient}
    {o : Outcome TransactionClient ClientCallback ClientRest} {c : ClientCallback}
    (hget : w.clients.get r = some t) (hdid : t.state.Did o.callback o.rest o.self.state)
    (hc : o.callback = some c) : o.self.request.getTransactionMethod ≠ .invite := by
  have hlistener : t.listener = true := (hc ▸ hdid.step).listener_of_callback
  have hrequest : o.self.request = t.request := hdid.step.request_eq
  rw [hrequest]
  exact (h.clients r t hget).1 hlistener

theorem init (S : SipStack) : Sound (World.init S) := by
  refine ⟨by simp [World.init], by simp [World.init], by simp [World.init], by simp [World.init],
    ?_, ?_⟩
  · rintro (h | h) <;> cases h
  · intro id h
    cases h

end Sound

/-- A dialog that was just made is sound. -/
theorem Start.sound (hS : S.extended = false) {w : World} (h : Start S w) : Sound w := by
  cases h with
  | init => exact .init S
  | ofInvite invite => exact (Sound.init S).of_receives (receives_onReceivedMessage hS ..)

/-- **Every reachable world is sound.** -/
theorem sound_run (hS : S.extended = false) {w : World} (h : Start S w) (es : List Event) :
    Sound (run (step S) w es) :=
  run_invariant (fun w e hw => hw.happens (happens_step hS w e)) es (h.sound hS)

end World
end SoftPhone
