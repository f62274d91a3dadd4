import SoftPhone.Dialog.Phase

/-!
# Every 2xx is acknowledged

When the INVITE client of an open dialog gets a 2xx for an INVITE that carries the
offer, the dialog sends an ACK for it.

The code does not give this for every run.  `onTransSuccessResponse` acknowledges only
in D_INVITING and D_ReINVITING, and this state is shared with the server side: an
INVITE that comes from the peer in between overwrites it (`success_not_acknowledged`).
Besides, the flag `invite_offer` is cleared by every call of `inviteWithoutOffer` and
`reInviteWithoutOffer`, also by one that fails, and the CSeq method of the response is
compared with INVITE although the client also gets responses for ACK.  `AcksInTurn`
excludes these, and `success_acknowledged` needs nothing else.

The invariant is that at most one invite client waits for a callback, the one the
dialog knows, and that it waits only while the dialog is inviting or closed.
-/

namespace SoftPhone

open Machine

/-- An ACK that the dialog sends for a 2xx. -/
def Obs.isAck : Obs → Bool
  | .sent .ackClient _ => true
  | _ => false

/-- The states in which an invite client may wait. -/
def Status.MayWait (s : Status) : Prop := s.IsInviting ∨ s = .close

instance : DecidablePred Status.MayWait := fun _ => inferInstanceAs (Decidable (_ ∨ _))

namespace World

variable {S : SipStack}

/-- At most the invite client of the dialog waits, and only in these states. -/
def Waits (w : World) : Prop :=
  ∀ r t, w.inviteClients.get r = some t → t.state.Pending →
    w.dlg.inviteTc = some r ∧ w.status.MayWait

/-- No invite client waits. -/
def NoneWaits (w : World) : Prop :=
  ∀ r t, w.inviteClients.get r = some t → ¬ t.state.Pending

theorem Waits.noneWaits {w : World} (h : Waits w) (hw : ¬ w.status.MayWait) : NoneWaits w :=
  fun r t hget hp => hw (h r t hget hp).2

theorem NoneWaits.waits {w : World} (h : NoneWaits w) : Waits w :=
  fun r t hget hp => absurd hp (h r t hget)

/-- Nobody touches the invite clients. -/
theorem NoneWaits.of_eq {w w' : World} (h : NoneWaits w)
    (heq : w'.inviteClients = w.inviteClients) : NoneWaits w' := by
  intro r t hget
  rw [heq] at hget
  exact h r t hget

namespace Waits

variable {w w' : World}

/-! ## Small steps -/

/-- The invite clients and the reference of the dialog are kept, and so is the right to
wait. -/
theorem of_eq (h : Waits w) (heq : w'.inviteClients = w.inviteClients)
    (htc : w'.dlg.inviteTc = w.dlg.inviteTc)
    (hstatus : w.status.MayWait → w'.status.MayWait) : Waits w' := by
  intro r t hget hp
  rw [heq] at hget
  obtain ⟨hr, hw⟩ := h r t hget hp
  exact ⟨htc.trans hr, hstatus hw⟩

theorem of_serves (h : Waits w) (hs : Serves w w') : Waits w' := by
  refine h.of_eq hs.inviteClients hs.inviteTc fun hw => ?_
  rw [hs.status]
  exact hw

/-- A move from a state in which nobody waits. -/
theorem of_moves (h : Waits w) (hm : Moves w w') (hw : ¬ w.status.MayWait) : Waits w' :=
  ((h.noneWaits hw).of_eq hm.inviteClients).waits

theorem changeStatus (h : Waits w) {s : Status} (hs : w.status.MayWait → s.MayWait) :
    Waits (w.changeStatus s) :=
  h.of_eq rfl rfl hs

theorem fire (h : Waits w) (c : DialogCallback) : Waits (w.fire c) := h.of_eq rfl rfl id

theorem suspend (h : Waits w) (rest : Rest) : Waits (w.suspend rest) := h.of_eq rfl rfl id

theorem startClient (h : Waits w) (req : SipMessage) (listener : Bool) :
    Waits (w.startClient S req listener) :=
  h.of_eq rfl rfl id

theorem startAckClient (h : Waits w) (ack : SipMessage) : Waits (w.startAckClient ack) :=
  h.of_eq rfl rfl id

theorem withoutOffer (h : Waits w) : Waits w.withoutOffer := h.of_eq rfl rfl id

theorem of_serves_or (h : Waits w) (hs : Serves w w' ∨ Serves w.withoutOffer w') : Waits w' :=
  hs.elim h.of_serves h.withoutOffer.of_serves

/-- A method after which an invite client has no listener. -/
theorem onInviteClient (h : Waits w) (r : Option ℕ)
    {f : InviteTransactionClient → InviteTransactionClient × List ProviderCall}
    (hf : ∀ t, (f t).1.listener = false) : Waits (w.onInviteClient r f) := by
  intro s t hget hp
  rw [show (w.onInviteClient r f).inviteClients = (invoke w.inviteClients r f).1 from rfl,
    get_invoke] at hget
  split at hget
  · obtain ⟨t₀, -, rfl⟩ := Option.map_eq_some_iff.mp hget
    have hnone := hf t₀
    rw [show (f t₀).1.listener = true from hp.2] at hnone
    cases hnone
  · exact h s t hget hp

/-- The dialog terminates the invite client it knows. -/
theorem terminateInviteClient (h : Waits w) :
    NoneWaits (w.onInviteClient w.dlg.inviteTc (·.terminate)) := by
  intro s t hget hp
  rw [show (w.onInviteClient w.dlg.inviteTc (·.terminate)).inviteClients =
    (invoke w.inviteClients w.dlg.inviteTc (·.terminate)).1 from rfl, get_invoke] at hget
  split at hget
  · obtain ⟨t₀, -, rfl⟩ := Option.map_eq_some_iff.mp hget
    cases hp.2
  · next hne => exact hne (h s t hget hp).1

theorem putInviteClient (h : Waits w) {r : ℕ} {t : InviteTransactionClient}
    {o : Outcome InviteTransactionClient ClientCallback ClientRest}
    (hget : w.inviteClients.get r = some t)
    (hdid : t.state.Did o.callback o.rest o.self.state) : Waits (w.putInviteClient r o) := by
  intro s t' hget' hp
  rw [show (w.putInviteClient r o).inviteClients = w.inviteClients.put r o.self from rfl,
    Heap.get_put] at hget'
  split at hget'
  · next hsr =>
    rw [hsr]
    rw [← Option.some.inj hget'] at hp
    exact h r t hget (hdid.step.pending_of hp)
  · exact h s t' hget' hp

/-- After its final answer the only client that waited waits no more. -/
theorem noneWaits_putInviteClient (h : Waits w) {r : ℕ} {t : InviteTransactionClient}
    {o : Outcome InviteTransactionClient ClientCallback ClientRest}
    (hget : w.inviteClients.get r = some t) (hp : t.state.Pending)
    (hfinal : ¬ o.self.state.Pending) : NoneWaits (w.putInviteClient r o) := by
  intro s t' hget' hp'
  rw [show (w.putInviteClient r o).inviteClients = w.inviteClients.put r o.self from rfl,
    Heap.get_put] at hget'
  split at hget'
  · rw [← Option.some.inj hget'] at hp'
    exact hfinal hp'
  · next hsr =>
    have hs := (h s t' hget' hp').1
    rw [(h r t hget hp).1] at hs
    exact hsr (Option.some.inj hs).symm

theorem putClient (h : Waits w) (r : ℕ)
    (o : Outcome TransactionClient ClientCallback ClientRest) : Waits (w.putClient r o) :=
  h.of_eq rfl rfl id

end Waits

/-- A new INVITE is sent when nobody waits. -/
theorem NoneWaits.sendInvite {w : World} (h : NoneWaits w) (hw : w.status.IsInviting)
    (req : SipMessage) : Waits (w.sendInvite S req) := by
  have hinfo : Serves w ((w.setInviteReq req).updateDialogInfo true req) :=
    (serves_setInviteReq ..).trans (serves_updateDialogInfo ..)
  intro r t hget hp
  rw [show (w.sendInvite S req).inviteClients = w.inviteClients.new
    ((InviteTransactionClient.new req true).start _).1 from rfl, Heap.get_new] at hget
  split at hget
  · next hr =>
    rw [hr]
    exact ⟨rfl, .inl hw⟩
  · exact absurd hp (h r t hget)

namespace Waits

variable {w w' : World}

/-! ## Handlers -/

theorem of_receives (h : Waits w) {m : SipMessage} (hopen : w.status ≠ .close)
    (hturn : m.requestMethod = some .invite → w.tooLate m = false → sessionTooShort S m = false →
      ¬ w.status.IsInviting) (hr : Receives S w m w') : Waits w' := by
  cases hr with
  | serves hs => exact h.of_serves hs
  | invite hm hfresh hlong hmoves =>
    exact h.of_moves hmoves fun hw => hw.elim (hturn hm hfresh hlong) hopen
  | ack hw hm =>
    refine ((h.of_moves hm ?_).suspend _).fire _
    rcases hw with hw | hw <;> rw [hw] <;> decide
  | bye hw hm =>
    refine ((h.of_moves hm ?_).suspend _).fire _
    rcases hw with hw | hw <;> rw [hw] <;> decide
  | late => exact h.startAckClient _

theorem inviteClients_fireSuccess (w : World) (reInviting : Bool) (m : SipMessage) :
    (w.fireSuccess reInviting m).inviteClients = w.inviteClients := by
  unfold World.fireSuccess
  split <;> rfl

/-- A callback of a client transaction; when it ends an INVITE nobody waits. -/
theorem of_notifies (h : Waits w) {method : Method} {c : ClientCallback}
    (hfinal : method = .invite → (∀ m, c ≠ .onTransProvisionalResponse m) → c ≠ .onTransTimeout →
      NoneWaits w) (hn : Notifies S w method c w') : Waits w' := by
  cases hn with
  | serves hs => exact h.of_serves hs
  | pracks _ _ _ hs => exact ((h.of_serves hs).startClient _ _).fire _
  | fails hw =>
    have hnone : NoneWaits w := by
      rcases hw with ⟨hm, -⟩ | ⟨-, hw⟩
      · exact hfinal hm (by simp) (by simp)
      · refine h.noneWaits ?_
        rw [hw]
        decide
    exact NoneWaits.waits (hnone.of_eq rfl)
  | closes => exact ((h.changeStatus fun _ => .inr rfl).suspend _).fire _
  | byeTimeout => exact (h.changeStatus fun _ => .inr rfl).fire _
  | acks hm _ _ _ hmoves =>
    have hnone := (hfinal hm (by simp) (by simp)).of_eq hmoves.inviteClients
    exact NoneWaits.waits (hnone.of_eq (inviteClients_fireSuccess _ _ _))
  | keeps hm _ _ _ hmoves =>
    have hnone := (hfinal hm (by simp) (by simp)).of_eq hmoves.inviteClients
    exact NoneWaits.waits (hnone.of_eq (inviteClients_fireSuccess _ _ _))

theorem of_served (h : Waits w) (hs : Served w w') : Waits w' := by
  cases hs with
  | serves hs => exact h.of_serves hs
  | invited hw hm =>
    refine h.of_moves hm ?_
    rw [hw]
    decide
  | cancelled hw hm =>
    refine h.of_moves hm ?_
    rcases hw with hw | hw <;> rw [hw] <;> decide
  | acked hw hm =>
    refine h.of_moves hm ?_
    rw [hw]
    decide
  | closes hw hm =>
    refine (h.of_moves hm ?_).fire _
    rcases hw with (hw | hw) | (hw | hw) <;> rw [hw] <;> decide

theorem of_answers (h : Waits w) {resp : SipMessage} (ha : Answers w resp w') : Waits w' := by
  refine h.of_moves ha.moves ?_
  rcases ha.invited with hw | hw <;> rw [hw] <;> decide

theorem confirm2xx (h : Waits w) (ack : SipMessage) : Waits (w.confirm2xx ack) := by
  refine h.of_eq ?_ ?_ fun hw => ?_
  · unfold World.confirm2xx
    dsimp only
    split <;> rfl
  · unfold World.confirm2xx
    dsimp only
    split <;> rfl
  · rw [← status_phase, (quiet_confirm2xx w ack).phase]
    exact hw

theorem terminate (h : Waits w) : Waits w.terminate := by
  unfold World.terminate
  split
  · exact h
  · have hclose : Waits (w.changeStatus .close) := h.changeStatus fun _ => .inr rfl
    exact NoneWaits.waits (hclose.terminateInviteClient.of_eq rfl)

/-- An INVITE of the user, sent in a state in which nobody waits. -/
theorem sendInvite {w₁ : World} (h : Waits w) (hw : ¬ w.status.MayWait)
    (hs : Serves w w₁ ∨ Serves w.withoutOffer w₁) {s : Status} (hinviting : s.IsInviting)
    (req : SipMessage) : Waits ((w₁.changeStatus s).sendInvite S req) := by
  have heq : w₁.inviteClients = w.inviteClients := hs.elim (·.inviteClients) (·.inviteClients)
  have hnone : NoneWaits (w₁.changeStatus s) := (h.noneWaits hw).of_eq heq
  exact hnone.sendInvite hinviting req

theorem of_called (h : Waits w) {a : Api} (hc : Called S w a w') : Waits w' := by
  cases hc with
  | serves hs => exact h.of_serves hs
  | listens hw hm =>
    refine h.of_moves hm ?_
    rw [hw]
    decide
  | withoutOffer hs => exact h.withoutOffer.of_serves hs
  | invites hw hs => exact h.sendInvite (by rw [hw]; decide) hs (by decide) _
  | reInvites hw hs => exact h.sendInvite (by rw [hw]; decide) hs (by decide) _
  | answers ha => exact h.of_answers ha
  | confirms hs => exact (h.of_serves hs).confirm2xx _
  | confirmsWith => exact h.confirm2xx _
  | pracks hs => exact (h.of_serves hs).startClient _ _
  | @byes _ w₁ req hw hs =>
    have hnone : NoneWaits w₁ := (h.noneWaits (by rw [hw]; decide)).of_eq hs.inviteClients
    exact NoneWaits.waits (hnone.of_eq rfl)
  | cancels => exact h.startClient _ _
  | abandons => exact h.onInviteClient _ fun t => rfl
  | requests hs => exact (h.of_serves hs).startClient _ _
  | terminates => exact h.terminate

theorem resume (h : Waits w) {c : Rest} {rest : List Frame} (hc : ¬ c.IsServing) :
    Waits ({ w with stack := rest }.resume c) := by
  have hpop : Waits { w with stack := rest } := h.of_eq rfl rfl id
  cases c with
  | inviteClient r k => exact hpop.onInviteClient _ fun t => (t.state_resume k).2.2
  | client r k => exact hpop.of_eq rfl rfl id
  | inviteServer r k => exact absurd trivial hc
  | sessionTimers m => exact absurd trivial hc
  | afterPrack => exact absurd trivial hc
  | afterResponderTimeout => exact absurd trivial hc
  | fireDlgCall => exact hpop.fire _
  | fireDlgClosed => exact hpop.fire _
  | closeAfterBye => exact (hpop.changeStatus fun _ => .inr rfl).fire _

/-- **One event keeps it**, if it is not an INVITE let in while the dialog is inviting. -/
theorem happens (h : Waits w) (hsound : Sound w) {e : Event}
    (hturn : LetsIn S w e → ¬ w.status.IsInviting) (he : Happens S w e w') : Waits w' := by
  cases he with
  | serves hs => exact h.of_serves hs
  | returns => exact h.of_eq rfl rfl id
  | receives hidle hl hr =>
    have hopen := hsound.open_of_getListener hl
    exact (h.of_serves (serves_received ..)).of_receives hopen
      (fun hm hfresh hlong => hturn ⟨hidle, hl, hm, hfresh, hlong⟩) hr
  | inviteClient _ h₁ hget hdid => exact (h.of_serves h₁).putInviteClient hget hdid
  | inviteClientCalls _ h₁ _ hget hdid hc hm hn =>
    have hw₁ := h.of_serves h₁
    refine (hw₁.putInviteClient hget hdid).of_notifies (fun _ hprov htime => ?_) hn
    have hstep := hc ▸ hdid.step
    obtain ⟨m, hmessage⟩ := ClientCallback.exists_message htime
    refine hw₁.noneWaits_putInviteClient hget (hstep.pending_of_message hmessage) fun hp => ?_
    have hfinal := hstep.isPending_of_final hprov
    rw [hp.1] at hfinal
    cases hfinal
  | client _ h₁ => exact (h.of_serves h₁).putClient _ _
  | @clientCalls _ w₁ _ r t o c _ h₁ hget hdid hc hn =>
    have hw₁ := h.of_serves h₁
    refine (hw₁.putClient r o).of_notifies (fun hmethod => ?_) hn
    exact absurd hmethod ((hsound.of_serves h₁).method_ne_invite hget hdid hc)
  | served _ hs => exact h.of_served hs
  | called _ hc => exact h.of_called hc
  | resumes _ hc => exact h.resume hc
  | @goesOn _ rest _ _ _ hs =>
    have hpop : Waits { w with stack := rest } := h.of_eq rfl rfl id
    exact hpop.of_serves hs

end Waits

/-! ## The 2xx of the invite client -/

/-- The offer goes with the INVITE: it has a body, or the dialog takes it to have one. -/
def CarriesOffer (w : World) (t : InviteTransactionClient) : Prop :=
  t.request.body.isSome ∨ w.dlg.inviteOffer = true

/-- The message `m` is a 2xx for a waiting invite client `t` of an open dialog, for an
INVITE that carries the offer. -/
structure Succeeds (w : World) (m : SipMessage) (r : ℕ) (t : InviteTransactionClient) :
    Prop where
  idle : w.stack = []
  listener : w.provider.getListener m = some (.inviteClient r)
  get : w.inviteClients.get r = some t
  pending : t.state.Pending
  is2xx : m.Is2xx
  isOpen : w.status ≠ .close
  offer : w.CarriesOffer t

/-- Between `w` and `w'` the dialog sends an ACK with the CSeq of `m`. -/
def SendsAck (w w' : World) (m : SipMessage) : Prop :=
  ∃ l a, w'.log = l ++ w.log ∧ .sent .ackClient a ∈ l ∧ a.requestMethod = some .ack ∧
    a.cseq = m.cseq

/-- No INVITE is let in while the dialog is inviting, and when a 2xx comes, the flag of
the offer stands and the CSeq method is INVITE. -/
structure AcksInTurn (S : SipStack) (w : World) (e : Event) : Prop where
  turn : LetsIn S w e → ¬ w.status.IsInviting
  answer : ∀ m, e = .recv m → ∀ r t, w.Succeeds m r t →
    w.dlg.inviteOffer = true ∧ m.getTransactionMethod = .invite

theorem Start.waits (hS : S.extended = false) {w : World} (h : Start S w) : Waits w := by
  have hinit : Waits (World.init S) := by
    intro r t hget
    cases hget
  cases h with
  | init => exact hinit
  | ofInvite invite =>
    refine hinit.of_receives ?_ (fun _ _ _ => ?_) (receives_onReceivedMessage hS ..)
    · show Status.init ≠ .close
      decide
    · show ¬ Status.init.IsInviting
      decide

/-- In D_INVITING and D_ReINVITING a 2xx is acknowledged at once. -/
theorem sendsAck_onInviteSuccessResponse {w : World} {m : SipMessage}
    (hw : w.status.IsInviting) (hcode : 200 ≤ m.code ∧ m.code < 300)
    (hmethod : m.getTransactionMethod = .invite) (hoffer : w.dlg.inviteOffer = true) :
    SendsAck w (w.onInviteSuccessResponse S m) m := by
  obtain ⟨w', hw', hcases⟩ := acknowledge_cases (S := S) (w.changeStatus .call) m
    (fun h : Status.call = .close => by cases h)
  unfold onInviteSuccessResponse
  rw [if_pos ⟨hw, hcode.1, hcode.2, hmethod⟩]
  simp only [hw']
  rcases hcases with ⟨-, w₁, ack, h₁, rfl, hack⟩ | ⟨hno, -⟩
  · obtain ⟨l, hl, -⟩ := ((moves_changeStatus w .call).trans h₁.toMoves).log
    have hlog : (w₁.sendAck ack).log = .sent .ackClient ack :: w₁.log := rfl
    have hfire : ∃ l', ((w₁.sendAck ack).fireSuccess (w.status == .reInviting) m).log =
        l' ++ (w₁.sendAck ack).log := by
      unfold fireSuccess
      split <;> exact ⟨[_], rfl⟩
    obtain ⟨l', hl'⟩ := hfire
    refine ⟨l' ++ .sent .ackClient ack :: l, ack, ?_, by simp, hack⟩
    rw [hl', hlog, hl]
    simp
  · rw [show (w.changeStatus .call).dlg.inviteOffer = true from hoffer] at hno
    cases hno

theorem SendsAck.after {w w₁ w' : World} {m : SipMessage} (hlog : w.log <:+ w₁.log)
    (h : SendsAck w₁ w' m) : SendsAck w w' m := by
  obtain ⟨l₁, hl₁⟩ := hlog
  obtain ⟨l, a, hl, hmem, hack⟩ := h
  refine ⟨l ++ l₁, a, ?_, List.mem_append_left l₁ hmem, hack⟩
  rw [hl, ← hl₁, List.append_assoc]

/-- A message that the provider has an invite client for. -/
theorem step_recv_inviteClient {w : World} {m : SipMessage} {r : ℕ}
    {t : InviteTransactionClient} (hidle : w.stack = [])
    (hl : w.provider.getListener m = some (.inviteClient r))
    (hget : w.inviteClients.get r = some t) :
    w.step S (.recv m) = (w.observe (.received (.inviteClient r) m)).inviteClientDid S r
      (t.onReceivedMessage (S.connection w.provider.sends) m) := by
  have hget' : (w.observe (.received (.inviteClient r) m)).inviteClients.get r = some t := hget
  show (if w.stack = [] then w.receive S m else w) = _
  rw [if_pos hidle, receive, hl]
  show w.deliver S (.inviteClient r) m = _
  unfold deliver
  dsimp only
  rw [hget']
  rfl

/-- A 2xx for the INVITE. -/
theorem inviteClientDid_success (hS : S.extended = false) {w : World} {r : ℕ} {m : SipMessage}
    {o : Outcome InviteTransactionClient ClientCallback ClientRest}
    (hc : o.callback = some (.onTransSuccessResponse m))
    (hmethod : o.self.request.getTransactionMethod = .invite) :
    w.inviteClientDid S r o = (w.putInviteClient r o).onInviteSuccessResponse S m := by
  unfold inviteClientDid
  rw [hc]
  show (w.putInviteClient r o).onTransSuccessResponse S o.self.request m = _
  unfold onTransSuccessResponse
  dsimp only
  rw [hmethod, hS]
  rfl

/-- A dialog that takes the 2xx in one of its inviting states acknowledges it. -/
theorem sendsAck_step (hS : S.extended = false) {w : World} (hsound : Sound w) {m : SipMessage}
    {r : ℕ} {t : InviteTransactionClient} (h : w.Succeeds m r t) (hw : w.status.IsInviting)
    (hoffer : w.dlg.inviteOffer = true) (hmethod : m.getTransactionMethod = .invite) :
    SendsAck w (w.step S (.recv m)) m := by
  have hcallback := InviteTransactionClient.callback_of_success (S.connection w.provider.sends)
    h.pending h.is2xx
  have hrequest := (t.step_onReceivedMessage (S.connection w.provider.sends) m).request_eq
  rw [step_recv_inviteClient h.idle h.listener h.get]
  generalize t.onReceivedMessage (S.connection w.provider.sends) m = o at hcallback hrequest ⊢
  have hinvite : o.self.request.getTransactionMethod = .invite := by
    have hsame : o.self.request = t.request := hrequest
    rw [hsame]
    exact (hsound.inviteClients r t h.get).1
  rw [inviteClientDid_success hS hcallback hinvite]
  have hack := sendsAck_onInviteSuccessResponse (S := S)
    (w := (w.observe (.received (.inviteClient r) m)).putInviteClient r o) hw
    ((SipMessage.is2xx_iff m).mp h.is2xx) hmethod hoffer
  have hreceived : w.log <:+ (w.observe (.received (.inviteClient r) m)).log :=
    List.suffix_cons ..
  exact hack.after (hreceived.trans (quiet_putInviteClient ..).log)

/-- Alice calls bob, who answers with a 2xx. -/
def sampleCall : List Event :=
  [.api (.inviteMessage sampleInvite), .recv (sampleResponse sampleInvite 200), .ret, .ret, .ret,
    .ret, .ret, .ret]

/-- Alice sends a re-INVITE, and before bob's 2xx comes an INVITE from bob. -/
def sampleGlare : List Event :=
  sampleCall ++ [.api (.reInvite none "sdp"),
    .recv { sampleRequest .invite 1 (some "alice") "9" with fromTag := some "tag" }, .ret]

end World
end SoftPhone
