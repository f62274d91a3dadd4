import SoftPhone.Dialog.Sound

/-!
# A dialog that waits for an answer

In D_INVITING and D_ReINVITING the dialog waits for its INVITE client, in D_BYEING for the
client of its BYE.  `Asking` says that this client waits as well, with the dialog as its
listener: a client transaction that waits ends with a callback (`ClientStep`), and every
such callback moves the dialog on (`Notifies`).

Two things break it, and `Undropped` excludes them.  `cancel` terminates an INVITE client
that has no provisional response yet, and leaves the state as it is.  A 2xx whose CSeq names
another method than INVITE ends the client too, and the dialog takes no notice of it.  The
third clause, for a timer, is for the server side (`Awaiting`).
-/

namespace SoftPhone

open Machine

/-- The states in which the dialog waits for the answer to a request. -/
def Status.IsAsking (s : Status) : Prop := s.IsInviting ∨ s = .byeing

instance : DecidablePred Status.IsAsking := fun _ => inferInstanceAs (Decidable (_ ∨ _))

/-- The calls that cancel an INVITE. -/
def Api.IsCancel : Api → Prop
  | .cancel | .cancelMessage _ => True
  | _ => False

instance : DecidablePred Api.IsCancel := fun a => by
  unfold Api.IsCancel
  split <;> infer_instance

namespace World

variable {S : SipStack}

/-- The event does not end a transaction that the dialog waits for behind its back. -/
def Undropped (w : World) : Event → Prop
  | .api a => a.IsCancel → w.AtUser → w.status.IsInviting → w.inviteTcProceeding = true
  | .recv m => w.stack = [] → w.status.IsInviting → m.Is2xx →
      ∀ r ∈ w.dlg.inviteTc, w.provider.getListener m = some (.inviteClient r) →
        m.cseqMethod = .invite
  | .timeout a n => n = .ending → w.stack = [] → w.status.IsRefused → ∀ r ∈ w.dlg.inviteTs,
      a = .inviteServer r → ∀ t ∈ w.inviteServers.get r, ¬ (t.status = .completed ∧ t.endTo.Delivers)
  | .responderTimeout _ | .ret => True

instance (w : World) : DecidablePred w.Undropped
  | .api _ => inferInstanceAs (Decidable (_ → _ → _ → _))
  | .recv _ => inferInstanceAs (Decidable (_ → _ → _ → ∀ r ∈ w.dlg.inviteTc, _ → _))
  | .timeout _ _ => inferInstanceAs (Decidable (_ → _ → _ → ∀ r ∈ w.dlg.inviteTs, _ →
      ∀ t ∈ w.inviteServers.get r, ¬ (_ ∧ _)))
  | .responderTimeout _ | .ret => isTrue trivial

/-- `r` is the client of the last BYE. -/
def LastBye (clients : Heap TransactionClient) (r : ℕ) : Prop :=
  ∀ s t, clients.get s = some t → t.request.requestMethod = some .bye → s ≤ r

/-- While the dialog waits for an answer, so does its client, and its listener is the
dialog. -/
structure Asking (w : World) : Prop where
  inviting : w.status.IsInviting → ∃ r t, w.dlg.inviteTc = some r ∧
    w.inviteClients.get r = some t ∧ t.state.Pending
  byeing : w.status = .byeing → ∃ r t, w.clients.get r = some t ∧ LastBye w.clients r ∧
    t.request.requestMethod = some .bye ∧ t.request.cseqMethod = .bye ∧ t.state.Pending

theorem LastBye.new {clients : Heap TransactionClient} {r : ℕ} (h : LastBye clients r)
    {t : TransactionClient} (ht : t.request.requestMethod ≠ some .bye) :
    LastBye (clients.new t) r := by
  intro s t' hget hbye
  rw [Heap.get_new] at hget
  split at hget
  · cases hget
    exact absurd hbye ht
  · exact h s t' hget hbye

/-- The newest client is the last. -/
theorem lastBye_next (clients : Heap TransactionClient) (t : TransactionClient) :
    LastBye (clients.new t) clients.next := by
  intro s t' hget _
  rw [Heap.get_new] at hget
  split at hget
  · next hs => exact Nat.le_of_eq hs
  · exact Nat.le_of_lt (Heap.lt_next_of_get hget)

theorem LastBye.put {clients : Heap TransactionClient} {r s : ℕ} (h : LastBye clients r)
    {t t' : TransactionClient} (hget : clients.get s = some t) (hreq : t'.request = t.request) :
    LastBye (clients.put s t') r := by
  intro i u hu hbye
  rw [Heap.get_put] at hu
  split at hu
  · next his =>
    cases hu
    rw [hreq] at hbye
    exact his ▸ h s t hget hbye
  · exact h i u hu hbye

namespace Asking

variable {w w' : World}

/-! ### Small steps -/

/-- The dialog does not wait for an answer. -/
theorem of_not (hw : ¬ w.status.IsAsking) : Asking w :=
  ⟨fun h => absurd (.inl h) hw, fun h => absurd (.inr h) hw⟩

theorem of_status {s : Status} (hw : w.status = s) (hs : ¬ s.IsAsking) : Asking w :=
  of_not (hw ▸ hs)

/-- Nobody touches the clients. -/
theorem of_eq (h : Asking w) (hinvite : w'.inviteClients = w.inviteClients)
    (hclients : w'.clients = w.clients) (htc : w'.dlg.inviteTc = w.dlg.inviteTc)
    (hstatus : w'.status = w.status) : Asking w' := by
  refine ⟨fun hw => ?_, fun hw => ?_⟩
  · rw [hinvite, htc]
    exact h.inviting (hstatus ▸ hw)
  · rw [hclients]
    exact h.byeing (hstatus ▸ hw)

theorem of_serves (h : Asking w) (hs : Serves w w') : Asking w' :=
  h.of_eq hs.inviteClients hs.clients hs.inviteTc hs.status

theorem of_serves_or (h : Asking w) (hs : Serves w w' ∨ Serves w.withoutOffer w') : Asking w' :=
  hs.elim h.of_serves fun hs =>
    h.of_eq hs.inviteClients hs.clients hs.inviteTc (hs.status.trans w.status_withoutOffer)

theorem fire (h : Asking w) (c : DialogCallback) : Asking (w.fire c) := h.of_eq rfl rfl rfl rfl

/-- A client is started for another request than a BYE. -/
theorem startClient (h : Asking w) {req : SipMessage} (hreq : req.requestMethod ≠ some .bye)
    (listener : Bool) : Asking (w.startClient S req listener) := by
  refine ⟨h.inviting, fun hw => ?_⟩
  obtain ⟨r, t, hget, hlast, ht⟩ := h.byeing hw
  exact ⟨r, t, Heap.get_new_of_get hget _, hlast.new hreq, ht⟩

/-- An invite client that is not the pending one of the dialog goes on. -/
theorem onInviteClient (h : Asking w) {r : ℕ}
    (hr : ∀ t, w.inviteClients.get r = some t → ¬ t.state.Pending)
    (f : InviteTransactionClient → InviteTransactionClient × List ProviderCall) :
    Asking (w.onInviteClient (some r) f) := by
  refine ⟨fun hw => ?_, h.byeing⟩
  obtain ⟨s, t, htc, hget, ht⟩ := h.inviting hw
  have hne : ¬ some r = some s := by
    intro heq
    exact hr t (Option.some.inj heq ▸ hget) ht
  refine ⟨s, t, htc, ?_, ht⟩
  show (invoke w.inviteClients (some r) f).1.get s = some t
  rw [get_invoke, if_neg hne]
  exact hget

/-- The same for a generic client; the method keeps the requests. -/
theorem onClient (h : Asking w) {r : ℕ}
    (hr : ∀ t, w.clients.get r = some t → ¬ t.state.Pending)
    {f : TransactionClient → TransactionClient × List ProviderCall}
    (hf : ∀ t, (f t).1.request = t.request) : Asking (w.onClient (some r) f) := by
  refine ⟨h.inviting, fun hw => ?_⟩
  obtain ⟨s, t, hget, hlast, hmethod, hcseq, ht⟩ := h.byeing hw
  have hne : ¬ some r = some s := by
    intro heq
    exact hr t (Option.some.inj heq ▸ hget) ht
  show ∃ s t, (invoke w.clients (some r) f).1.get s = some t ∧
    LastBye (invoke w.clients (some r) f).1 s ∧ _
  refine ⟨s, t, ?_, fun i u hu hbye => ?_, hmethod, hcseq, ht⟩
  · rw [get_invoke, if_neg hne]
    exact hget
  · rw [get_invoke] at hu
    split at hu
    · obtain ⟨u₀, hu₀, rfl⟩ := Option.map_eq_some_iff.mp hu
      exact hlast i u₀ hu₀ (hf u₀ ▸ hbye)
    · exact hlast i u hu hbye

/-- An invite client does something; if the dialog waits for it, it goes on waiting. -/
theorem putInviteClient (h : Asking w) {r : ℕ} {t : InviteTransactionClient}
    {o : Outcome InviteTransactionClient ClientCallback ClientRest}
    (hget : w.inviteClients.get r = some t)
    (hkeep : w.status.IsInviting → w.dlg.inviteTc = some r → t.state.Pending →
      o.self.state.Pending) : Asking (w.putInviteClient r o) := by
  refine ⟨fun hw => ?_, h.byeing⟩
  obtain ⟨s, u, htc, hu⟩ := h.inviting hw
  obtain ⟨u', hu'⟩ := Heap.exists_get_put (P := fun t => t.state.Pending) hget
    (fun hsr => hkeep hw (hsr ▸ htc)) ⟨u, hu⟩
  exact ⟨s, u', htc, hu'⟩

/-- The same for a generic client. -/
theorem putClient (h : Asking w) {r : ℕ} {t : TransactionClient}
    {o : Outcome TransactionClient ClientCallback ClientRest} (hget : w.clients.get r = some t)
    (hreq : o.self.request = t.request)
    (hkeep : w.status = .byeing → t.request.cseqMethod = .bye → t.state.Pending →
      o.self.state.Pending) : Asking (w.putClient r o) := by
  refine ⟨h.inviting, fun hw => ?_⟩
  obtain ⟨s, u, hu, hlast, hmethod, hcseq, hp⟩ := h.byeing hw
  by_cases hsr : s = r
  · subst hsr
    cases hget.symm.trans hu
    exact ⟨s, o.self, Heap.get_put_self .., hlast.put hget hreq, hreq ▸ hmethod, hreq ▸ hcseq,
      hkeep hw hcseq hp⟩
  · exact ⟨s, u, (Heap.get_put_of_ne _ hsr _).trans hu, hlast.put hget hreq, hmethod, hcseq, hp⟩

/-- A request is sent in a state in which the dialog now waits for its answer. -/
theorem sendInvite {w : World} (hw : w.status.IsInviting) (req : SipMessage) :
    Asking (w.sendInvite S req) := by
  refine ⟨fun _ => ?_, fun hbye => ?_⟩
  · exact ⟨w.inviteClients.next, ((InviteTransactionClient.new req true).start _).1, rfl,
      Heap.get_new_self .., rfl, rfl⟩
  · have hstatus : (w.sendInvite S req).status = w.status := rfl
    rw [← hstatus, hbye] at hw
    exact absurd hw (by decide)

theorem sendBye {w : World} {req : SipMessage}
    (hreq : req.requestMethod = some .bye ∧ req.cseqMethod = .bye) :
    Asking ((w.changeStatus .byeing).startClient S req true) := by
  refine ⟨fun hw => ?_, fun _ => ?_⟩
  · exact absurd hw (show ¬ Status.IsInviting .byeing by decide)
  · exact ⟨w.clients.next, ((TransactionClient.new req true).start _).1, Heap.get_new_self ..,
      lastBye_next _ _, hreq.1, hreq.2, rfl, rfl⟩

/-! ### Handlers -/

theorem of_receives (h : Asking w) {m : SipMessage} (hr : Receives S w m w') : Asking w' := by
  cases hr with
  | serves hs => exact h.of_serves hs
  | invite _ _ _ _ _ hfirst hagain =>
    by_cases hinit : w.status = .init
    · rcases hfirst hinit with hs | hs <;> exact of_status hs (by decide)
    · rcases hagain hinit with hs | hs <;> exact of_status hs (by decide)
  | ack _ _ hstatus => exact of_status (s := .call) hstatus (by decide)
  | bye _ _ hstatus => exact of_status (s := .byed) hstatus (by decide)
  | late => exact h.of_eq rfl rfl rfl rfl

theorem status_fireSuccess (w : World) (reInviting : Bool) (m : SipMessage) :
    (w.fireSuccess reInviting m).status = w.status := by
  unfold World.fireSuccess
  split <;> rfl

/-- A callback of a client transaction: the dialog goes on waiting, or it does not wait. -/
theorem of_notifies {method : Method} {c : ClientCallback}
    (h : ¬ w.Settles method c → Asking w) (hn : Notifies S w method c w') : Asking w' := by
  cases hn with
  | serves hs hidle => exact (h hidle).of_serves hs
  | pracks _ _ _ hs hprack =>
    refine (((h id).of_serves hs).startClient ?_ false).fire _
    rw [hprack]
    decide
  | fails => exact of_status (s := .call) rfl (by decide)
  | closes => exact of_status (s := .close) rfl (by decide)
  | byeTimeout => exact of_status (s := .close) rfl (by decide)
  | acks _ _ _ _ _ hstatus => exact of_status ((status_fireSuccess ..).trans hstatus) (by decide)
  | keeps _ _ _ _ _ hstatus => exact of_status ((status_fireSuccess ..).trans hstatus) (by decide)

theorem of_served (h : Asking w) (hs : Served w w') : Asking w' := by
  cases hs with
  | serves hs => exact h.of_serves hs
  | invited _ _ _ hstatus => rcases hstatus with hs | hs <;> exact of_status hs (by decide)
  | cancelled _ _ hstatus =>
    refine of_status hstatus ?_
    split <;> decide
  | acked _ _ hstatus => exact of_status hstatus (by decide)
  | closes _ _ hstatus => exact of_status (s := .close) hstatus (by decide)

theorem of_answers {resp : SipMessage} (ha : Answers w resp w') : Asking w' := by
  by_cases hcode : 200 ≤ resp.code ∧ resp.code < 300
  · refine of_status (ha.accepted hcode) ?_
    split <;> decide
  · refine of_status (ha.refused hcode) ?_
    split <;> decide

theorem confirm2xx (h : Asking w) (ack : SipMessage) : Asking (w.confirm2xx ack) := by
  unfold World.confirm2xx
  dsimp only
  split <;> exact h.of_eq rfl rfl rfl rfl

theorem terminate (h : Asking w) : Asking w.terminate := by
  unfold World.terminate
  split
  · exact h
  · exact of_status (s := .close) rfl (by decide)

theorem of_called (h : Asking w) {a : Api} (hdrop : a.IsCancel → w.status.IsInviting →
    w.inviteTcProceeding = true) (hc : Called S w a w') : Asking w' := by
  cases hc with
  | serves hs => exact h.of_serves hs
  | listens _ _ hstatus => exact of_status hstatus (by decide)
  | withoutOffer hs => exact h.of_serves_or (.inr hs)
  | invites => exact sendInvite (w := World.changeStatus _ _) (.inl rfl) _
  | reInvites => exact sendInvite (w := World.changeStatus _ _) (.inr rfl) _
  | answers ha => exact of_answers ha
  | confirms hs => exact (h.of_serves hs).confirm2xx _
  | confirmsWith => exact h.confirm2xx _
  | pracks hs _ hprack => exact (h.of_serves hs).startClient (by rw [hprack]; decide) false
  | byes _ _ hreq => exact sendBye hreq
  | cancels _ hreq => exact h.startClient (by rw [hreq]; decide) false
  | abandons hw htc ha =>
    have hcancel : a.IsCancel := by
      rcases ha with rfl | ⟨c, rfl⟩ <;> trivial
    rw [hdrop hcancel hw] at htc
    cases htc
  | requests hs hw hreq =>
    refine (h.of_serves hs).startClient ?_ true
    rcases hw with ⟨-, hinfo⟩ | ⟨-, hupdate⟩
    · rw [hreq, hinfo]
      decide
    · rw [hreq, hupdate]
      decide
  | terminates => exact h.terminate

/-- Code goes on after a callback: the client that it belongs to has its answer. -/
theorem resume (h : Asking w) (hsound : Sound w) {c : Rest} {rest : List Frame}
    (hstack : w.stack = .code c :: rest) (hc : ¬ c.IsServing) :
    Asking ({ w with stack := rest }.resume c) := by
  have hpop : Asking { w with stack := rest } := h.of_eq rfl rfl rfl rfl
  have hmem : Frame.code c ∈ w.stack := by
    rw [hstack]
    exact List.mem_cons_self ..
  cases c with
  | inviteClient r k =>
    obtain ⟨t, hget, hdone⟩ := hsound.inviteClientRests r k hmem
    refine hpop.onInviteClient (fun t' hget' hp => ?_) _
    cases hget.symm.trans hget'
    have hpending : t.status.isPending = true := hp.1
    rw [hdone] at hpending
    cases hpending
  | client r k =>
    obtain ⟨t, hget, hdone⟩ := hsound.clientRests r k hmem
    refine hpop.onClient (fun t' hget' hp => ?_) fun t => (t.state_resume k).2.1
    cases hget.symm.trans hget'
    have hpending : t.status.isPending = true := hp.1
    rw [hdone] at hpending
    cases hpending
  | inviteServer r k => exact absurd trivial hc
  | sessionTimers m => exact absurd trivial hc
  | afterPrack => exact absurd trivial hc
  | afterResponderTimeout => exact absurd trivial hc
  | fireDlgCall => exact hpop.fire _
  | fireDlgClosed => exact hpop.fire _
  | closeAfterBye => exact of_status (s := .close) rfl (by decide)

/-- **One event keeps it**, if it does not drop the client. -/
theorem happens (h : Asking w) (hsound : Sound w) {e : Event} (hdrop : w.Undropped e)
    (he : Happens S w e w') : Asking w' := by
  cases he with
  | serves hs => exact h.of_serves hs
  | returns => exact h.of_eq rfl rfl rfl rfl
  | receives _ _ hr => exact (h.of_serves (serves_received ..)).of_receives hr
  | inviteClient _ h₁ hget hdid hc =>
    have hwaiting := ((hsound.of_serves h₁).inviteClients _ _ hget).2
    exact (h.of_serves h₁).putInviteClient hget fun _ _ hp =>
      (hc ▸ hdid.step).pending_of_none hwaiting hp
  | @inviteClientCalls _ w₁ _ r t o c hidle h₁ hdlg hget hdid hc hm hn =>
    have hw₁ := h.of_serves h₁
    have hstep := hc ▸ hdid.step
    have hmethod : o.self.request.getTransactionMethod = .invite := by
      have hrequest : o.self.request = t.request := hdid.step.request_eq
      rw [hrequest]
      exact ((hsound.of_serves h₁).inviteClients r t hget).1
    refine of_notifies (fun hidle' => hw₁.putInviteClient hget fun hinviting htc hp => ?_) hn
    have hinviting' : (w₁.putInviteClient r o).status.IsInviting := hinviting
    -- the callbacks that would end the client settle the INVITE, and this one does not
    cases c with
    | onTransProvisionalResponse m => exact hstep.pending_of_provisional hp
    | onTransSuccessResponse m =>
      obtain ⟨rfl, hl, -⟩ := hm m rfl
      obtain ⟨hlow, hhigh⟩ := hstep.code_of_success
      have hinvite : m.cseqMethod = .invite := by
        refine hdrop hidle ?_ ((SipMessage.is2xx_iff m).mpr ⟨hlow, hhigh⟩) r ?_ hl
        · rw [← h₁.status]
          exact hinviting
        · rw [← hdlg]
          exact htc
      exact absurd (.inl ⟨hmethod, hinviting', hlow, hhigh, hinvite⟩) hidle'
    | onTransFailureResponse m => exact absurd (.inl ⟨hmethod, hinviting'⟩) hidle'
    | onTransTimeout => exact absurd (.inl ⟨hmethod, hinviting'⟩) hidle'
  | client _ h₁ hget hdid hc =>
    have hwaiting := ((hsound.of_serves h₁).clients _ _ hget).2
    exact (h.of_serves h₁).putClient hget hdid.step.request_eq fun _ _ hp =>
      (hc ▸ hdid.step).pending_of_none hwaiting hp
  | @clientCalls _ w₁ _ r t o c _ h₁ hget hdid hc hn =>
    have hw₁ := h.of_serves h₁
    have hstep := hc ▸ hdid.step
    have hrequest : o.self.request = t.request := hdid.step.request_eq
    refine of_notifies (fun hidle' => hw₁.putClient hget hrequest fun hbyeing hbye hp => ?_) hn
    have hbyeing' : (w₁.putClient r o).status = .byeing := hbyeing
    have hmethod : o.self.request.getTransactionMethod = .bye := by
      rw [hrequest]
      exact hbye
    cases c with
    | onTransProvisionalResponse m => exact hstep.pending_of_provisional hp
    | onTransSuccessResponse m => exact absurd (.inr ⟨hmethod, hbyeing'⟩) hidle'
    | onTransFailureResponse m => exact absurd (.inr ⟨hmethod, hbyeing'⟩) hidle'
    | onTransTimeout => exact absurd (.inr ⟨hmethod, hbyeing'⟩) hidle'
  | served _ hs => exact h.of_served hs
  | called huser hc => exact h.of_called (fun hcancel => hdrop hcancel huser) hc
  | resumes hstack hc => exact h.resume hsound hstack hc
  | @goesOn _ rest _ hstack _ hs =>
    have hpop : Asking { w with stack := rest } := h.of_eq rfl rfl rfl rfl
    exact hpop.of_serves hs

end Asking

end World
end SoftPhone
