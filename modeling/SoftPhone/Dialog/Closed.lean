import SoftPhone.Dialog.Phase

/-!
# A closed dialog stays closed

In D_CLOSE no event changes the state or makes the dialog send a request, and a dialog
reports its end once.

The code does not give this for every run.

* A BYE is reported before the dialog is closed.  When the listener calls `terminate`
  from inside that report, the dialog closes there, and closes and reports its end
  again when the report returns (`closed_twice`).
* `confirm2xxWithAnswer` and `confirm1xx` do not look at the state, and neither does
  the automatic PRACK for a reliable response that comes late.

`ClosesCleanly` excludes these, and `close_absorbing` needs nothing else.

A request is counted where the dialog sends it: an ACK for a 2xx, or the first message
of a client transaction.  What a transaction sends again by itself is not counted.
-/

namespace SoftPhone

open Machine

/-- The dialog is neither closed nor about to be closed after a BYE. -/
def Status.IsOpen (s : Status) : Prop := s ≠ .close ∧ s ≠ .byed

instance : DecidablePred Status.IsOpen := fun _ => inferInstanceAs (Decidable (_ ∧ _))

namespace Phase

/-- The end is reported or about to be when the dialog is closed, and only then; the
closing that follows a BYE is about to come in D_BYED, and only there. -/
structure EndsOnce (p : Phase) : Prop where
  reports : p.reported.count .onDlgClosed + p.pending.count .fireDlgClosed =
    if p.status = .close then 1 else 0
  closing : p.pending.count .closeAfterBye = if p.status = .byed then 1 else 0

/-- While the dialog is open nothing says that it ends. -/
structure Untold (p : Phase) : Prop where
  reported : p.reported.count .onDlgClosed = 0
  pending : p.pending.count .fireDlgClosed = 0
  closing : p.pending.count .closeAfterBye = 0

theorem EndsOnce.untold {p : Phase} (h : p.EndsOnce) (hopen : p.status.IsOpen) : p.Untold := by
  have hreports := h.reports
  rw [if_neg hopen.1] at hreports
  have hclosing := h.closing
  rw [if_neg hopen.2] at hclosing
  exact ⟨by omega, by omega, hclosing⟩

theorem Untold.endsOnce {p : Phase} (h : p.Untold) (hopen : p.status.IsOpen) : p.EndsOnce := by
  refine ⟨?_, ?_⟩
  · rw [if_neg hopen.1, h.reported, h.pending]
  · rw [if_neg hopen.2, h.closing]

/-- Only the state changes, from an open one to an open one. -/
theorem EndsOnce.move {p : Phase} {s : Status} (h : p.EndsOnce) (hp : p.status.IsOpen)
    (hs : s.IsOpen) : EndsOnce { p with status := s } :=
  have hp := h.untold hp
  Untold.endsOnce ⟨hp.reported, hp.pending, hp.closing⟩ hs

/-- The call is to be reported. -/
theorem EndsOnce.call {p : Phase} (h : p.EndsOnce) (hp : p.status.IsOpen) :
    EndsOnce { p with status := .call, pending := .fireDlgCall :: p.pending } := by
  have hp := h.untold hp
  refine Untold.endsOnce ⟨hp.reported, ?_, ?_⟩ (show Status.call.IsOpen by decide)
  · simpa using hp.pending
  · simpa using hp.closing

/-- An open dialog is closed and reports that at once. -/
theorem EndsOnce.close {p : Phase} (h : p.EndsOnce) (hp : p.status.IsOpen) :
    EndsOnce { p with status := .close, reported := .onDlgClosed :: p.reported } := by
  have hp := h.untold hp
  exact ⟨by simp [hp.reported, hp.pending], by simp [hp.closing]⟩

end Phase

theorem Status.IsInvited.isOpen {s : Status} (h : s.IsInvited) : s.IsOpen := by
  rcases h with rfl | rfl <;> decide

/-- A dialog that ends once still does after any move but the user's end of a dialog in
D_BYED. -/
theorem PhaseStep.endsOnce {p p' : Phase} {t : Turn} (h : PhaseStep p t p') (hp : p.EndsOnce)
    (hbyed : t = .terminates → p.status ≠ .byed) : p'.EndsOnce := by
  have hopen {s : Status} (hs : p.status = s) (h : s.IsOpen := by decide) : p.status.IsOpen :=
    hs ▸ h
  cases h with
  | stays => exact hp
  | listens h => exact hp.move (hopen h) (by decide)
  | invites h => exact hp.move (hopen h) (by decide)
  | reInvites h => exact hp.move (hopen h) (by decide)
  | invited s hclose hidle hfirst hagain =>
    have hclosing := hp.closing
    rw [hidle, List.count_nil] at hclosing
    have hnotByed : p.status ≠ .byed := by
      intro h
      rw [if_pos h] at hclosing
      cases hclosing
    refine hp.move ⟨hclose, hnotByed⟩ ?_
    by_cases hinit : p.status = .init
    · rcases hfirst hinit with rfl | rfl <;> decide
    · rcases hagain hinit with rfl | rfl <;> decide
  | awaited s h hs =>
    refine hp.move (hopen h) ?_
    rcases hs with rfl | rfl <;> decide
  | accepts h => exact hp.move h.isOpen (by split <;> decide)
  | refuses h => exact hp.move h.isOpen (by split <;> decide)
  | acked h => exact hp.call (h.elim (hopen ·) (hopen ·))
  | succeeds h => exact hp.call (hopen h)
  | reSucceeds h => exact hp.move (hopen h) (by decide)
  | reFails h => exact hp.move (hopen h) (by decide)
  | byes h => exact hp.move (hopen h) (by decide)
  | byeFails h => exact hp.move (hopen h) (by decide)
  | byed h =>
    have hp := hp.untold (h.elim (hopen ·) (hopen ·))
    exact ⟨by simp [hp.reported, hp.pending], by simp [hp.closing]⟩
  | closes h =>
    have hp := hp.untold (h.elim (fun h => h.elim (hopen ·) (hopen ·)) (hopen ·))
    exact ⟨by simp [hp.reported, hp.pending], by simp [hp.closing]⟩
  | byeTimeout h => exact hp.close (hopen h)
  | refusalAcked h => exact hp.move (hopen h) (by decide)
  | lost h =>
    exact hp.close (h.elim (fun h => h.elim (hopen ·) (hopen ·)) fun h => h.elim (hopen ·) (hopen ·))
  | terminates h => exact hp.close ⟨h, hbyed rfl⟩
  | reportsCall ps h =>
    obtain ⟨hreports, hclosing⟩ := hp
    rw [h] at hreports hclosing
    exact ⟨by simpa using hreports, by simpa using hclosing⟩
  | reportsClosed ps h =>
    obtain ⟨hreports, hclosing⟩ := hp
    rw [h] at hreports hclosing
    refine ⟨?_, by simpa using hclosing⟩
    simp only [List.count_cons_self] at hreports ⊢
    omega
  | closesAfterBye ps h =>
    obtain ⟨hreports, hclosing⟩ := hp
    rw [h] at hreports hclosing
    have hstatus : p.status = .byed := by
      by_contra hne
      simp [hne] at hclosing
    simp [hstatus] at hreports hclosing
    exact ⟨by simp [hreports], by simpa using hclosing⟩

/-- A closed dialog stays closed. -/
theorem PhaseStep.close {p p' : Phase} {t : Turn} (h : PhaseStep p t p')
    (hclose : p.status = .close) : p'.status = .close := by
  have hnot {s : Status} {P : Prop} (hs : p.status = s) (hne : s ≠ .close := by decide) : P :=
    absurd (hs.symm.trans hclose) hne
  cases h with
  | stays | reportsCall | reportsClosed => exact hclose
  | closes | byeTimeout | lost | terminates | closesAfterBye => rfl
  | listens h | invites h | reInvites h | awaited _ h | succeeds h | reSucceeds h | reFails h
  | byes h | byeFails h | refusalAcked h => exact hnot h
  | invited _ hopen => exact absurd hclose hopen
  | accepts h | refuses h | acked h | byed h => exact h.elim (hnot ·) (hnot ·)

namespace World

variable {S : SipStack}

/-! ## Requests -/

/-- A request that the dialog sends: an ACK for a 2xx, or the first message of a client
transaction that there was not in `w`. -/
def IsRequest (w : World) : Obs → Prop
  | .sent .ackClient _ => True
  | .sent (.client r) _ => w.clients.get r = none
  | .sent (.inviteClient r) _ => w.inviteClients.get r = none
  | _ => False

/-- Between `w` and `w'` the dialog sends no request. -/
def SendsNoRequest (w w' : World) : Prop :=
  ∃ l, w'.log = l ++ w.log ∧ ∀ o ∈ l, ¬ w.IsRequest o

theorem SendsNoRequest.refl (w : World) : SendsNoRequest w w := ⟨[], rfl, by simp⟩

theorem Moves.sendsNoRequest {w w' : World} (h : Moves w w') : SendsNoRequest w w' := by
  obtain ⟨l, hl, hneutral⟩ := h.log
  refine ⟨l, hl, fun o ho hreq => ?_⟩
  have hserver := hneutral o ho
  cases o with
  | sent a m => cases a <;> first | exact hreq | exact hserver
  | received a m => exact hreq
  | processed m => exact hreq
  | fired c => exact hreq

/-- Server work comes first. -/
theorem SendsNoRequest.after {w w₁ w' : World} (h : Serves w w₁) (h' : SendsNoRequest w₁ w') :
    SendsNoRequest w w' := by
  obtain ⟨l, hl, hno⟩ := h.sendsNoRequest
  obtain ⟨l', hl', hno'⟩ := h'
  have hsame (o : Obs) : w₁.IsRequest o ↔ w.IsRequest o := by
    unfold IsRequest
    rw [h.clients, h.inviteClients]
  refine ⟨l' ++ l, by rw [hl', hl, List.append_assoc], fun o ho hreq => ?_⟩
  rcases List.mem_append.mp ho with ho | ho
  · exact hno' o ho ((hsame o).mpr hreq)
  · exact hno o ho hreq

/-- Server work comes last. -/
theorem SendsNoRequest.before {w w₁ w' : World} (h : SendsNoRequest w w₁) (h' : Moves w₁ w') :
    SendsNoRequest w w' := by
  obtain ⟨l, hl, hno⟩ := h
  obtain ⟨l', hl', hneutral⟩ := h'.log
  refine ⟨l' ++ l, by rw [hl', hl, List.append_assoc], fun o ho hreq => ?_⟩
  rcases List.mem_append.mp ho with ho | ho
  · have hserver := hneutral o ho
    cases o with
    | sent a m => cases a <;> first | exact hreq | exact hserver
    | received a m => exact hreq
    | processed m => exact hreq
    | fired c => exact hreq
  · exact hno o ho hreq

theorem SendsNoRequest.fire {w w' : World} (h : SendsNoRequest w w') (c : DialogCallback) :
    SendsNoRequest w (w'.fire c) := by
  obtain ⟨l, hl, hno⟩ := h
  refine ⟨.fired c :: l, by rw [List.cons_append, ← hl]; rfl, fun o ho hreq => ?_⟩
  rcases List.mem_cons.mp ho with rfl | ho
  · exact hreq
  · exact hno o ho hreq

/-- What a transaction sends that there was before is no request of the dialog. -/
theorem sendsNoRequest_of_calls {w w' : World} {a : Agent} {cs : List ProviderCall}
    (hprovider : w'.provider = w.provider.calls a cs)
    (ha : ∀ m, .sendMessage m ∈ cs → ¬ w.IsRequest (.sent a m)) : SendsNoRequest w w' := by
  refine ⟨SipProvider.sents a cs, ?_, ?_⟩
  · rw [log, hprovider, SipProvider.log_calls]
  · intro o ho
    obtain ⟨m, hm, rfl⟩ := SipProvider.mem_sents.mp ho
    exact ha m hm

theorem sendsNoRequest_putInviteClient {w : World} {r : ℕ} {t : InviteTransactionClient}
    (hget : w.inviteClients.get r = some t)
    (o : Outcome InviteTransactionClient ClientCallback ClientRest) :
    SendsNoRequest w (w.putInviteClient r o) :=
  sendsNoRequest_of_calls rfl fun m _ h => by simp [IsRequest, hget] at h

theorem sendsNoRequest_putClient {w : World} {r : ℕ} {t : TransactionClient}
    (hget : w.clients.get r = some t)
    (o : Outcome TransactionClient ClientCallback ClientRest) :
    SendsNoRequest w (w.putClient r o) :=
  sendsNoRequest_of_calls rfl fun m _ h => by simp [IsRequest, hget] at h

theorem sendsNoRequest_onInviteClient {w : World} (r : ℕ) {t : InviteTransactionClient}
    (hget : w.inviteClients.get r = some t)
    (f : InviteTransactionClient → InviteTransactionClient × List ProviderCall) :
    SendsNoRequest w (w.onInviteClient (some r) f) :=
  sendsNoRequest_of_calls rfl fun m _ h => by simp [IsRequest, hget] at h

theorem sendsNoRequest_onClient {w : World} (r : ℕ) {t : TransactionClient}
    (hget : w.clients.get r = some t)
    (f : TransactionClient → TransactionClient × List ProviderCall) :
    SendsNoRequest w (w.onClient (some r) f) :=
  sendsNoRequest_of_calls rfl fun m _ h => by simp [IsRequest, hget] at h

/-! ## The condition -/

/-- The user ends the dialog. -/
def EndsDialog : Api → Prop
  | .terminate => True
  | _ => False

instance : DecidablePred EndsDialog := fun a => by
  unfold EndsDialog
  split <;> infer_instance

/-- The event brings a fresh reliable response to an invite client that waits. -/
def BringsReliable (w : World) : Event → Prop
  | .recv m =>
    match w.provider.getListener m with
    | some (.inviteClient r) =>
      w.FreshReliable m ∧ ∃ t ∈ w.inviteClients.get r, t.status.isPending ∧ t.listener = true
    | _ => False
  | _ => False

instance (w : World) : DecidablePred w.BringsReliable := fun e => by
  unfold BringsReliable
  split
  · split <;> infer_instance
  · infer_instance

/-- The user does not end the dialog in D_BYED, and in D_CLOSE nothing is done that
sends a request in any state. -/
def ClosesCleanly (S : SipStack) (w : World) (e : Event) : Prop :=
  (w.status = .byed → ¬ e.IsCall EndsDialog) ∧
    (w.status = .close → ¬ e.IsCall w.SendsAnyway ∧ (S.autoPrack = true → ¬ w.BringsReliable e))

instance (S : SipStack) (w : World) (e : Event) : Decidable (ClosesCleanly S w e) :=
  inferInstanceAs (Decidable (_ ∧ (_ → _ ∧ (_ → _))))

/-! ## Nothing is sent -/

theorem Notifies.of_closed {w w' : World} {method : Method} {c : ClientCallback}
    (hclose : w.status = .close) (h : Notifies S w method c w') :
    Serves w w' ∨ ∃ m, c = .onTransProvisionalResponse m ∧ S.autoPrack = true ∧
      method = .invite ∧ w.FreshReliable m := by
  have hnot {s : Status} {P : Prop} (hs : w.status = s) (hne : s ≠ .close := by decide) : P :=
    absurd (hs.symm.trans hclose) hne
  cases h with
  | serves h => exact .inl h
  | pracks hauto hm hfresh => exact .inr ⟨_, rfl, hauto, hm, hfresh⟩
  | fails hw => exact hw.elim (fun hw => hnot hw.2) (fun hw => hnot hw.2)
  | closes hw => exact hw.elim (fun hw => hw.2.elim (hnot ·) (hnot ·)) (fun hw => hnot hw.2)
  | byeTimeout _ hw => exact hnot hw
  | acks _ hw => exact hw.elim (hnot ·) (hnot ·)
  | keeps _ hw => exact hw.elim (hnot ·) (hnot ·)

theorem Served.of_closed {w w' : World} (hclose : w.status = .close) (h : Served w w') :
    Serves w w' := by
  have hnot {s : Status} {P : Prop} (hs : w.status = s) (hne : s ≠ .close := by decide) : P :=
    absurd (hs.symm.trans hclose) hne
  cases h with
  | serves h => exact h
  | invited hw => exact hnot hw
  | cancelled hw => exact hw.elim (hnot ·) (hnot ·)
  | acked hw => exact hnot hw
  | closes hw => exact hw.elim (fun hw => hw.elim (hnot ·) (hnot ·)) (fun hw => hw.elim (hnot ·) (hnot ·))

theorem Called.of_closed {w w' : World} {a : Api} (hclose : w.status = .close)
    (hsend : ¬ w.SendsAnyway a) (h : Called S w a w') : SendsNoRequest w w' := by
  have hnot {s : Status} {P : Prop} (hs : w.status = s) (hne : s ≠ .close := by decide) : P :=
    absurd (hs.symm.trans hclose) hne
  cases h with
  | serves h => exact h.sendsNoRequest
  | listens hw => exact hnot hw
  | withoutOffer h => exact h.sendsNoRequest
  | invites hw => exact hnot hw
  | reInvites hw => exact hnot hw
  | answers h => exact h.invited.elim (hnot ·) (hnot ·)
  | confirms _ hresp => exact absurd (show w.dlg.inv2xxResp.isSome by rw [hresp]; rfl) hsend
  | confirmsWith => exact absurd trivial hsend
  | pracks _ ha => exact absurd ha hsend
  | byes hw => exact hnot hw
  | cancels hw => exact hw.elim (hnot ·) (hnot ·)
  | abandons hw => exact hw.elim (hnot ·) (hnot ·)
  | requests _ hw =>
    rcases hw with ⟨hw, -⟩ | ⟨hw, -⟩
    · exact hnot hw
    · rw [hclose] at hw
      cases hw
  | terminates =>
    have hstay : w.terminate = w := by
      unfold terminate
      rw [if_pos hclose]
    rw [hstay]
    exact .refl w

theorem sendsNoRequest_of_closed {w w' : World} {e : Event} (h : Sound w)
    (hclose : w.status = .close) (hclean : ClosesCleanly S w e) (he : Happens S w e w') :
    SendsNoRequest w w' := by
  obtain ⟨hapi, hreliable⟩ := hclean.2 hclose
  cases he with
  | serves hs => exact hs.sendsNoRequest
  | returns => exact ⟨[], rfl, by simp⟩
  | receives _ hl => exact absurd hclose (h.open_of_getListener hl)
  | inviteClient _ h₁ hget => exact .after h₁ (sendsNoRequest_putInviteClient hget _)
  | @inviteClientCalls _ w₁ _ r t o c hidle h₁ hdlg hget hdid hc hm hn =>
    have hput := sendsNoRequest_putInviteClient hget o
    have hclose₁ : (w₁.putInviteClient r o).status = .close := h₁.status.trans hclose
    rcases hn.of_closed hclose₁ with hs | ⟨m, rfl, hauto, -, hfresh⟩
    · exact .after h₁ (hput.before hs.toMoves)
    · obtain ⟨rfl, hl, -⟩ := hm m rfl
      refine absurd ?_ (hreliable hauto)
      have hpending : t.state.Pending := (hc ▸ hdid.step).pending_of_message rfl
      have hdlg' : (w₁.putInviteClient r o).dlg = w.dlg := hdlg
      rw [FreshReliable, hdlg'] at hfresh
      simp only [BringsReliable, hl]
      exact ⟨hfresh, t, h₁.inviteClients ▸ hget, hpending⟩
  | client _ h₁ hget => exact .after h₁ (sendsNoRequest_putClient hget _)
  | @clientCalls _ w₁ _ r t o c hidle h₁ hget hdid hc hn =>
    have hput := sendsNoRequest_putClient hget o
    have hclose₁ : (w₁.putClient r o).status = .close := h₁.status.trans hclose
    rcases hn.of_closed hclose₁ with hs | ⟨m, rfl, -, hmethod, -⟩
    · exact .after h₁ (hput.before hs.toMoves)
    · exact absurd hmethod ((h.of_serves h₁).method_ne_invite hget hdid hc)
  | served _ hs => exact (hs.of_closed hclose).sendsNoRequest
  | called _ hc => exact hc.of_closed hclose hapi
  | @resumes c rest hstack hc =>
    have hmem : Frame.code c ∈ w.stack := hstack ▸ List.mem_cons_self ..
    cases c with
    | inviteClient r k =>
      obtain ⟨t, hget, -⟩ := h.inviteClientRests r k hmem
      exact sendsNoRequest_onInviteClient r hget _
    | client r k =>
      obtain ⟨t, hget, -⟩ := h.clientRests r k hmem
      exact sendsNoRequest_onClient r hget _
    | inviteServer r k => exact absurd trivial hc
    | sessionTimers m => exact absurd trivial hc
    | afterPrack => exact absurd trivial hc
    | afterResponderTimeout => exact absurd trivial hc
    | fireDlgCall => exact (SendsNoRequest.refl w).fire _
    | fireDlgClosed => exact (SendsNoRequest.refl w).fire _
    | closeAfterBye =>
      have hclose := moves_changeStatus { w with stack := rest } .close
      exact hclose.sendsNoRequest.fire _
  | goesOn _ _ hs => exact hs.sendsNoRequest

/-! ## Every run -/

/-- The end is told once. -/
def EndsOnce (w : World) : Prop := w.phase.EndsOnce

theorem Start.endsOnce (hS : S.extended = false) {w : World} (h : Start S w) : w.EndsOnce := by
  obtain ⟨s, hs, hphase⟩ := h.phase_eq hS
  unfold EndsOnce
  rw [hphase]
  rcases hs with rfl | rfl | rfl <;> exact ⟨rfl, rfl⟩

theorem endsOnce_step (hS : S.extended = false) {w : World} {e : Event} (h : Sound w)
    (hw : w.EndsOnce) (hclean : ClosesCleanly S w e) : (w.step S e).EndsOnce := by
  obtain ⟨t, ht⟩ := turns_step hS h e
  refine ht.phase.endsOnce hw fun hterm hbyed => ?_
  exact hclean.1 hbyed (ht.terminates hterm ▸ trivial)

theorem endsOnce_run (hS : S.extended = false) {w : World} (hw : Start S w) {es : List Event}
    (hclean : Meets (step S) (ClosesCleanly S) w es) :
    Sound (run (step S) w es) ∧ (run (step S) w es).EndsOnce := by
  refine run_invariant_of_meets (I := fun w => Sound w ∧ w.EndsOnce) ?_ hclean
    ⟨hw.sound hS, hw.endsOnce hS⟩
  rintro w e hclean ⟨hsound, hends⟩
  exact ⟨hsound.happens (happens_step hS w e), endsOnce_step hS hsound hends hclean⟩

/-- The reports of the end. -/
theorem count_reported (w : World) :
    w.phase.reported.count .onDlgClosed = w.log.count (.fired .onDlgClosed) := by
  show (w.log.filterMap Obs.report?).count _ = _
  induction w.log with
  | nil => rfl
  | cons o l ih =>
    rw [List.filterMap_cons, List.count_cons]
    cases o with
    | fired c => cases c <;> simp [Obs.report?, ih]
    | received a m => simpa [Obs.report?] using ih
    | sent a m => simpa [Obs.report?] using ih
    | processed m => simpa [Obs.report?] using ih

/-- **D_CLOSE is absorbing**, in every run that closes cleanly: the end is reported at
most once, and an event that finds the dialog closed leaves it closed and makes it
send no request. -/
theorem close_absorbing (hS : S.extended = false) {w : World} (hw : Start S w)
    {es : List Event} (hclean : Meets (step S) (ClosesCleanly S) w es) :
    (run (step S) w es).log.count (.fired .onDlgClosed) ≤ 1 ∧
      ((run (step S) w es).status = .close → ∀ e, ClosesCleanly S (run (step S) w es) e →
        ((run (step S) w es).step S e).status = .close ∧
          SendsNoRequest (run (step S) w es) ((run (step S) w es).step S e)) := by
  obtain ⟨hsound, hends⟩ := endsOnce_run hS hw hclean
  set w' : World := run (step S) w es
  refine ⟨?_, fun hclose e he => ⟨?_, ?_⟩⟩
  · rw [← count_reported]
    have hreports := hends.reports
    split at hreports <;> omega
  · obtain ⟨t, ht⟩ := turns_step hS hsound e
    exact ht.phase.close hclose
  · exact sendsNoRequest_of_closed hsound hclose he (happens_step hS w' e)

/-- A call that bob accepts and alice ends. -/
def sampleBye : List Event :=
  [.ret, .api (.accept none "sdp"), .recv (sampleRequest .ack 1 (some "tag") "2"), .ret, .ret,
    .ret, .recv (sampleRequest .bye 2 (some "tag") "3")]

/-- A BYE is reported, and the dialog closes. -/
theorem close_absorbing_bye :
    (run (step {}) (ofInvite {} sampleInvite) (sampleBye ++ [.ret, .ret])).log.count
      (.fired .onDlgClosed) ≤ 1 :=
  (close_absorbing rfl (.ofInvite sampleInvite) (by decide +kernel)).1

/-- **A dialog can report its end twice**: the user ends it from inside the report of
the BYE. -/
theorem closed_twice :
    ¬ ∀ (S : SipStack), S.extended = false → ∀ w, Start S w → ∀ es : List Event,
      (run (step S) w es).log.count (.fired .onDlgClosed) ≤ 1 := by
  intro h
  have hcount := h {} rfl _ (.ofInvite sampleInvite)
    (sampleBye ++ [.api .terminate, .ret, .ret, .ret])
  exact absurd hcount (by decide +kernel)

end World
end SoftPhone
