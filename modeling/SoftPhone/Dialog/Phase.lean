import SoftPhone.Dialog.Sound

/-!
# The life of a dialog

Seen from outside, a dialog has a state, some reports it still owes to its listener,
and the reports it has made: a `Phase`.  `PhaseStep` is the state machine that the
handlers implement, one constructor for each kind of move, with the states it starts
from.

`turns_step` is the refinement: every event of a dialog, of whatever party, is one
move of that machine.  An accepted call comes with the 2xx that accepted it, and an
INVITE that moves the dialog comes with what was checked before it was let in.
-/

namespace SoftPhone

open Machine

/-- A 2xx that the INVITE client received, or that an `AckTransactionServer` sent. -/
def Obs.IsAnswer : Obs → Prop
  | .received (.inviteClient _) m => m.Is2xx
  | .sent (.ackServer _) m => m.Is2xx
  | _ => False

instance : DecidablePred Obs.IsAnswer := fun o => by
  unfold Obs.IsAnswer
  split <;> infer_instance

/-- Some INVITE was answered with a 2xx. -/
def Answered (log : List Obs) : Prop := ∃ o ∈ log, o.IsAnswer

instance (log : List Obs) : Decidable (Answered log) :=
  inferInstanceAs (Decidable (∃ o ∈ log, o.IsAnswer))

theorem Answered.mono {l l' : List Obs} (h : Answered l) (hl : l <:+ l') : Answered l' := by
  obtain ⟨o, ho, hanswer⟩ := h
  exact ⟨o, hl.mem ho, hanswer⟩

/-- A report that is still to be made: of the call, of the end of the dialog, and the
end itself after a BYE. -/
def Frame.pending? : Frame → Option Rest
  | .code .fireDlgCall => some .fireDlgCall
  | .code .fireDlgClosed => some .fireDlgClosed
  | .code .closeAfterBye => some .closeAfterBye
  | _ => none

/-- A report of the call or of the end of the dialog. -/
def Obs.report? : Obs → Option DialogCallback
  | .fired .onDlgCall => some .onDlgCall
  | .fired .onDlgClosed => some .onDlgClosed
  | _ => none

/-- The state of a dialog, the reports to be made, and the ones that were made, newest
first. -/
structure Phase where
  status : Status
  pending : List Rest
  reported : List DialogCallback

/-- The kinds of moves. -/
inductive Turn where
  | stays
  | listens
  | invites
  | reInvites
  /-- An INVITE comes to the dialog. -/
  | invited
  /-- The INVITE comes that a listening dialog waits for. -/
  | awaited
  | accepts
  | refuses
  /-- The ACK of a 2xx comes. -/
  | acked
  /-- The INVITE is answered with a 2xx. -/
  | succeeds
  | reSucceeds
  | reFails
  | byes
  | byeFails
  /-- A BYE comes. -/
  | byed
  /-- The INVITE fails, or the BYE is answered. -/
  | closes
  | byeTimeout
  /-- The ACK of a refused re-INVITE comes. -/
  | refusalAcked
  /-- The ACK of a refused INVITE comes, or no ACK at all. -/
  | lost
  | terminates
  | reportsCall
  | reportsClosed
  | closesAfterBye
  deriving DecidableEq

/-- The moves. -/
inductive PhaseStep (p : Phase) : Turn → Phase → Prop where
  | stays : PhaseStep p .stays p
  | listens (h : p.status = .init) : PhaseStep p .listens { p with status := .waiting }
  | invites (h : p.status = .init) : PhaseStep p .invites { p with status := .inviting }
  | reInvites (h : p.status = .call) : PhaseStep p .reInvites { p with status := .reInviting }
  | invited (s : Status) (h : p.status ≠ .close) (hidle : p.pending = [])
      (hfirst : p.status = .init → s = .invited ∨ s = .refused)
      (hagain : p.status ≠ .init → s = .reInvited ∨ s = .reRefused) :
      PhaseStep p .invited { p with status := s }
  | awaited (s : Status) (h : p.status = .waiting) (hs : s = .invited ∨ s = .refused) :
      PhaseStep p .awaited { p with status := s }
  | accepts (h : p.status.IsInvited) :
      PhaseStep p .accepts { p with status := if p.status = .invited then .accepted else .reAccepted }
  | refuses (h : p.status.IsInvited) :
      PhaseStep p .refuses { p with status := if p.status = .invited then .refused else .reRefused }
  | acked (h : p.status.IsAccepted) :
      PhaseStep p .acked { p with status := .call, pending := .fireDlgCall :: p.pending }
  | succeeds (h : p.status = .inviting) :
      PhaseStep p .succeeds { p with status := .call, pending := .fireDlgCall :: p.pending }
  | reSucceeds (h : p.status = .reInviting) : PhaseStep p .reSucceeds { p with status := .call }
  | reFails (h : p.status = .reInviting) : PhaseStep p .reFails { p with status := .call }
  | byes (h : p.status = .call) : PhaseStep p .byes { p with status := .byeing }
  | byeFails (h : p.status = .byeing) : PhaseStep p .byeFails { p with status := .call }
  | byed (h : p.status = .call ∨ p.status = .byeing) :
      PhaseStep p .byed { p with status := .byed, pending := .closeAfterBye :: p.pending }
  | closes (h : p.status.IsInviting ∨ p.status = .byeing) :
      PhaseStep p .closes { p with status := .close, pending := .fireDlgClosed :: p.pending }
  | byeTimeout (h : p.status = .byeing) :
      PhaseStep p .byeTimeout { p with status := .close, reported := .onDlgClosed :: p.reported }
  | refusalAcked (h : p.status = .reRefused) : PhaseStep p .refusalAcked { p with status := .call }
  | lost (h : p.status.IsRefused ∨ p.status.IsAccepted) :
      PhaseStep p .lost { p with status := .close, reported := .onDlgClosed :: p.reported }
  | terminates (h : p.status ≠ .close) :
      PhaseStep p .terminates { p with status := .close, reported := .onDlgClosed :: p.reported }
  | reportsCall (ps : List Rest) (h : p.pending = .fireDlgCall :: ps) :
      PhaseStep p .reportsCall { p with pending := ps, reported := .onDlgCall :: p.reported }
  | reportsClosed (ps : List Rest) (h : p.pending = .fireDlgClosed :: ps) :
      PhaseStep p .reportsClosed { p with pending := ps, reported := .onDlgClosed :: p.reported }
  | closesAfterBye (ps : List Rest) (h : p.pending = .closeAfterBye :: ps) :
      PhaseStep p .closesAfterBye
        { status := .close, pending := ps, reported := .onDlgClosed :: p.reported }

namespace World

variable {S : SipStack}

/-- What is seen of a dialog from outside. -/
def phase (w : World) : Phase :=
  ⟨w.status, w.stack.filterMap Frame.pending?, w.log.filterMap Obs.report?⟩

@[simp] theorem status_phase (w : World) : w.phase.status = w.status := rfl

/-- The event is an INVITE that the dialog lets in: it comes to the dialog itself, its
CSeq is fresh, and its session timers are acceptable. -/
def LetsIn (S : SipStack) (w : World) : Event → Prop
  | .recv m => w.stack = [] ∧ w.provider.getListener m = some .dialog ∧
      m.requestMethod = some .invite ∧ w.tooLate m = false ∧ sessionTooShort S m = false
  | _ => False

instance (S : SipStack) (w : World) : ∀ e, Decidable (LetsIn S w e)
  | .recv _ => inferInstanceAs (Decidable (_ ∧ _ ∧ _ ∧ _ ∧ _))
  | .timeout _ _ | .responderTimeout _ | .api _ | .ret => isFalse id

/-- The event `e` makes the move `t`. -/
structure Turns (S : SipStack) (w : World) (e : Event) (t : Turn) (w' : World) : Prop where
  phase : PhaseStep w.phase t w'.phase
  log : w.log <:+ w'.log
  invited : t = .invited → LetsIn S w e
  answer : t = .accepts ∨ t = .succeeds → Answered w'.log
  terminates : t = .terminates → e = .api .terminate

/-! ## Small steps -/

theorem pending_neutral {fs : List Frame} (h : ∀ f ∈ fs, f.IsNeutral) :
    fs.filterMap Frame.pending? = [] := by
  rw [List.filterMap_eq_nil_iff]
  intro f hf
  have hneutral := h f hf
  cases f with
  | listener c => rfl
  | code rest => cases rest <;> first | rfl | exact absurd hneutral id

theorem report_neutral {c : DialogCallback} (h : c.IsNeutral) : Obs.report? (.fired c) = none := by
  cases c <;> first | rfl | exact absurd h id

theorem reports_neutral {l : List Obs} (h : ∀ o ∈ l, o.IsNeutral) :
    l.filterMap Obs.report? = [] := by
  rw [List.filterMap_eq_nil_iff]
  intro o ho
  have hneutral := h o ho
  cases o with
  | fired c => exact report_neutral hneutral
  | received a m => rfl
  | sent a m => rfl
  | processed m => rfl

theorem reports_sents (a : Agent) (cs : List ProviderCall) :
    (SipProvider.sents a cs).filterMap Obs.report? = [] := by
  rw [List.filterMap_eq_nil_iff]
  intro o ho
  obtain ⟨m, -, rfl⟩ := SipProvider.mem_sents.mp ho
  rfl

/-- Between two worlds nothing was reported, and nothing more is to be reported. -/
structure Quiet (w w' : World) : Prop where
  phase : w'.phase = w.phase
  log : w.log <:+ w'.log

namespace Quiet

theorem refl (w : World) : Quiet w w := ⟨rfl, List.suffix_refl _⟩

theorem trans {w w' w'' : World} (h : Quiet w w') (h' : Quiet w' w'') : Quiet w w'' :=
  ⟨h'.phase.trans h.phase, h.log.trans h'.log⟩

end Quiet

/-- The state may have changed as well. -/
theorem Moves.phase_eq {w w' : World} (h : Moves w w') :
    w'.phase = { w.phase with status := w'.status } := by
  obtain ⟨fs, hfs, hneutral⟩ := h.stack
  obtain ⟨l, hl, hneutral'⟩ := h.log
  simp only [phase, hfs, hl, List.filterMap_append, pending_neutral hneutral,
    reports_neutral hneutral', List.nil_append]

theorem Moves.suffix {w w' : World} (h : Moves w w') : w.log <:+ w'.log := by
  obtain ⟨l, hl, -⟩ := h.log
  exact ⟨l, hl.symm⟩

theorem Serves.quiet {w w' : World} (h : Serves w w') : Quiet w w' :=
  ⟨by rw [h.phase_eq, h.status]; rfl, h.suffix⟩

/-- Nothing but calls of the provider, and whatever happens to the transactions. -/
theorem quiet_of_calls {w w' : World} {a : Agent} {cs : List ProviderCall}
    (hprovider : w'.provider = w.provider.calls a cs) (hstatus : w'.status = w.status)
    (hstack : w'.stack.filterMap Frame.pending? = w.stack.filterMap Frame.pending?) :
    Quiet w w' := by
  have hlog : w'.log = SipProvider.sents a cs ++ w.log := by
    rw [log, hprovider, SipProvider.log_calls]
  refine ⟨?_, ⟨_, hlog.symm⟩⟩
  simp only [phase, hstatus, hstack, hlog, List.filterMap_append, reports_sents, List.nil_append]

theorem quiet_startClient (w : World) (req : SipMessage) (listener : Bool) :
    Quiet w (w.startClient S req listener) :=
  quiet_of_calls rfl rfl rfl

theorem quiet_startInviteClient (w : World) (req : SipMessage) :
    Quiet w (w.startInviteClient S req) :=
  quiet_of_calls rfl rfl rfl

theorem quiet_startAckClient (w : World) (ack : SipMessage) : Quiet w (w.startAckClient ack) :=
  quiet_of_calls rfl rfl rfl

theorem quiet_onInviteClient (w : World) (r : Option ℕ)
    (f : InviteTransactionClient → InviteTransactionClient × List ProviderCall) :
    Quiet w (w.onInviteClient r f) :=
  quiet_of_calls rfl rfl rfl

theorem quiet_onClient (w : World) (r : Option ℕ)
    (f : TransactionClient → TransactionClient × List ProviderCall) :
    Quiet w (w.onClient r f) :=
  quiet_of_calls rfl rfl rfl

theorem quiet_putInviteClient (w : World) (r : ℕ)
    (o : Outcome InviteTransactionClient ClientCallback ClientRest) :
    Quiet w (w.putInviteClient r o) := by
  refine quiet_of_calls rfl rfl ?_
  unfold putInviteClient
  cases o.rest <;> rfl

theorem quiet_putClient (w : World) (r : ℕ)
    (o : Outcome TransactionClient ClientCallback ClientRest) : Quiet w (w.putClient r o) := by
  refine quiet_of_calls rfl rfl ?_
  unfold putClient
  cases o.rest <;> rfl

theorem quiet_fire (w : World) {c : DialogCallback} (hc : c.IsNeutral) : Quiet w (w.fire c) :=
  (serves_fire w hc).quiet

theorem quiet_sendAck (w : World) (ack : SipMessage) : Quiet w (w.sendAck ack) :=
  quiet_of_calls rfl rfl rfl

theorem quiet_confirm2xx (w : World) (ack : SipMessage) : Quiet w (w.confirm2xx ack) := by
  have hset : Quiet w (w.setAckReq ack) := ⟨rfl, List.suffix_refl _⟩
  unfold confirm2xx
  dsimp only
  split
  · exact hset.trans (quiet_startAckClient ..)
  · exact (hset.trans (serves_setLocalContact ..).quiet).trans (quiet_startAckClient ..)

theorem quiet_sendInvite (w : World) (req : SipMessage) : Quiet w (w.sendInvite S req) := by
  have hinfo : Serves w ((w.setInviteReq req).updateDialogInfo true req) :=
    (serves_setInviteReq ..).trans (serves_updateDialogInfo ..)
  have hset (r : ℕ) : Quiet ((w.setInviteReq req).updateDialogInfo true req)
      (((w.setInviteReq req).updateDialogInfo true req).setInviteTc r) :=
    ⟨rfl, List.suffix_refl _⟩
  exact (hinfo.quiet.trans (hset _)).trans (quiet_startInviteClient ..)

theorem quiet_withoutOffer (w : World) : Quiet w w.withoutOffer := ⟨rfl, List.suffix_refl _⟩

theorem quiet_of_serves_or {w w₁ : World} (h : Serves w w₁ ∨ Serves w.withoutOffer w₁) :
    Quiet w w₁ :=
  h.elim Serves.quiet fun h => (quiet_withoutOffer w).trans h.quiet

/-! ## Moves -/

/-- A move that is neither an INVITE let in nor a final answer nor the user's end of
the dialog. -/
theorem Turns.of_step {w w' : World} {e : Event} {t : Turn} (hphase : PhaseStep w.phase t w'.phase)
    (hlog : w.log <:+ w'.log)
    (ht : t ≠ .invited ∧ t ≠ .accepts ∧ t ≠ .succeeds ∧ t ≠ .terminates := by decide) :
    Turns S w e t w' :=
  ⟨hphase, hlog, fun h => absurd h ht.1, fun h => absurd h (by simp [ht]), fun h => absurd h ht.2.2.2⟩

theorem turns_stays {w w' : World} {e : Event} (h : Quiet w w') : Turns S w e .stays w' :=
  .of_step (h.phase ▸ .stays) h.log

/-- Nothing was reported before the move. -/
theorem Turns.after {w w₁ w' : World} {e : Event} {t : Turn} (h : Quiet w w₁)
    (ht : Turns S w₁ e t w') (hnot : t ≠ .invited) : Turns S w e t w' :=
  ⟨h.phase ▸ ht.phase, h.log.trans ht.log, fun h => absurd h hnot, ht.answer, ht.terminates⟩

/-- Nothing was reported after the move. -/
theorem Turns.before {w w₁ w' : World} {e : Event} {t : Turn} (ht : Turns S w e t w₁)
    (h : Quiet w₁ w') : Turns S w e t w' :=
  ⟨h.phase ▸ ht.phase, ht.log.trans h.log, ht.invited, fun hb => (ht.answer hb).mono h.log,
    ht.terminates⟩

/-- A report is put off, and another callback is made first. -/
theorem phase_report (w : World) {rest : Rest} {c : DialogCallback}
    (hrest : Frame.pending? (.code rest) = some rest) (hc : c.IsNeutral) :
    ((w.suspend rest).fire c).phase = { w.phase with pending := rest :: w.phase.pending } := by
  rw [(quiet_fire _ hc).phase]
  simp [phase, suspend, hrest]

theorem suffix_report (w : World) (rest : Rest) (c : DialogCallback) :
    w.log <:+ ((w.suspend rest).fire c).log :=
  List.suffix_cons ..

theorem phase_closed (w : World) :
    (w.fire .onDlgClosed).phase =
      { w.phase with reported := .onDlgClosed :: w.phase.reported } := rfl

/-- A message that comes to the dialog. -/
theorem turns_receives {w w' : World} {e : Event} {m : SipMessage} (hopen : w.status ≠ .close)
    (hidle : w.stack = [])
    (hin : m.requestMethod = some .invite → w.tooLate m = false → sessionTooShort S m = false →
      LetsIn S w e) (h : Receives S w m w') : ∃ t, Turns S w e t w' := by
  cases h with
  | serves h => exact ⟨_, turns_stays h.quiet⟩
  | invite hm hfresh hlong hmoves hsome hfirst hagain =>
    refine ⟨.invited, ?_, hmoves.suffix, fun _ => hin hm hfresh hlong, by simp, by simp⟩
    rw [hmoves.phase_eq]
    exact .invited _ hopen (by simp [phase, hidle]) hfirst hagain
  | @ack w₁ hw hmoves hstatus =>
    refine ⟨.acked, .of_step ?_ (hmoves.suffix.trans (suffix_report ..))⟩
    rw [phase_report w₁ (by rfl) (by trivial), hmoves.phase_eq, hstatus]
    exact .acked hw
  | @bye w₁ hw hmoves hstatus =>
    refine ⟨.byed, .of_step ?_ (hmoves.suffix.trans (suffix_report ..))⟩
    rw [phase_report w₁ (by rfl) (by trivial), hmoves.phase_eq, hstatus]
    exact .byed hw
  | late => exact ⟨_, turns_stays (quiet_startAckClient ..)⟩

/-- The callbacks for a 2xx. -/
theorem turns_fireSuccess {w w₁ : World} {e : Event} (m : SipMessage)
    (hw : w.status.IsInviting)
    (hphase : w₁.phase = { w.phase with status := .call }) (hlog : w.log <:+ w₁.log)
    (hanswer : Answered w.log) :
    ∃ t, t ≠ .invited ∧ Turns S w e t (w₁.fireSuccess (w.status == .reInviting) m) := by
  have hsession : Serves w₁ (w₁.suspend (.sessionTimers m)) := serves_suspend _ trivial
  have hgrow {w' : World} (h : w₁.log <:+ w'.log) : Answered w'.log :=
    hanswer.mono (hlog.trans h)
  unfold fireSuccess
  split
  · next hre =>
    have hquiet : Quiet w₁ ((w₁.suspend (.sessionTimers m)).fire
        (.onDlgReInviteSuccessResponse m)) :=
      hsession.quiet.trans (quiet_fire _ trivial)
    refine ⟨.reSucceeds, by decide, .of_step ?_ (hlog.trans hquiet.log)⟩
    rw [hquiet.phase, hphase]
    exact .reSucceeds (by simpa using hre)
  · next hre =>
    have hinviting : w.status = .inviting := hw.resolve_right fun h => hre (by simp [h])
    have hlast := suffix_report (w₁.suspend (.sessionTimers m)) .fireDlgCall
      (.onDlgInviteSuccessResponse m)
    refine ⟨.succeeds, by decide, ?_, hlog.trans (hsession.quiet.log.trans hlast), by simp,
      fun _ => hgrow (hsession.quiet.log.trans hlast), by simp⟩
    rw [phase_report _ (by rfl) (by trivial), hsession.quiet.phase, hphase]
    exact .succeeds hinviting

/-- A callback of a client transaction; a 2xx for an INVITE was received by the invite
client. -/
theorem turns_notifies {w w' : World} {e : Event} {method : Method} {c : ClientCallback}
    (hanswer : ∀ m, c = .onTransSuccessResponse m → method = .invite →
      200 ≤ m.code ∧ m.code < 300 → Answered w.log)
    (h : Notifies S w method c w') : ∃ t, t ≠ .invited ∧ Turns S w e t w' := by
  cases h with
  | serves h => exact ⟨.stays, by decide, turns_stays h.quiet⟩
  | pracks _ _ _ h =>
    exact ⟨.stays, by decide, turns_stays ((h.quiet.trans (quiet_startClient ..)).trans (quiet_fire _ trivial))⟩
  | fails hw hc =>
    have hmoves := moves_changeStatus w .call
    have hphase : ((w.changeStatus .call).fire _).phase = { w.phase with status := .call } :=
      (quiet_fire _ hc).phase.trans hmoves.phase_eq
    have hlog := hmoves.suffix.trans (quiet_fire (w.changeStatus .call) hc).log
    rcases hw with ⟨-, hw⟩ | ⟨-, hw⟩
    · exact ⟨.reFails, by decide, .of_step (hphase ▸ .reFails hw) hlog⟩
    · exact ⟨.byeFails, by decide, .of_step (hphase ▸ .byeFails hw) hlog⟩
  | closes hw hc =>
    have hmoves := moves_changeStatus w .close
    refine ⟨.closes, by decide, .of_step ?_ (hmoves.suffix.trans (suffix_report ..))⟩
    rw [phase_report _ (by rfl) hc, hmoves.phase_eq]
    exact .closes (hw.imp And.right And.right)
  | byeTimeout _ hw =>
    have hmoves := moves_changeStatus w .close
    refine ⟨.byeTimeout, by decide, .of_step ?_ (hmoves.suffix.trans (List.suffix_cons ..))⟩
    rw [phase_closed, hmoves.phase_eq]
    exact .byeTimeout hw
  | @acks m ack w₁ hm hw hcode _ hmoves hstatus =>
    have hack := quiet_sendAck w₁ ack
    refine turns_fireSuccess m hw ?_ (hmoves.suffix.trans hack.log)
      (hanswer m rfl hm hcode)
    rw [hack.phase, hmoves.phase_eq, hstatus]
  | @keeps m w₁ hm hw hcode _ hmoves hstatus =>
    have hkeep : Quiet w₁ (w₁.setInv2xxResp m) := ⟨rfl, List.suffix_refl _⟩
    refine turns_fireSuccess m hw ?_ (hmoves.suffix.trans hkeep.log)
      (hanswer m rfl hm hcode)
    rw [hkeep.phase, hmoves.phase_eq, hstatus]

/-- A callback of a server transaction. -/
theorem turns_served {w w' : World} {e : Event} (h : Served w w') : ∃ t, Turns S w e t w' := by
  cases h with
  | serves h => exact ⟨_, turns_stays h.quiet⟩
  | invited hw h _ hstatus =>
    exact ⟨.awaited, .of_step (h.phase_eq ▸ .awaited _ hw hstatus) h.suffix⟩
  | cancelled hw h hstatus =>
    refine ⟨.refuses, .of_step ?_ h.suffix⟩
    rw [h.phase_eq, hstatus]
    exact .refuses hw
  | acked hw h hstatus =>
    refine ⟨.refusalAcked, .of_step ?_ h.suffix⟩
    rw [h.phase_eq, hstatus]
    exact .refusalAcked hw
  | @closes w₁ hw h hstatus =>
    refine ⟨.lost, .of_step ?_ (h.suffix.trans (List.suffix_cons ..))⟩
    rw [phase_closed, h.phase_eq, hstatus]
    exact .lost hw

/-- A final answer of the user; an accepted INVITE is known. -/
theorem turns_answers {w w' : World} {e : Event} {resp : SipMessage}
    (hreq : w.status.IsInvited → w.dlg.inviteReq.isSome) (h : Answers w resp w') :
    ∃ t, Turns S w e t w' := by
  by_cases hcode : 200 ≤ resp.code ∧ resp.code < 300
  · refine ⟨.accepts, ?_, h.moves.suffix, by simp, fun _ => ?_, by simp⟩
    · rw [h.moves.phase_eq, h.accepted hcode]
      exact .accepts h.invited
    · obtain ⟨r, m, hsent, hm⟩ := h.sent hcode (hreq h.invited)
      exact ⟨_, hsent, hm⟩
  · refine ⟨.refuses, .of_step ?_ h.moves.suffix⟩
    rw [h.moves.phase_eq, h.refused hcode]
    exact .refuses h.invited

/-- `terminate` closes the dialog, stops its transactions, and reports the end. -/
theorem quiet_terminate {w : World} (hopen : w.status ≠ .close) :
    ∃ w₁, Quiet (w.changeStatus .close) w₁ ∧ w.terminate = w₁.fire .onDlgClosed := by
  unfold terminate
  rw [if_neg hopen]
  extract_lets w₁ w₂ w₃ w₄ w₅ w₆ w₇
  have h₂ : Quiet w₁ w₂ := quiet_onInviteClient ..
  have h₃ : Quiet w₁ w₃ := h₂.trans (serves_onInviteServer ..).quiet
  have h₄ : Quiet w₁ w₄ := h₃.trans (serves_onCancelServer ..).quiet
  have h₅ : Quiet w₁ w₅ := h₄.trans (serves_onServer ..).quiet
  have h₆ : Quiet w₁ w₆ := h₅.trans (serves_onAckServer ..).quiet
  have h₇ : Quiet w₁ w₇ := h₆.trans (serves_onServer ..).quiet
  have h₈ : Quiet w₇ { w₇ with dlg := w₇.dlg.forget } := ⟨rfl, List.suffix_refl _⟩
  exact ⟨_, h₇.trans h₈, rfl⟩

theorem turns_terminate (w : World) : ∃ t, Turns S w (.api .terminate) t w.terminate := by
  by_cases hclose : w.status = .close
  · have hstay : w.terminate = w := by
      unfold terminate
      rw [if_pos hclose]
    rw [hstay]
    exact ⟨_, turns_stays (.refl w)⟩
  · obtain ⟨w₁, hquiet, heq⟩ := quiet_terminate hclose
    have hmoves := moves_changeStatus w .close
    refine ⟨.terminates, ?_, ?_, by simp, by simp, fun _ => rfl⟩
    · rw [heq, phase_closed, hquiet.phase, hmoves.phase_eq]
      exact .terminates hclose
    · rw [heq]
      exact (hmoves.suffix.trans hquiet.log).trans (List.suffix_cons ..)

/-- A request that the user sends after a change of state. -/
theorem phase_changed {w w₁ w' : World} {s : Status} (h : Quiet w w₁)
    (h' : Quiet (w₁.changeStatus s) w') : w'.phase = { w.phase with status := s } := by
  rw [h'.phase, (moves_changeStatus w₁ s).phase_eq, h.phase]
  rfl

theorem suffix_changed {w w₁ w' : World} {s : Status} (h : Quiet w w₁)
    (h' : Quiet (w₁.changeStatus s) w') : w.log <:+ w'.log :=
  (h.log.trans (moves_changeStatus w₁ s).suffix).trans h'.log

/-- A call of the user. -/
theorem turns_called {w w' : World} {a : Api}
    (hreq : w.status.IsInvited → w.dlg.inviteReq.isSome) (h : Called S w a w') :
    ∃ t, Turns S w (.api a) t w' := by
  cases h with
  | serves h => exact ⟨_, turns_stays h.quiet⟩
  | listens hw h hstatus =>
    refine ⟨.listens, .of_step ?_ h.suffix⟩
    rw [h.phase_eq, hstatus]
    exact .listens hw
  | withoutOffer h => exact ⟨_, turns_stays ((quiet_withoutOffer w).trans h.quiet)⟩
  | invites hw h =>
    have hquiet := quiet_of_serves_or h
    exact ⟨.invites, .of_step (phase_changed hquiet (quiet_sendInvite ..) ▸ .invites hw)
      (suffix_changed hquiet (quiet_sendInvite ..))⟩
  | reInvites hw h =>
    have hquiet := quiet_of_serves_or h
    exact ⟨.reInvites, .of_step (phase_changed hquiet (quiet_sendInvite ..) ▸ .reInvites hw)
      (suffix_changed hquiet (quiet_sendInvite ..))⟩
  | answers h => exact turns_answers hreq h
  | confirms h => exact ⟨_, turns_stays (h.quiet.trans (quiet_confirm2xx ..))⟩
  | confirmsWith => exact ⟨_, turns_stays (quiet_confirm2xx ..)⟩
  | pracks h => exact ⟨_, turns_stays (h.quiet.trans (quiet_startClient ..))⟩
  | byes hw h =>
    exact ⟨.byes, .of_step (phase_changed h.quiet (quiet_startClient ..) ▸ .byes hw)
      (suffix_changed h.quiet (quiet_startClient ..))⟩
  | cancels => exact ⟨_, turns_stays (quiet_startClient ..)⟩
  | abandons => exact ⟨_, turns_stays (quiet_onInviteClient ..)⟩
  | requests h => exact ⟨_, turns_stays (h.quiet.trans (quiet_startClient ..))⟩
  | terminates => exact turns_terminate w

/-- The top of the stack is taken away. -/
theorem phase_pop {w : World} {f : Frame} {rest : List Frame} (hstack : w.stack = f :: rest) :
    w.phase.pending = (f.pending?).toList ++ rest.filterMap Frame.pending? := by
  simp only [phase, hstack, List.filterMap_cons]
  cases f.pending? <;> rfl

theorem quiet_pop {w : World} {f : Frame} {rest : List Frame} (hstack : w.stack = f :: rest)
    (hf : f.pending? = none) : Quiet w { w with stack := rest } := by
  refine ⟨?_, List.suffix_refl _⟩
  simp only [phase, hstack, List.filterMap_cons, hf]

/-- Code that goes on, other than server work. -/
theorem turns_resume {w : World} {e : Event} {c : Rest} {rest : List Frame}
    (hstack : w.stack = .code c :: rest) (hc : ¬ c.IsServing) :
    ∃ t, Turns S w e t ({ w with stack := rest }.resume c) := by
  set w₁ : World := { w with stack := rest }
  have hquiet (h : Frame.pending? (.code c) = none) : Quiet w w₁ := quiet_pop hstack h
  have hpending := phase_pop hstack
  cases c with
  | inviteClient r k => exact ⟨_, turns_stays ((hquiet rfl).trans (quiet_onInviteClient ..))⟩
  | client r k => exact ⟨_, turns_stays ((hquiet rfl).trans (quiet_onClient ..))⟩
  | inviteServer r k => exact absurd trivial hc
  | sessionTimers m => exact absurd trivial hc
  | afterPrack => exact absurd trivial hc
  | afterResponderTimeout => exact absurd trivial hc
  | fireDlgCall => exact ⟨.reportsCall, .of_step (.reportsCall _ hpending) (List.suffix_cons ..)⟩
  | fireDlgClosed =>
    exact ⟨.reportsClosed, .of_step (.reportsClosed _ hpending) (List.suffix_cons ..)⟩
  | closeAfterBye =>
    have hmoves := moves_changeStatus w₁ .close
    refine ⟨.closesAfterBye, .of_step ?_ (hmoves.suffix.trans (List.suffix_cons ..))⟩
    have hphase : (w₁.resume .closeAfterBye).phase =
        { status := .close
          pending := rest.filterMap Frame.pending?
          reported := .onDlgClosed :: w.phase.reported } := by
      show ((w₁.changeStatus .close).fire .onDlgClosed).phase = _
      rw [phase_closed, hmoves.phase_eq]
      rfl
    rw [hphase]
    exact .closesAfterBye _ hpending

/-- A message that is found to be for the dialog finds it open. -/
theorem Sound.open_of_getListener {w : World} (h : Sound w) {m : SipMessage}
    (hl : w.provider.getListener m = some .dialog) : w.status ≠ .close :=
  h.registered.open_of_getListener hl

theorem pending_serving {c : Rest} (hc : c.IsServing) : Frame.pending? (.code c) = none := by
  cases c <;> first | rfl | exact absurd hc id

theorem turns_happens {w w' : World} {e : Event} (h : Sound w) (he : Happens S w e w') :
    ∃ t, Turns S w e t w' := by
  cases he with
  | serves hs => exact ⟨_, turns_stays hs.quiet⟩
  | returns hstack => exact ⟨_, turns_stays (quiet_pop hstack rfl)⟩
  | @receives m w' hidle hl hr =>
    have hopen := h.open_of_getListener hl
    have hreceived : Quiet w (w.observe (.received .dialog m)) := (serves_received ..).quiet
    obtain ⟨t, ht⟩ := turns_receives (e := .recv m) (show (w.observe _).status ≠ .close from hopen)
      hidle
      (fun hm hfresh hlong => ⟨hidle, hl, hm, hfresh, hlong⟩) hr
    exact ⟨t, hreceived.phase ▸ ht.phase, hreceived.log.trans ht.log, ht.invited, ht.answer,
      ht.terminates⟩
  | inviteClient _ h₁ => exact ⟨_, turns_stays (h₁.quiet.trans (quiet_putInviteClient ..))⟩
  | @inviteClientCalls _ w₁ _ r t o c _ h₁ _ hget hdid hc hm hn =>
    have hquiet := h₁.quiet.trans (quiet_putInviteClient w₁ r o)
    have hput := (quiet_putInviteClient w₁ r o).log
    have hanswer : ∀ m, c = .onTransSuccessResponse m →
        o.self.request.getTransactionMethod = .invite → 200 ≤ m.code ∧ m.code < 300 →
        Answered (w₁.putInviteClient r o).log := by
      rintro m rfl - hcode
      exact ⟨_, hput.mem (hm m rfl).2.2, (SipMessage.is2xx_iff m).mpr hcode⟩
    obtain ⟨t, hnot, ht⟩ := turns_notifies (e := e) hanswer hn
    exact ⟨t, ht.after hquiet hnot⟩
  | client _ h₁ => exact ⟨_, turns_stays (h₁.quiet.trans (quiet_putClient ..))⟩
  | @clientCalls _ w₁ _ r t o c _ h₁ hget hdid hc hn =>
    have hquiet := h₁.quiet.trans (quiet_putClient w₁ r o)
    have hmethod := (h.of_serves h₁).method_ne_invite hget hdid hc
    obtain ⟨t, hnot, ht⟩ := turns_notifies (e := e) (fun m _ hm => absurd hm hmethod) hn
    exact ⟨t, ht.after hquiet hnot⟩
  | served _ hs => exact turns_served hs
  | called _ hc => exact turns_called h.invited hc
  | resumes hstack hc => exact turns_resume hstack hc
  | goesOn hstack hc hs =>
    exact ⟨_, turns_stays ((quiet_pop hstack (pending_serving hc)).trans hs.quiet)⟩

/-- **The refinement**: every event of a sound dialog is one move. -/
theorem turns_step (hS : S.extended = false) {w : World} (h : Sound w) (e : Event) :
    ∃ t, Turns S w e t (w.step S e) :=
  turns_happens h (happens_step hS w e)

/-- A message that comes to a dialog in D_INIT does nothing, or is let in. -/
theorem phase_of_receives_init {w w' : World} {m : SipMessage}
    (hw : w.phase = ⟨.init, [], []⟩) (h : Receives S w m w') :
    ∃ s, (s = .init ∨ s = .invited ∨ s = .refused) ∧ w'.phase = ⟨s, [], []⟩ := by
  have hinit : w.status = .init := congrArg Phase.status hw
  have hnot {P : Prop} {s : Status} (hs : w.status = s) (hne : s ≠ .init) : P :=
    absurd (hs.symm.trans hinit) hne
  cases h with
  | serves h => exact ⟨.init, .inl rfl, h.quiet.phase.trans hw⟩
  | invite _ _ _ hmoves _ hfirst =>
    exact ⟨_, .inr (hfirst hinit), hmoves.phase_eq.trans (by rw [hw])⟩
  | ack hw => exact hw.elim (hnot · (by decide)) (hnot · (by decide))
  | bye hw => exact hw.elim (hnot · (by decide)) (hnot · (by decide))
  | late _ hw => exact hnot hw (by decide)

/-- A dialog that was just made is in D_INIT, or has let an INVITE in. -/
theorem Start.phase_eq (hS : S.extended = false) {w : World} (h : Start S w) :
    ∃ s, (s = .init ∨ s = .invited ∨ s = .refused) ∧ w.phase = ⟨s, [], []⟩ := by
  cases h with
  | init => exact ⟨.init, .inl rfl, rfl⟩
  | ofInvite invite => exact phase_of_receives_init rfl (receives_onReceivedMessage hS ..)

end World
end SoftPhone
