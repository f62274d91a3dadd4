import SoftPhone.Dialog.Frame

/-!
# What each handler can do

One statement for each handler of `InviteDialog`: it does server work only, or it is
one of the few moves named here, with the guard the source checks before it.  The
proofs about the dialog start from these statements and do not open the handlers
again.

`ExtendedInviteDialog` is left out: the hypothesis is `S.extended = false`.
-/

namespace SoftPhone
namespace World

variable {S : SipStack}

/-! ## `respond` -/

/-- A final response to the pending INVITE was passed to `respond`. -/
structure Answers (w : World) (resp : SipMessage) (w' : World) : Prop where
  invited : w.status.IsInvited
  moves : Moves w w'
  accepted : 200 ≤ resp.code ∧ resp.code < 300 →
    w'.status = if w.status = .invited then .accepted else .reAccepted
  refused : ¬ (200 ≤ resp.code ∧ resp.code < 300) →
    w'.status = if w.status = .invited then .refused else .reRefused
  /-- An accepted INVITE is answered by an `AckTransactionServer`. -/
  sent : 200 ≤ resp.code ∧ resp.code < 300 → w.dlg.inviteReq.isSome →
    ∃ r m, Obs.sent (.ackServer r) m ∈ w'.log ∧ m.Is2xx

theorem Answers.of_serves {w w₁ w' : World} {resp : SipMessage} (h : Serves w w₁)
    (ha : Answers w₁ resp w') : Answers w resp w' where
  invited := h.status ▸ ha.invited
  moves := h.toMoves.trans ha.moves
  accepted := fun hcode => h.status ▸ ha.accepted hcode
  refused := fun hcode => h.status ▸ ha.refused hcode
  sent := fun hcode hreq => ha.sent hcode (h.inviteReq hreq)

/-- The codes that matter are those of the response that was passed. -/
theorem code_sessionTimers (info : DialogInfo) (invite resp : SipMessage) :
    (sessionTimers S info invite resp).2.code = resp.code := by
  have hadd : (resp.addRequired otagTimer).code = resp.code := by
    unfold SipMessage.addRequired
    split <;> rfl
  unfold sessionTimers
  split
  · exact hadd
  · split
    · split
      · exact hadd
      · rfl
    · rfl

theorem code_addSupported (w : World) (resp : SipMessage) :
    (w.addSupported resp).code = resp.code := by
  unfold addSupported
  split <;> rfl

theorem serves_startDialogAckServer (w : World) (conn : Option ConnectionId)
    (invite : SipMessage) (p : DialogInfo × SipMessage) :
    Serves w (w.startDialogAckServer conn invite p) := by
  have hdlg : Serves w { w with dlg.info := p.1, dlg.ackTs := some w.ackServers.next } :=
    serves_of_dlg rfl rfl rfl rfl rfl rfl
  exact hdlg.trans (serves_startAckServer ..)

theorem sent_startDialogAckServer (w : World) (conn : Option ConnectionId)
    (invite : SipMessage) (p : DialogInfo × SipMessage) :
    Obs.sent (.ackServer w.ackServers.next) { p.2 with connectionId := conn } ∈
      (w.startDialogAckServer conn invite p).log := by
  simp only [log, startDialogAckServer, startAckServer, SipProvider.log_calls, List.mem_append,
    SipProvider.mem_sents]
  exact .inl ⟨_, by simp [AckTransactionServer.respond, AckTransactionServer.new], rfl⟩

theorem answers_respondSuccess {w : World} (hw : w.status.IsInvited) {resp : SipMessage}
    (hcode : 200 ≤ resp.code ∧ resp.code < 300) : Answers w resp (w.respondSuccess S resp) := by
  have hmoves : Moves w (w.changeStatus (if w.status = .invited then .accepted else .reAccepted)) :=
    moves_changeStatus ..
  unfold respondSuccess
  extract_lets w₁ conn w₂
  have hterm : Serves (w₁.onInviteServer w₁.dlg.inviteTs (·.terminate)) w₂ :=
    serves_of_dlg rfl rfl rfl rfl rfl rfl
  have h₂ : Serves w₁ w₂ := (serves_onInviteServer ..).trans hterm
  split
  · next hnone =>
    refine ⟨hw, hmoves.trans h₂.toMoves, fun _ => h₂.status, fun h => absurd hcode h,
      fun _ hreq => ?_⟩
    have hsome := h₂.inviteReq (hmoves.inviteReq hreq)
    rw [hnone] at hsome
    cases hsome
  · next invite _ =>
    have h₃ := h₂.trans (serves_startDialogAckServer w₂ conn invite
      (sessionTimers S w₂.dlg.info invite resp))
    refine ⟨hw, hmoves.trans h₃.toMoves, fun _ => h₃.status, fun h => absurd hcode h,
      fun _ _ => ⟨_, _, sent_startDialogAckServer .., ?_⟩⟩
    rw [SipMessage.is2xx_iff]
    exact (code_sessionTimers (S := S) w₂.dlg.info invite resp).symm ▸ hcode

theorem answers_respondFailure {w : World} (hw : w.status.IsInvited) {resp : SipMessage}
    (hcode : ¬ (200 ≤ resp.code ∧ resp.code < 300)) : Answers w resp (w.respondFailure resp) := by
  unfold respondFailure
  set s : Status := if w.status = .invited then .refused else .reRefused
  have hmoves : Moves w (w.changeStatus s) := moves_changeStatus w s
  have hserves : Serves (w.changeStatus s)
      ((w.changeStatus s).onInviteServer w.dlg.inviteTs (·.respondWith resp)) :=
    serves_onInviteServer ..
  exact ⟨hw, hmoves.trans hserves.toMoves, fun h => absurd h hcode, fun _ => hserves.status,
    fun h => absurd h hcode⟩

/-- A response to the INVITE: a provisional one is server work, a final one moves the
dialog, and outside (re)invited states there is no response. -/
theorem respondInvite_cases (w : World) (resp : SipMessage) :
    Serves w (w.respondInvite S resp) ∨ Answers w resp (w.respondInvite S resp) := by
  unfold respondInvite
  split
  · next hw =>
    extract_lets resp₁ w₁
    have hupdate : Serves w w₁ := by
      unfold w₁
      split
      · exact serves_updateDialogInfo ..
      · exact .refl w
    have hw₁ : w₁.status.IsInvited := hupdate.status ▸ hw
    split
    · exact .inl (serves_respondProvisional ..)
    · split
      · next hcode =>
        have hcode' : 200 ≤ (w₁.addSupported resp₁).code ∧ (w₁.addSupported resp₁).code < 300 := by
          rw [code_addSupported]
          exact hcode
        have h := answers_respondSuccess (S := S) hw₁ hcode'
        exact .inr (.of_serves hupdate ⟨hw₁, h.moves, fun _ => h.accepted hcode',
          fun hn => absurd hcode hn, fun _ => h.sent hcode'⟩)
      · next hcode =>
        have h := answers_respondFailure hw₁ hcode
        exact .inr (.of_serves hupdate ⟨hw₁, h.moves, h.accepted, h.refused, h.sent⟩)
  · exact .inl (.refl w)

/-- A response that is not for the INVITE, or comes in another state, is server
work. -/
theorem respond_serves {w : World} {resp : SipMessage} (hS : S.extended = false)
    (h : resp.getTransactionMethod ≠ .invite ∨ ¬ w.status.IsInvited) :
    Serves w (w.respond S resp) := by
  simp only [respond, hS, Bool.false_eq_true, false_and, if_false]
  unfold inviteDialogRespond
  split
  · next hm =>
    unfold respondInvite
    rw [if_neg (h.resolve_left fun hne => hne hm)]
    exact .refl w
  · split
    · exact (serves_updateDialogInfo w false resp).trans (serves_onServer ..)
    · exact .refl w
  · split
    · exact serves_onServer ..
    · exact .refl w
  · exact .refl w

theorem respond_cases (hS : S.extended = false) (w : World) (resp : SipMessage) :
    Serves w (w.respond S resp) ∨ Answers w resp (w.respond S resp) := by
  by_cases hm : resp.getTransactionMethod = .invite
  · simp only [respond, hS, Bool.false_eq_true, false_and, if_false, inviteDialogRespond, hm]
    exact respondInvite_cases w resp
  · exact .inl (respond_serves hS (.inl hm))

/-! ## `onReceivedMessage` -/

/-- What `onReceivedMessage` can do with a message. -/
inductive Receives (S : SipStack) (w : World) (m : SipMessage) : World → Prop where
  | serves {w' : World} (h : Serves w w') : Receives S w m w'
  /-- An INVITE is accepted in any state. -/
  | invite {w' : World} (hm : m.requestMethod = some .invite) (hfresh : w.tooLate m = false)
      (hlong : sessionTooShort S m = false) (hmoves : Moves w w')
      (hsome : w'.dlg.inviteReq.isSome)
      (hfirst : w.status = .init → w'.status = .invited ∨ w'.status = .refused)
      (hagain : w.status ≠ .init → w'.status = .reInvited ∨ w'.status = .reRefused) :
      Receives S w m w'
  | ack {w₁ : World} (hw : w.status.IsAccepted) (hmoves : Moves w w₁)
      (hstatus : w₁.status = .call) :
      Receives S w m ((w₁.suspend .fireDlgCall).fire (.onDlgAck m))
  | bye {w₁ : World} (hw : w.status = .call ∨ w.status = .byeing) (hmoves : Moves w w₁)
      (hstatus : w₁.status = .byed) :
      Receives S w m ((w₁.suspend .closeAfterBye).fire (.onDlgBye m))
  /-- A late response makes the dialog send its last ACK again. -/
  | late {ack : SipMessage} (hm : m.requestMethod = none) (hw : w.status = .call)
      (hack : w.dlg.ackReq = some ack) : Receives S w m (w.startAckClient ack)

theorem code_processInviteMessage {w : World} {m resp : SipMessage}
    (h : w.processInviteMessage S m = some resp) : resp.code = 420 := by
  unfold processInviteMessage at h
  split at h
  · cases h
  · dsimp only at h
    split at h
    · cases h
    · rw [← Option.some.inj h]
      rfl

theorem receives_invite (hS : S.extended = false) {w : World} {m : SipMessage}
    (hm : m.requestMethod = some .invite) (hfresh : w.tooLate m = false)
    (hlong : sessionTooShort S m = false) : Receives S w m (w.onReceivedInvite S m) := by
  unfold onReceivedInvite
  extract_lets r w₁ w₂ w₃ w₄ w₅
  have h₂ : Moves w w₂ := (serves_processed w m).toMoves.trans (moves_changeStatus ..)
  have h₃ : Serves w₂ w₃ := (serves_setInviteReq ..).trans (serves_updateDialogInfo ..)
  have h₄ : Serves w₂ w₄ :=
    (h₃.trans (serves_setInviteTs ..)).trans (serves_startInviteServer S _ m)
  have hmoves : Moves w w₄ := h₂.trans h₄.toMoves
  have hsome : w₄.dlg.inviteReq.isSome := rfl
  have hstatus : w₄.status = if w.status = .init then .invited else .reInvited := h₄.status
  split
  · next resp hresp =>
    have hcode : ¬ (200 ≤ resp.code ∧ resp.code < 300) := by
      rw [code_processInviteMessage hresp]
      decide
    rcases respond_cases hS w₄ resp with h | h
    · refine .invite hm hfresh hlong (hmoves.trans h.toMoves) (h.inviteReq hsome) ?_ ?_
      · intro hinit
        left
        rw [h.status, hstatus, if_pos hinit]
      · intro hinit
        left
        rw [h.status, hstatus, if_neg hinit]
    · have hrefused := h.refused hcode
      refine .invite hm hfresh hlong (hmoves.trans h.moves) (h.moves.inviteReq hsome) ?_ ?_
      · intro hinit
        right
        rw [hrefused, hstatus, if_pos hinit, if_pos rfl]
      · intro hinit
        right
        rw [hrefused, hstatus, if_neg hinit, if_neg (by decide)]
  · have h₅ : Serves w₄ w₅ := (serves_setCancelTs ..).trans (serves_startCancelServer ..)
    have hfire : Serves w₄ (if w₅.status = .invited then w₅.fire (.onDlgInvite m)
        else w₅.fire (.onDlgReInvite m)) := by
      split
      · exact h₅.trans (serves_fire _ trivial)
      · exact h₅.trans (serves_fire _ trivial)
    refine .invite hm hfresh hlong (hmoves.trans hfire.toMoves) (hfire.inviteReq hsome) ?_ ?_
    · intro hinit
      left
      rw [hfire.status, hstatus, if_pos hinit]
    · intro hinit
      left
      rw [hfire.status, hstatus, if_neg hinit]

theorem receives_ack (w : World) (m : SipMessage) : Receives S w m (w.onReceivedAck m) := by
  unfold onReceivedAck
  split
  · next hw =>
    extract_lets w₁ w₂ w₃
    have h₃ : Serves w₁ w₃ := (serves_onAckServer ..).trans (serves_onCancelServer ..)
    exact .ack hw ((moves_changeStatus w .call).trans h₃.toMoves) h₃.status
  · exact .serves (.refl w)

theorem receives_bye (hS : S.extended = false) (w : World) (m : SipMessage) :
    Receives S w m (w.onReceivedBye S m) := by
  unfold onReceivedBye
  split
  · next hw =>
    extract_lets w₁ w₂ w₃
    have h₁ : Moves w w₁ := (serves_processed w m).toMoves.trans (moves_changeStatus ..)
    have h₂ : Serves w₁ w₂ := (serves_setByeTs ..).trans (serves_startServer ..)
    have hbyed : w₂.status = .byed := h₂.status
    have h₃ : Serves w₂ w₃ := respond_serves hS (.inr (by rw [hbyed]; decide))
    exact .bye hw (h₁.trans (h₂.trans h₃).toMoves) (h₃.status.trans hbyed)
  · exact .serves (.refl w)

theorem serves_onReceivedInfo (w : World) (m : SipMessage) :
    Serves w (w.onReceivedInfo S m) := by
  have h : Serves w ((w.observe (.processed m)).answer m (createResponse S m 200 none)) :=
    (serves_processed w m).trans (serves_answer ..)
  unfold onReceivedInfo
  dsimp only
  split
  · exact h.trans (serves_fire _ trivial)
  · exact h

theorem serves_onReceivedUpdate (w : World) (m : SipMessage) :
    Serves w (w.onReceivedUpdate m) := by
  unfold onReceivedUpdate
  extract_lets w₁
  have h₁ : Serves w w₁ := (serves_processed w m).trans (serves_updateDialogInfo ..)
  exact ((h₁.trans (serves_setUpdateTs ..)).trans (serves_startServer ..)).trans (serves_fire _ trivial)

theorem serves_processPrack (w : World) (prack : SipMessage) :
    Serves w (w.processPrack S prack) := by
  unfold processPrack
  split
  · exact .refl w
  · next rr _ =>
    split
    · exact .refl w
    · next resp rest _ =>
      split
      · extract_lets w₁ w₂ w₃
        have h₂ : Serves w₁ w₂ := serves_setResponder ..
        have h₃ : Serves w w₃ := ((serves_processed w prack).trans h₂).trans (serves_answer ..)
        split
        · have hsuspend : Serves w₃ (w₃.suspend .afterPrack) := serves_suspend _ trivial
          exact (h₃.trans hsuspend).trans (serves_fire _ trivial)
        · exact h₃.trans (serves_afterPrack w₃)
      · exact .refl w

theorem receives_onReceivedMessage (hS : S.extended = false) (w : World) (m : SipMessage) :
    Receives S w m (w.onReceivedMessage S m) := by
  have hbasic : w.onReceivedMessage S m = w.inviteDialogOnReceivedMessage S m := by
    simp [onReceivedMessage, hS]
  rw [hbasic, inviteDialogOnReceivedMessage]
  split
  · unfold onReceivedRequest
    split
    · exact .serves (.refl w)
    · next hfresh =>
      split
      · exact .serves (serves_answer ..)
      · next hlong =>
        split
        · next hm => exact receives_invite hS hm (by simpa using hfresh) (by simpa using hlong)
        · exact receives_ack w m
        · exact receives_bye hS w m
        · exact .serves (serves_onReceivedInfo w m)
        · exact .serves (serves_processPrack w m)
        · exact .serves (serves_onReceivedUpdate w m)
        · exact .serves (serves_answer ..)
  · next hm =>
    have hnone : m.requestMethod = none := by simpa [SipMessage.isRequest] using hm
    unfold onReceivedResponse
    split
    · next hw =>
      split
      · exact .serves (.refl w)
      · next hack => exact .late hnone hw hack
    · exact .serves (.refl w)

end World
end SoftPhone
