import SoftPhone.Dialog.Updates
import SoftPhone.Transaction.Alone

/-!
# Every event is a chain of pieces

The handlers are walked through once: each is a chain of steady work, changes of the state, and
updates with the messages that its list names.

A closed dialog that receives an INVITE would leave its state, because the state is only verified
there.  The provider never passes a message to a closed dialog, though (`Registered`), so what is
shown of a message for the dialog is shown for an open one.
-/

namespace SoftPhone

open Machine

namespace World

variable {S : SipStack} {U : List (Bool × SipMessage)}

/-! ## Responses -/

theorem steady_setResponder (w : World) (rr : ReliableProvisionalResponder) :
    Steady w (w.setResponder rr) :=
  steady_of_dlg rfl rfl rfl

theorem steady_respondWith (w : World) (r : Option ℕ) (resp : SipMessage) :
    Steady w (w.onInviteServer r (·.respondWith resp)) :=
  steady_onInviteServer _ _ fun t => t.stands_respondWith resp

theorem steady_serverRespondWith (w : World) (r : Option ℕ) (resp : SipMessage) :
    Steady w (w.onServer r (·.respondWith resp)) :=
  steady_onServer _ _ fun t => t.stands_respondWith resp

theorem steady_sendNextResponse (w : World) : Steady w w.sendNextResponse := by
  unfold sendNextResponse
  split
  · exact .refl w
  · split
    · exact .refl w
    · exact (steady_setResponder ..).trans (steady_respondWith ..)

theorem steady_respondReliably (w : World) (resp : SipMessage) :
    Steady w (w.respondReliably resp) := by
  unfold respondReliably
  split
  · exact .refl w
  · dsimp only
    split
    · exact (steady_setResponder ..).trans (steady_sendNextResponse _)
    · exact steady_setResponder ..

theorem steady_afterPrack (w : World) : Steady w w.afterPrack := by
  unfold afterPrack
  split
  · exact .refl w
  · split
    · exact steady_sendNextResponse w
    · exact .refl w

theorem steady_processPrack (w : World) (prack : SipMessage) :
    Steady w (w.processPrack S prack) := by
  unfold processPrack
  split
  · exact .refl w
  · next rr hrr =>
    split
    · exact .refl w
    · next resp rest hresponses =>
      split
      · have hanswer (rr : ReliableProvisionalResponder) : Steady w
            (((w.observe (.processed prack)).setResponder rr).answer prack
              (createResponse S prack 200 none)) :=
          ((steady_observe ..).trans (steady_setResponder ..)).trans (steady_answer ..)
        dsimp only
        split
        · exact (hanswer _).trans ((steady_suspend ..).trans (steady_fire ..))
        · exact (hanswer _).trans (steady_afterPrack _)
      · exact .refl w

theorem steady_processTimeout (w : World) (n : TimerName) : Steady w (w.processTimeout n) := by
  unfold processTimeout
  split
  · exact .refl w
  · next rr hrr =>
    dsimp only
    split
    · split
      · split
        · exact steady_setResponder ..
        · exact (steady_setResponder ..).trans (steady_respondWith ..)
      · exact .refl w
    · split
      · split
        · exact steady_setResponder ..
        · split
          · exact (steady_setResponder ..).trans ((steady_suspend ..).trans (steady_fire ..))
          · exact (steady_setResponder ..).trans (steady_sendNextResponse _)
      · exact .refl w
    · exact .refl w

/-- The dialog is updated with a final response to an INVITE, and with a provisional one where
early dialogs are on. -/
theorem mem_responseUpdates {s : Status} {resp : SipMessage}
    (hmethod : resp.getTransactionMethod = .invite) (hs : s.IsInvited)
    (hcode : 200 ≤ resp.code ∨ 100 ≤ resp.code ∧ S.earlyDialog = true) :
    (false, resp) ∈ responseUpdates S s resp := by
  unfold responseUpdates
  rw [hmethod]
  cases S.extended <;> simp [hs, hcode]

theorem shifted_respondProvisional (w : World) {resp : SipMessage}
    (hresp : S.earlyDialog = true → Shifted U w (w.updateDialogInfo false resp)) :
    Shifted U w (w.respondProvisional S resp) := by
  unfold respondProvisional
  extract_lets w₁
  have hupdate : Shifted U w w₁ := by
    show Shifted U w (if S.earlyDialog then w.updateDialogInfo false resp else w)
    split
    · next hS => exact hresp hS
    · exact .refl
  split
  · exact hupdate.trans (shifted_of_steady (steady_respondReliably ..))
  · exact hupdate.trans (shifted_of_steady (steady_respondWith ..))

theorem steady_terminateInviteServer (w : World) (r : Option ℕ) :
    Steady w (w.onInviteServer r (·.terminate)) :=
  steady_onInviteServer _ _ fun t => t.stands_doTerminate

theorem sessionTimers_identity (info : DialogInfo) (invite resp : SipMessage) :
    (sessionTimers S info invite resp).1.identity = info.identity := by
  unfold sessionTimers
  split
  · rfl
  · split <;> rfl

theorem shifted_respondSuccess (w : World) (hw : w.status.IsInvited) (resp : SipMessage) :
    Shifted U w (w.respondSuccess S resp) := by
  have hchanges : Shifted U w
      (w.changeStatus (if w.status = .invited then .accepted else .reAccepted)) :=
    .single (.changes (by rcases hw with h | h <;> rw [h] <;> decide))
  unfold respondSuccess
  extract_lets w₁ conn w₂
  have hterminate : Shifted U w w₂ := hchanges.trans (shifted_of_steady
    ((steady_terminateInviteServer ..).trans (steady_of_dlg rfl rfl rfl)))
  split
  · exact hterminate
  · refine hterminate.trans (shifted_of_steady (.trans ?_ (steady_startAckServer ..)))
    exact steady_of_dlg rfl (sessionTimers_identity ..) rfl

theorem shifted_respondFailure (w : World) (hw : w.status.IsInvited) (resp : SipMessage) :
    Shifted U w (w.respondFailure resp) :=
  shifted_changes (by rcases hw with h | h <;> rw [h] <;> decide) (steady_respondWith ..)

theorem shifted_respondInvite (w : World) {resp : SipMessage}
    (hmethod : resp.getTransactionMethod = .invite) :
    Shifted (responseUpdates S w.status resp) w (w.respondInvite S resp) := by
  unfold respondInvite
  split
  · next hw =>
    extract_lets resp' w'
    split
    · next hcode =>
      exact shifted_respondProvisional w fun hS =>
        shifted_updates (m := resp) (mem_responseUpdates hmethod hw (.inr ⟨hcode.1, hS⟩))
    · have hupdate : Shifted (responseUpdates S w.status resp) w w' := by
        show Shifted _ w (if 200 ≤ resp'.code then _ else _)
        split
        · next hcode => exact shifted_updates (m := resp) (mem_responseUpdates hmethod hw (.inl hcode))
        · exact .refl
      have hw' : w'.status.IsInvited := by
        show (if 200 ≤ resp'.code then w.updateDialogInfo false resp' else w).status.IsInvited
        split <;> exact hw
      split
      · exact hupdate.trans (shifted_respondSuccess w' hw' _)
      · exact hupdate.trans (shifted_respondFailure w' hw' _)
  · exact .refl

theorem shifted_respond (w : World) (resp : SipMessage) :
    Shifted (responseUpdates S w.status resp) w (w.respond S resp) := by
  unfold respond
  dsimp only
  split
  · exact shifted_of_steady (steady_serverRespondWith ..)
  · next hbasic =>
    unfold inviteDialogRespond
    split
    · next hmethod => exact shifted_respondInvite w hmethod
    · next hmethod =>
      have hS : S.extended = false := by
        by_contra hS
        exact hbasic ⟨by simpa using hS, by simp [hmethod]⟩
      split
      · next hs =>
        have hmem : (false, resp) ∈ responseUpdates S w.status resp := by
          unfold responseUpdates
          rw [hmethod, hS]
          simp [hs]
        exact (shifted_updates hmem).trans (shifted_of_steady (steady_serverRespondWith ..))
      · exact .refl
    · split
      · exact shifted_of_steady (steady_serverRespondWith ..)
      · exact .refl
    · exact .refl

/-! ## Requests from the peer -/

theorem steady_setInviteReq (w : World) (m : SipMessage) : Steady w (w.setInviteReq m) :=
  steady_of_dlg rfl rfl rfl

theorem steady_setInviteTs (w : World) (r : ℕ) : Steady w (w.setInviteTs r) :=
  steady_of_dlg rfl rfl rfl

theorem steady_setCancelTs (w : World) (r : ℕ) : Steady w (w.setCancelTs r) :=
  steady_of_dlg rfl rfl rfl

theorem steady_setByeTs (w : World) (r : ℕ) : Steady w (w.setByeTs r) :=
  steady_of_dlg rfl rfl rfl

theorem steady_setUpdateTs (w : World) (r : ℕ) : Steady w (w.setUpdateTs r) :=
  steady_of_dlg rfl rfl rfl

/-- What is refused depends on the supported extensions only. -/
theorem processInviteMessage_congr {w w' : World}
    (h : w'.dlg.supportedOptionTags = w.dlg.supportedOptionTags) (m : SipMessage) :
    w'.processInviteMessage S m = w.processInviteMessage S m := by
  unfold processInviteMessage InviteDialog.isExtensionSupported
  rw [h]

theorem updates_inviteUpdates (w : World) (s : Status) (m : SipMessage) :
    (false, m) ∈ w.inviteUpdates S s m :=
  List.mem_cons_self

/-- A taken INVITE is refused, or there is steady work. -/
theorem shifted_verdict {w w' : World} {s : Status} {m : SipMessage} (hs : w'.status = s)
    (htags : w'.dlg.supportedOptionTags = w.dlg.supportedOptionTags) {taken : World}
    (htaken : Steady w' taken) :
    Shifted (w.inviteUpdates S s m) w' (match w'.processInviteMessage S m with
      | some resp => w'.respond S resp
      | none => taken) := by
  rw [processInviteMessage_congr htags]
  split
  · next resp hresp =>
    refine (shifted_respond w' resp).mono fun p hp => List.mem_cons_of_mem _ ?_
    rw [hresp, ← hs]
    simpa using hp
  · exact shifted_of_steady htaken

theorem shifted_onReceivedInvite {w : World} (hw : w.status ≠ .close) (m : SipMessage) :
    Shifted (w.inviteUpdates S (if w.status = .init then .invited else .reInvited) m) w
      (w.onReceivedInvite S m) := by
  unfold onReceivedInvite
  extract_lets r w₁ w₂ w₃ w₄ w₅
  have hupdated : Shifted
      (w.inviteUpdates S (if w.status = .init then .invited else .reInvited) m) w w₃ := by
    refine .tail (shifted_of_steady (steady_observe w (.processed m))) (.invites hw ?_ ?_)
    · split <;> decide
    · exact updates_inviteUpdates w _ m
  have hstarted : Steady w₃ w₄ := (steady_setInviteTs w₃ r).trans (steady_startInviteServer ..)
  have hcancel : Steady w₄ w₅ := (steady_setCancelTs w₄ r).trans (steady_startCancelServer ..)
  refine (hupdated.trans (shifted_of_steady hstarted)).trans (shifted_verdict ?_ ?_ ?_)
  · rfl
  · rfl
  split
  · exact hcancel.trans (steady_fire ..)
  · exact hcancel.trans (steady_fire ..)

theorem shifted_onTransRequestInvite (w : World) (m : SipMessage) :
    Shifted (if w.status = .waiting then w.inviteUpdates S .invited m else []) w
      (w.onTransRequestInvite S m) := by
  unfold onTransRequestInvite
  split
  · next hw =>
    extract_lets w₁ w₂
    have hopen : w.status ≠ .close := by
      rw [hw]
      decide
    have hupdated : Shifted (w.inviteUpdates S .invited m) w w₂ :=
      .tail (shifted_of_steady (steady_observe w (.processed m)))
        (.invites hopen (by decide) (updates_inviteUpdates w .invited m))
    exact hupdated.trans (shifted_verdict rfl rfl (steady_fire w₂ _))
  · exact .refl

theorem shifted_onReceivedAck (w : World) (m : SipMessage) : Shifted U w (w.onReceivedAck m) := by
  unfold onReceivedAck
  split
  · next hw =>
    extract_lets w₁ w₂ w₃
    have hcall : Shifted U w w₁ := .single (.changes (by rcases hw with h | h <;> rw [h] <;> decide))
    have hack : Steady w₁ w₂ := steady_onAckServer _ _ fun t => t.stands_doTerminate
    have hcancel : Steady w₂ w₃ := steady_onCancelServer _ _ fun t => t.stands_doTerminate
    exact hcall.trans (shifted_of_steady ((hack.trans hcancel).trans
      ((steady_suspend w₃ _).trans (steady_fire ..))))
  · exact .refl

theorem shifted_onReceivedBye (w : World) (m : SipMessage) :
    Shifted (if w.status = .call ∨ w.status = .byeing then
      responseUpdates S .byed (createResponse S m 200 none) else []) w (w.onReceivedBye S m) := by
  unfold onReceivedBye
  split
  · next hw =>
    extract_lets w₁ w₂ w₃
    have hbyed : Shifted (responseUpdates S .byed (createResponse S m 200 none)) w w₁ :=
      .tail (shifted_of_steady (steady_observe w (.processed m)))
        (.changes (show ¬ Begins w.status .byed by rcases hw with h | h <;> rw [h] <;> decide))
    have hstarted : Steady w₁ w₂ := (steady_setByeTs ..).trans (steady_startServer ..)
    have hresponded : Shifted (responseUpdates S .byed (createResponse S m 200 none)) w₂ w₃ :=
      shifted_respond w₂ (createResponse S m 200 none)
    exact ((hbyed.trans (shifted_of_steady hstarted)).trans hresponded).trans
      (shifted_of_steady ((steady_suspend ..).trans (steady_fire ..)))
  · exact .refl

theorem steady_onReceivedInfo (w : World) (m : SipMessage) :
    Steady w (w.onReceivedInfo S m) := by
  have hanswer : Steady w ((w.observe (.processed m)).answer m (createResponse S m 200 none)) :=
    (steady_observe ..).trans (steady_answer ..)
  unfold onReceivedInfo
  dsimp only
  split
  · exact hanswer.trans (steady_fire ..)
  · exact hanswer

theorem shifted_onReceivedUpdate (w : World) (m : SipMessage) :
    Shifted [(false, m)] w (w.onReceivedUpdate m) := by
  have hupdated : Shifted [(false, m)] w
      ((w.observe (.processed m)).updateDialogInfo false m) :=
    (shifted_of_steady (steady_observe ..)).trans (shifted_updates List.mem_cons_self)
  exact hupdated.trans (shifted_of_steady (((steady_setUpdateTs ..).trans
    (steady_startServer ..)).trans (steady_fire ..)))

theorem shifted_onReceivedRequest {w : World} (hw : w.status ≠ .close) (m : SipMessage) :
    Shifted (w.requestUpdates S m) w (w.onReceivedRequest S m) := by
  unfold onReceivedRequest requestUpdates
  by_cases hlate : w.tooLate m = true
  · rw [if_pos hlate]
  rw [if_neg hlate]
  by_cases hshort : sessionTooShort S m = true
  · rw [if_pos hshort]
    exact shifted_of_steady (steady_answer ..)
  rw [if_neg hshort]
  split
  · next h => simp [hlate, hshort] at h
  · cases hm : m.requestMethod with
    | none => exact shifted_of_steady (steady_answer ..)
    | some method =>
      cases method with
      | invite => exact shifted_onReceivedInvite hw m
      | ack => exact shifted_onReceivedAck w m
      | bye => exact shifted_onReceivedBye w m
      | info => exact shifted_of_steady (steady_onReceivedInfo w m)
      | prack => exact shifted_of_steady (steady_processPrack w m)
      | update => exact shifted_onReceivedUpdate w m
      | _ => exact shifted_of_steady (steady_answer ..)

theorem steady_onReceivedResponse (w : World) : Steady w w.onReceivedResponse := by
  unfold onReceivedResponse
  split
  · split
    · exact .refl w
    · exact steady_startAckClient ..
  · exact .refl w

theorem shifted_onReceivedAltRequest (w : World) (m : SipMessage) :
    Shifted (w.altRequestUpdates S m) w (w.onReceivedAltRequest S m) := by
  unfold onReceivedAltRequest altRequestUpdates
  extract_lets w₁ d w₂ w₃
  have htable : Steady w₁ { w₁ with
      dlg.transactions := Function.update w₁.dlg.transactions (.transactionServer m)
        (some w₁.servers.next) } :=
    steady_of_dlg rfl rfl rfl
  have hstarted : Steady w w₂ :=
    ((steady_observe ..).trans htable).trans (steady_startServer _ m true)
  cases hm : m.requestMethod with
  | none => exact shifted_of_steady (hstarted.trans (steady_fire ..))
  | some method =>
    cases method with
    | refer =>
      rw [if_neg (by decide)]
      dsimp only
      split
      · exact shifted_of_steady (hstarted.trans (steady_fire ..))
      · exact shifted_of_steady hstarted
    | notify =>
      have hresponded : Shifted (responseUpdates S w.status (createResponse S m 200 none)) w w₃ :=
        (shifted_of_steady hstarted).trans (shifted_respond w₂ (createResponse S m 200 none))
      rw [if_pos rfl]
      dsimp only
      split
      · exact hresponded.trans (shifted_of_steady (steady_fire ..))
      · exact hresponded
    | _ => exact shifted_of_steady (hstarted.trans (steady_fire ..))

theorem shifted_onReceivedMessage {w : World} (hw : w.status ≠ .close) (m : SipMessage) :
    Shifted (w.dialogUpdates S m) w (w.onReceivedMessage S m) := by
  have hresponse (hm : m.requestMethod = none) :
      Shifted [] w (w.inviteDialogOnReceivedMessage S m) := by
    unfold inviteDialogOnReceivedMessage
    rw [if_neg (by simp [SipMessage.isRequest, hm])]
    exact shifted_of_steady (steady_onReceivedResponse w)
  have hrequest {method : Method} (hm : m.requestMethod = some method) :
      Shifted (w.requestUpdates S m) w (w.inviteDialogOnReceivedMessage S m) := by
    unfold inviteDialogOnReceivedMessage
    rw [if_pos (by simp [SipMessage.isRequest, hm])]
    exact shifted_onReceivedRequest hw m
  unfold onReceivedMessage dialogUpdates
  cases hm : m.requestMethod with
  | none => cases S.extended <;> exact hresponse hm
  | some method =>
    cases S.extended with
    | false => exact hrequest hm
    | true =>
      dsimp only
      split
      · exact hrequest hm
      · exact shifted_onReceivedAltRequest w m

/-! ## Callbacks of the client transactions -/

theorem steady_confirm1xx (w : World) (prack : SipMessage) : Steady w (w.confirm1xx S prack) := by
  unfold confirm1xx
  split
  · exact steady_startClient ..
  · exact .refl w

theorem steady_onReliableResponse (w : World) (rseq : ℤ) (m : SipMessage) :
    Steady w (w.onReliableResponse S rseq m) := by
  unfold onReliableResponse
  have hseq : Steady w { w with dlg.info.lastRSeq := rseq } := steady_of_dlg rfl rfl rfl
  dsimp only
  split
  · split
    · exact hseq
    · next prack w₂ hcreate =>
      exact (hseq.trans (steady_create (keepsIdentity_createPrackRequest m none none) hcreate)).trans
        ((steady_confirm1xx ..).trans (steady_fire ..))
  · exact hseq.trans (steady_fire ..)

theorem shifted_onTransProvisionalResponse (w : World) (method : Method) (m : SipMessage) :
    Shifted (w.clientUpdates S method (.onTransProvisionalResponse m)) w
      (w.onTransProvisionalResponse S method m) := by
  unfold onTransProvisionalResponse
  split
  · next hmethod =>
    extract_lets w₁
    have hupdated : Shifted (w.clientUpdates S method (.onTransProvisionalResponse m)) w w₁ := by
      show Shifted _ w (if S.earlyDialog then w.updateDialogInfo true m else w)
      split
      · next hS =>
        refine .single (.updates fun hw => ?_)
        unfold clientUpdates
        dsimp only
        rw [if_pos ⟨hmethod, hS, hw⟩]
        exact List.mem_cons_self
      · exact .refl
    split
    · split
      · exact hupdated.trans (shifted_of_steady (steady_onReliableResponse ..))
      · exact hupdated
    · exact hupdated.trans (shifted_of_steady (steady_fire ..))
  · exact .refl

/-- A state that is given changes, and the listener is called. -/
theorem shifted_fire {w : World} {s s' : Status} (hw : w.status = s) (hs : ¬ Begins s s')
    (c : DialogCallback) : Shifted U w ((w.changeStatus s').fire c) :=
  shifted_changes (hw ▸ hs) (steady_fire ..)

/-- Any dialog may be closed. -/
theorem not_begins_close (s : Status) : ¬ Begins s .close := by
  rintro (⟨-, h⟩ | ⟨-, -, h⟩) <;> exact h rfl

/-- The dialog is closed, and the listener is told so after another callback. -/
theorem shifted_close (w : World) (rest : Rest) (c : DialogCallback) :
    Shifted U w (((w.changeStatus .close).suspend rest).fire c) :=
  shifted_changes (not_begins_close _) ((steady_suspend ..).trans (steady_fire ..))

theorem shifted_onInviteFailureResponse (w : World) (m : SipMessage) :
    Shifted U w (w.onInviteFailureResponse m) := by
  unfold onInviteFailureResponse
  split
  · next hw => exact shifted_fire hw (by decide) _
  · split
    · exact shifted_close ..
    · exact .refl

theorem shifted_inviteDialogOnTransFailureResponse (w : World) (method : Method) (m : SipMessage) :
    Shifted U w (w.inviteDialogOnTransFailureResponse method m) := by
  unfold inviteDialogOnTransFailureResponse
  split
  · exact shifted_onInviteFailureResponse w m
  · split
    · exact shifted_of_steady (steady_fire ..)
    · exact .refl
  · split
    · next hw => exact shifted_fire hw (by decide) _
    · exact .refl
  · exact .refl

theorem steady_sendAck (w : World) (ack : SipMessage) : Steady w (w.sendAck ack) := by
  have hack : Steady w { w with dlg.ackReq := some ack } := steady_of_dlg rfl rfl rfl
  exact hack.trans (steady_startAckClient _ ack)

theorem steady_acknowledge {w w' : World} {m : SipMessage} (h : w.acknowledge S m = some w') :
    Steady w w' := by
  unfold acknowledge at h
  split at h
  · obtain ⟨p, hp, rfl⟩ := Option.map_eq_some_iff.mp h
    exact (steady_create (keepsIdentity_create2xxAckRequest m none none) hp).trans
      (steady_sendAck ..)
  · rw [← Option.some.inj h]
    exact steady_of_dlg rfl rfl rfl

theorem steady_fireSuccess (w : World) (reInviting : Bool) (m : SipMessage) :
    Steady w (w.fireSuccess reInviting m) := by
  unfold fireSuccess
  split
  · exact (steady_suspend ..).trans (steady_fire ..)
  · exact ((steady_suspend ..).trans (steady_suspend ..)).trans (steady_fire ..)

theorem shifted_onInviteSuccessResponse (w : World) (m : SipMessage) :
    Shifted (w.clientUpdates S .invite (.onTransSuccessResponse m)) w
      (w.onInviteSuccessResponse S m) := by
  unfold onInviteSuccessResponse
  split
  · next hw =>
    extract_lets reInviting w₁
    have hmem : (true, m) ∈ w.clientUpdates S .invite (.onTransSuccessResponse m) := by
      unfold clientUpdates
      dsimp only
      rw [if_pos hw]
      exact List.mem_cons_self
    have hcall : Shifted (w.clientUpdates S .invite (.onTransSuccessResponse m)) w
        (w.changeStatus .call) :=
      .single (.changes (by rcases hw.1 with h | h <;> rw [h] <;> decide))
    have hupdated : Shifted _ w w₁ := hcall.trans (shifted_updates hmem)
    split
    · exact hupdated
    · next w₂ hack =>
      exact hupdated.trans (shifted_of_steady ((steady_acknowledge hack).trans
        (steady_fireSuccess ..)))
  · exact .refl

theorem shifted_inviteDialogOnTransSuccessResponse (w : World) (method : Method) (m : SipMessage)
    (hS : method = .update → S.extended = false) :
    Shifted (w.clientUpdates S method (.onTransSuccessResponse m)) w
      (w.inviteDialogOnTransSuccessResponse S method m) := by
  unfold inviteDialogOnTransSuccessResponse
  split
  · exact shifted_onInviteSuccessResponse w m
  · split
    · next hw =>
      have hmem : (true, m) ∈ w.clientUpdates S .update (.onTransSuccessResponse m) := by
        unfold clientUpdates
        dsimp only
        rw [if_pos ⟨hS rfl, hw⟩]
        exact List.mem_cons_self
      exact (shifted_updates hmem).trans (shifted_of_steady (steady_fire ..))
    · exact .refl
  · split
    · exact shifted_close ..
    · exact .refl
  · exact .refl

theorem shifted_onTransTimeout (w : World) (req : SipMessage) :
    Shifted U w (w.onTransTimeout req) := by
  unfold onTransTimeout inviteDialogOnTransTimeout
  split
  · split
    · exact shifted_close ..
    · exact .refl
  · split
    · next hw => exact shifted_fire hw (by decide) _
    · exact .refl
  · exact .refl

theorem steady_authenticate (w : World) (req m : SipMessage) (ch : Challenge) :
    Steady w (w.authenticate S req m ch) := by
  have hattempt : Steady w { w with dlg.attempts := w.dlg.attempts + 1 } :=
    steady_of_dlg rfl rfl rfl
  have hbranch : Steady w { w with
      dlg.attempts := w.dlg.attempts + 1
      provider.branches := w.provider.branches + 1 } :=
    ⟨rfl, rfl, rfl, (·.congr rfl rfl rfl rfl rfl rfl), fun _ _ _ => rfl, fun _ h => h⟩
  unfold authenticate
  dsimp only
  split
  · exact hattempt
  · split
    · exact hbranch
    · split
      · exact hbranch.trans (steady_startInviteClient _ _)
      · exact hbranch.trans (steady_startClient _ _ _)

theorem shifted_onTransFailureResponse (w : World) (req m : SipMessage) :
    Shifted U w (w.onTransFailureResponse S req m) := by
  unfold onTransFailureResponse
  dsimp only
  split
  · split
    · exact shifted_of_steady (steady_authenticate ..)
    · split
      · exact shifted_inviteDialogOnTransFailureResponse ..
      · exact shifted_of_steady (steady_fire ..)
  · exact shifted_inviteDialogOnTransFailureResponse ..

theorem shifted_onTransSuccessResponse (w : World) (req m : SipMessage) :
    Shifted (w.clientUpdates S req.getTransactionMethod (.onTransSuccessResponse m)) w
      (w.onTransSuccessResponse S req m) := by
  unfold onTransSuccessResponse
  dsimp only
  split
  · have hattempts : Steady w { w with dlg.attempts := 0 } := steady_of_dlg rfl rfl rfl
    split
    · next hleft =>
      have hmethod (h : req.getTransactionMethod = .update) : S.extended = false := by
        rw [h] at hleft
        exact absurd hleft (by decide)
      exact (shifted_of_steady hattempts).trans
        (shifted_inviteDialogOnTransSuccessResponse { w with dlg.attempts := 0 } _ m hmethod)
    · exact shifted_of_steady (hattempts.trans (steady_fire ..))
  · next hS =>
    exact shifted_inviteDialogOnTransSuccessResponse w _ m fun _ => by simpa using hS

theorem shifted_onClientCallback (w : World) (req : SipMessage) (c : ClientCallback) :
    Shifted (w.clientUpdates S req.getTransactionMethod c) w (w.onClientCallback S req c) := by
  cases c with
  | onTransProvisionalResponse m => exact shifted_onTransProvisionalResponse ..
  | onTransSuccessResponse m => exact shifted_onTransSuccessResponse ..
  | onTransFailureResponse m => exact shifted_onTransFailureResponse ..
  | onTransTimeout => exact shifted_onTransTimeout ..

/-! ## Callbacks of the server transactions -/

/-- A CANCEL, once its transaction has sent the 200. -/
theorem shifted_onTransRequestCancel {w w₁ : World} (h : Steady w w₁) (hdlg : w₁.dlg = w.dlg)
    (m : SipMessage) :
    Shifted (if w.status.IsInvited then w.dlg.inviteReq.toList.flatMap fun invite =>
      responseUpdates S w.status (createResponse S invite 487 none) else []) w
      (w₁.onTransRequestCancel S m) := by
  refine (shifted_of_steady h).trans ?_
  rw [show w.status = w₁.status by rw [status, ← hdlg], ← hdlg]
  unfold onTransRequestCancel
  split
  · split
    · exact .refl
    · next invite hinvite =>
      refine ((shifted_respond w₁ _).mono fun p hp => ?_).trans (shifted_of_steady (steady_fire ..))
      rw [hinvite]
      simpa using hp
  · exact .refl

theorem shifted_onTransRequest (w : World) (ts : Agent) (m : SipMessage) :
    Shifted (w.serverUpdates S (.onTransRequest m)) w (w.onTransRequest S ts m) := by
  unfold onTransRequest serverUpdates
  dsimp only
  cases m.getTransactionMethod with
  | invite => exact shifted_onTransRequestInvite w m
  | cancel =>
    cases ts with
    | inviteServer r => exact shifted_onTransRequestCancel (steady_respondWith ..) rfl m
    | cancelServer r =>
      exact shifted_onTransRequestCancel
        (steady_onCancelServer _ _ fun t => t.stands_respondWith _) rfl m
    | server r => exact shifted_onTransRequestCancel (steady_serverRespondWith ..) rfl m
    | _ => exact shifted_onTransRequestCancel (.refl w) rfl m
  | _ => exact .refl

theorem shifted_onTransFailureAck (w : World) : Shifted U w w.onTransFailureAck := by
  unfold onTransFailureAck
  split
  · next hw =>
    extract_lets w₁
    have hcancel : Steady w w₁ := steady_onCancelServer _ _ fun t => t.stands_doTerminate
    split
    · next hre =>
      refine (shifted_of_steady hcancel).trans (.single (.changes ?_))
      rw [show w₁.status = .reRefused from hre]
      decide
    · exact (shifted_of_steady hcancel).trans (shifted_changes (not_begins_close _) (steady_fire ..))
  · exact .refl

theorem shifted_onServerCallback (w : World) (ts : Agent) (c : ServerCallback) :
    Shifted (w.serverUpdates S c) w (w.onServerCallback S ts c) := by
  cases c with
  | onTransRequest m => exact shifted_onTransRequest ..
  | onTransFailureAck m => exact shifted_onTransFailureAck w

theorem shifted_onTransAckTimeout (w : World) : Shifted U w w.onTransAckTimeout := by
  unfold onTransAckTimeout
  split
  · exact shifted_changes (not_begins_close _) (steady_fire ..)
  · exact .refl

/-! ## After a callback -/

theorem shifted_resume (w : World) (c : Rest) : Shifted U w (w.resume c) := by
  cases c with
  | inviteClient r rest =>
    exact shifted_of_steady (steady_onInviteClient _ _ fun t => t.stands_resume rest)
  | client r rest => exact shifted_of_steady (steady_onClient _ _ fun t => t.stands_resume rest)
  | inviteServer r rest =>
    exact shifted_of_steady (steady_onInviteServer _ _ fun t => t.stands_resume rest)
  | fireDlgCall => exact shifted_of_steady (steady_fire ..)
  | fireDlgClosed => exact shifted_of_steady (steady_fire ..)
  | closeAfterBye => exact shifted_changes (not_begins_close _) (steady_fire ..)
  | sessionTimers m =>
    refine shifted_of_steady ?_
    show Steady w (w.readSessionTimers m)
    unfold readSessionTimers
    split
    · exact .refl w
    · exact steady_of_dlg rfl rfl rfl
  | afterPrack => exact shifted_of_steady (steady_afterPrack w)
  | afterResponderTimeout => exact shifted_of_steady (steady_sendNextResponse w)

/-! ## The user's calls -/

theorem shifted_listen (w : World) : Shifted U w (w.listen S) := by
  unfold listen
  split
  · next hw =>
    extract_lets r w₁
    have hwaiting : Shifted U w (w.changeStatus .waiting) :=
      .single (.changes (by rw [hw]; decide))
    have hserver : Steady (w.changeStatus .waiting)
        { w₁ with inviteServers := w.inviteServers.new (.newListening S true) } :=
      (steady_setInviteTs _ r).trans ⟨rfl, rfl, rfl, fun hplain => { hplain with
        inviteServers := Heap.forall_new (P := fun _ (t : InviteTransactionServer) =>
          t.transactionId.IsPlain) hplain.inviteServers trivial }, fun _ _ _ => rfl, fun _ h => h⟩
    exact hwaiting.trans (shifted_of_steady (hserver.trans
      (steady_onInviteServer _ _ fun t => t.stands_listen)))
  · exact .refl

theorem shifted_sendInvite {w : World} {s : Status} (hw : w.status ≠ .close) (hs : s ≠ .close)
    (invite : SipMessage) :
    Shifted [(true, invite)] w ((w.changeStatus s).sendInvite S invite) := by
  unfold sendInvite
  extract_lets w₁
  have hupdated : Shifted [(true, invite)] w w₁ := .single (.invites hw hs List.mem_cons_self)
  have hclient : Steady w₁ (w₁.setInviteTc w₁.inviteClients.next) := steady_of_dlg rfl rfl rfl
  exact hupdated.trans (shifted_of_steady (hclient.trans (steady_startInviteClient ..)))

theorem shifted_invite (w : World) (invite : SipMessage) :
    Shifted (w.sentUpdates S invite) w (w.invite S invite) := by
  unfold World.invite sentUpdates
  split
  · next hw =>
    exact shifted_sendInvite (by rw [hw]; decide) (by decide) _
  · exact .refl

theorem shifted_inviteTarget (w : World) (target fromName : NameAddress)
    (contact : Option NameAddress) (sdp : String) :
    Shifted (w.sentUpdates S (w.openingInvite S target fromName contact sdp)) w
      (w.inviteTarget S target fromName contact sdp) := by
  have hbranch : Steady w { w with provider.branches := w.provider.branches + 1 } :=
    ⟨rfl, rfl, rfl, (·.congr rfl rfl rfl rfl rfl rfl), fun _ _ _ => rfl, fun _ h => h⟩
  unfold inviteTarget
  split
  · exact (shifted_of_steady hbranch).trans (shifted_invite
      { w with provider.branches := w.provider.branches + 1 }
      (w.openingInvite S target fromName contact sdp))
  · exact .refl

theorem shifted_reInvite (w : World) (invite : SipMessage) :
    Shifted (w.resentUpdates invite) w (w.reInvite S invite) := by
  unfold reInvite resentUpdates
  split
  · next hw =>
    exact shifted_sendInvite (by rw [hw]; decide) (by decide) _
  · exact .refl

theorem shifted_reInviteOffer (w : World) (contact : Option NameAddress) (sdp : String) :
    Shifted (w.reOfferUpdates S contact sdp) w (w.reInviteOffer S contact sdp) := by
  unfold reInviteOffer
  split
  · next hw =>
    split
    · exact .refl
    · next req w₁ hcreate =>
      obtain ⟨p, hp, heq⟩ := Option.map_eq_some_iff.mp hcreate
      have hsteady := steady_create
        (keepsIdentity_createDialogRequest .invite (some "application/sdp") (some sdp)) hcreate
      refine (shifted_of_steady hsteady).trans ((shifted_reInvite w₁ _).mono fun q hq => ?_)
      have hmem : q ∈ w.resentUpdates { req with contact := contact <|> req.contact } := by
        unfold resentUpdates at hq ⊢
        rwa [hsteady.status] at hq
      unfold reOfferUpdates
      rw [show createDialogRequest _ _ _ _ _ = some p from hp]
      cases heq
      simpa using hmem
  · exact .refl

theorem shifted_withoutOffer {w w' : World} (h : Shifted U w.withoutOffer w') :
    Shifted U w w' := by
  have hoffer : Steady w w.withoutOffer := steady_of_dlg rfl rfl rfl
  exact (shifted_of_steady hoffer).trans h

/-- A response that the user passes to `respond`, if any. -/
theorem shifted_respondPassed (w : World) (resp : Option SipMessage) :
    Shifted (w.passedUpdates S resp) w (match resp with
      | none => w
      | some resp => w.respond S resp) := by
  cases resp with
  | none => exact .refl
  | some resp =>
    refine (shifted_respond w resp).mono fun p hp => ?_
    unfold passedUpdates
    simpa using hp

theorem shifted_respondCode (w : World) (code : ℤ) (contact : Option NameAddress)
    (contentType body : Option String) :
    Shifted (w.passedUpdates S (w.codeResponse S code contact contentType body)) w
      (w.respondCode S code contact contentType body) := by
  rw [respondCode_eq]
  exact shifted_respondPassed ..

theorem steady_setLocalContact (w : World) (contact : NameAddress) :
    Steady w (w.setLocalContact contact) :=
  steady_of_dlg rfl rfl rfl

theorem steady_confirm2xx (w : World) (ack : SipMessage) : Steady w (w.confirm2xx ack) := by
  have hack : Steady w (w.setAckReq ack) := steady_of_dlg rfl rfl rfl
  unfold confirm2xx
  dsimp only
  split
  · exact hack.trans (steady_startAckClient ..)
  · exact (hack.trans (steady_setLocalContact ..)).trans (steady_startAckClient ..)

theorem steady_confirm2xxWithAnswer (w : World) (contact : Option NameAddress) (sdp : String) :
    Steady w (w.confirm2xxWithAnswer S contact sdp) := by
  unfold confirm2xxWithAnswer
  extract_lets w₁
  have hcontact : Steady w w₁ := by
    cases contact with
    | none => exact .refl w
    | some contact => exact steady_setLocalContact ..
  split
  · exact hcontact
  · next resp hresp =>
    split
    · exact hcontact
    · next ack w₂ hcreate =>
      exact (hcontact.trans (steady_create (keepsIdentity_create2xxAckRequest resp _ _)
        hcreate)).trans (steady_confirm2xx ..)

theorem steady_confirm1xxOf (w : World) (resp : SipMessage) (contentType body : Option String) :
    Steady w (w.confirm1xxOf S resp contentType body) := by
  unfold confirm1xxOf
  split
  · exact .refl w
  · next prack w₁ hcreate =>
    exact (steady_create (keepsIdentity_createPrackRequest resp contentType body) hcreate).trans
      (steady_confirm1xx ..)

theorem shifted_byeMessage (w : World) (bye : SipMessage) :
    Shifted U w (w.byeMessage S bye) := by
  unfold byeMessage
  split
  · next hw =>
    exact shifted_changes (by rw [hw]; decide) (steady_startClient ..)
  · exact .refl

theorem shifted_bye (w : World) : Shifted U w (w.bye S) := by
  unfold World.bye
  split
  · split
    · exact .refl
    · next req w₁ hcreate =>
      exact (shifted_of_steady (steady_create keepsIdentity_createByeRequest hcreate)).trans
        (shifted_byeMessage ..)
  · exact .refl

theorem steady_terminateInviteClient (w : World) (r : Option ℕ) :
    Steady w (w.onInviteClient r (·.terminate)) :=
  steady_onInviteClient _ _ fun t => t.stands_doTerminate

theorem steady_cancelMessage (w : World) (cancel : SipMessage) :
    Steady w (w.cancelMessage S cancel) := by
  unfold cancelMessage
  split
  · split
    · exact steady_startClient ..
    · exact steady_terminateInviteClient ..
  · split
    · exact steady_terminateInviteServer ..
    · exact .refl w

theorem steady_cancel (w : World) : Steady w (w.cancel S) := by
  unfold World.cancel
  split
  · split
    · split
      · exact .refl w
      · exact steady_cancelMessage ..
    · exact steady_terminateInviteClient ..
  · split
    · exact steady_terminateInviteServer ..
    · exact .refl w

theorem steady_infoMessage (w : World) (req : SipMessage) : Steady w (w.infoMessage S req) := by
  unfold infoMessage
  split
  · exact steady_startClient ..
  · exact .refl w

theorem steady_info (w : World) (contentType body : Option String) :
    Steady w (w.info S contentType body) := by
  unfold World.info
  split
  · split
    · exact .refl w
    · next req w₁ hcreate =>
      exact (steady_create (keepsIdentity_createDialogRequest .info contentType body)
        hcreate).trans (steady_infoMessage ..)
  · exact .refl w

theorem steady_updateMessage (w : World) (req : SipMessage) :
    Steady w (w.updateMessage S req) := by
  unfold updateMessage
  split
  · exact steady_startClient ..
  · exact .refl w

theorem steady_update (w : World) (contact : Option NameAddress) (sdp : String) :
    Steady w (w.update S contact sdp) := by
  unfold World.update
  split
  · split
    · exact .refl w
    · next req w₁ hcreate =>
      exact (steady_create (keepsIdentity_createDialogRequest .update (some "application/sdp")
        (some sdp)) hcreate).trans (steady_updateMessage ..)
  · exact .refl w

theorem shifted_respondUpdate (w : World) (code : ℤ) (sdp : Option String) :
    Shifted (w.answerUpdates S code sdp) w (w.respondUpdate S code sdp) := by
  unfold respondUpdate
  split
  · exact .refl
  · next req hreq =>
    refine (shifted_respond w _).mono fun p hp => ?_
    unfold answerUpdates
    rw [hreq]
    cases sdp <;> simpa using hp

theorem steady_forget (w : World) : Steady w { w with dlg := w.dlg.forget } :=
  steady_of_dlg rfl rfl rfl

theorem shifted_terminate (w : World) : Shifted U w w.terminate := by
  unfold World.terminate
  split
  · exact .refl
  · extract_lets w₁ w₂ w₃ w₄ w₅ w₆ w₇
    have hclose : Shifted U w w₁ := .single (.changes (not_begins_close _))
    have hinvite : Steady w₁ w₃ :=
      (steady_terminateInviteClient ..).trans (steady_terminateInviteServer ..)
    have hcancel : Steady w₃ w₄ := steady_onCancelServer _ _ fun t => t.stands_doTerminate
    have hupdate : Steady w₄ w₅ := steady_onServer _ _ fun t => t.stands_doTerminate
    have hack : Steady w₅ w₆ := steady_onAckServer _ _ fun t => t.stands_doTerminate
    have hbye : Steady w₆ w₇ := steady_onServer _ _ fun t => t.stands_doTerminate
    have hforget : Steady w₇ { w₇ with dlg := w₇.dlg.forget } := steady_forget w₇
    exact hclose.trans (shifted_of_steady (((((hinvite.trans hcancel).trans hupdate).trans
      hack).trans hbye).trans (hforget.trans (steady_fire ..))))

theorem steady_request (w : World) (req : SipMessage) : Steady w (w.request S req) := by
  unfold World.request
  split
  · exact steady_startClient ..
  · exact .refl w

theorem steady_requestWith (w : World)
    {factory : String → DialogInfo → Option (SipMessage × DialogInfo)}
    (hfactory : KeepsIdentity factory) : Steady w (w.requestWith S factory) := by
  unfold requestWith
  split
  · split
    · exact .refl w
    · next req w₁ hcreate => exact (steady_create hfactory hcreate).trans (steady_request ..)
  · exact .refl w

theorem shifted_respondRefer (w : World) (req : SipMessage) (code : ℤ) :
    Shifted (w.passedUpdates S (some (createResponse S req code none))) w
      (w.respondRefer S req code) := by
  unfold respondRefer
  split
  · exact shifted_respondPassed w (some _)
  · exact .refl

/-- Each call of the user. -/
theorem shifted_call (w : World) (a : Api) : Shifted (w.apiUpdates S a) w (w.call S a) := by
  cases a with
  | setSupportedExtensions tags => exact shifted_of_steady (steady_of_dlg rfl rfl rfl)
  | setRequiredExtensions tags => exact shifted_of_steady (steady_of_dlg rfl rfl rfl)
  | listen => exact shifted_listen w
  | invite target fromName contact sdp => exact shifted_inviteTarget ..
  | inviteMessage invite => exact shifted_invite ..
  | inviteWithoutOffer => exact shifted_withoutOffer .refl
  | inviteMessageWithoutOffer invite => exact shifted_withoutOffer (shifted_invite w.withoutOffer invite)
  | reInvite contact sdp => exact shifted_reInviteOffer ..
  | reInviteMessage invite => exact shifted_reInvite ..
  | reInviteWithoutOffer contact sdp =>
    exact shifted_withoutOffer (shifted_reInviteOffer w.withoutOffer contact sdp)
  | reInviteMessageWithoutOffer invite =>
    exact shifted_withoutOffer (shifted_reInvite w.withoutOffer invite)
  | ring => exact shifted_respondCode ..
  | accept contact sdp => exact shifted_respondCode ..
  | refuse => exact shifted_respondCode ..
  | refuseWith code => exact shifted_respondCode ..
  | redirect code contact => exact shifted_respondCode ..
  | respond code contact contentType body => exact shifted_respondCode ..
  | respondMessage resp => exact shifted_respondPassed w (some resp)
  | confirm2xxWithAnswer contact sdp => exact shifted_of_steady (steady_confirm2xxWithAnswer ..)
  | confirm2xxWithAck ack => exact shifted_of_steady (steady_confirm2xx ..)
  | confirm1xx resp contentType body => exact shifted_of_steady (steady_confirm1xxOf ..)
  | confirm1xxMessage prack => exact shifted_of_steady (steady_confirm1xx ..)
  | bye => exact shifted_bye w
  | byeMessage bye => exact shifted_byeMessage ..
  | cancel => exact shifted_of_steady (steady_cancel w)
  | cancelMessage cancel => exact shifted_of_steady (steady_cancelMessage ..)
  | info contentType body => exact shifted_of_steady (steady_info ..)
  | infoMessage req => exact shifted_of_steady (steady_infoMessage ..)
  | update contact sdp => exact shifted_of_steady (steady_update ..)
  | updateMessage req => exact shifted_of_steady (steady_updateMessage ..)
  | acceptUpdate sdp => exact shifted_respondUpdate w 200 sdp
  | refuseUpdate => exact shifted_respondUpdate w 504 none
  | terminate => exact shifted_terminate w
  | request req => exact shifted_of_steady (steady_request ..)
  | refer referTo referredBy =>
    exact shifted_of_steady (steady_requestWith w
      (keepsIdentity_createReferRequest referTo referredBy))
  | notify sipfragment =>
    exact shifted_of_steady (steady_requestWith w
      (keepsIdentity_createNotifyRequest "refer" sipfragment))
  | acceptRefer req => exact shifted_respondRefer ..
  | refuseRefer req => exact shifted_respondRefer ..

/-! ## Transactions at work -/

/-- What an invite client does, and its callback. -/
theorem shifted_inviteClientDid {w : World} {r : ℕ} {t : InviteTransactionClient}
    {o : Outcome InviteTransactionClient ClientCallback ClientRest}
    (hget : w.inviteClients.get r = some t) (ho : Stands t.standing o.calls o.self.standing) :
    Shifted (w.inviteClientUpdates S o) w (w.inviteClientDid S r o) := by
  have hput := shifted_of_steady (U := w.inviteClientUpdates S o) (steady_putInviteClient hget ho)
  unfold inviteClientDid
  split
  · exact hput
  · next c hc =>
    refine hput.trans ((shifted_onClientCallback (w.putInviteClient r o) _ c).mono fun p hp => ?_)
    unfold inviteClientUpdates
    rw [hc]
    exact List.mem_flatMap.mpr ⟨c, Option.mem_toList.mpr rfl, hp⟩

/-- What a client does, and its callback. -/
theorem shifted_clientDid {w : World} {r : ℕ} {t : TransactionClient}
    {o : Outcome TransactionClient ClientCallback ClientRest}
    (hget : w.clients.get r = some t) (ho : Stands t.standing o.calls o.self.standing) :
    Shifted (w.genericClientUpdates S o) w (w.clientDid S r o) := by
  have hput := shifted_of_steady (U := w.genericClientUpdates S o) (steady_putClient hget ho)
  unfold clientDid
  split
  · exact hput
  · next c hc =>
    refine hput.trans ((shifted_onClientCallback (w.putClient r o) _ c).mono fun p hp => ?_)
    unfold genericClientUpdates
    rw [hc]
    exact List.mem_flatMap.mpr ⟨c, Option.mem_toList.mpr rfl, hp⟩

/-- What an invite server does, and its callback. -/
theorem shifted_inviteServerDid {w : World} {r : ℕ} {t : InviteTransactionServer}
    {o : Outcome InviteTransactionServer ServerCallback ServerRest}
    (hget : w.inviteServers.get r = some t) (ho : Stands t.standing o.calls o.self.standing) :
    Shifted (o.callback.toList.flatMap (w.serverUpdates S)) w (w.inviteServerDid S r o) := by
  have hput := shifted_of_steady (U := o.callback.toList.flatMap (w.serverUpdates S))
    (steady_putInviteServer hget ho)
  unfold inviteServerDid
  split
  · exact hput
  · next c hc =>
    refine hput.trans ((shifted_onServerCallback (w.putInviteServer r o) _ c).mono fun p hp => ?_)
    rw [hc]
    exact List.mem_flatMap.mpr ⟨c, Option.mem_toList.mpr rfl, hp⟩

/-- What a server does, and its callback. -/
theorem shifted_serverDid {w : World} {r : ℕ} {t : TransactionServer}
    {o : Outcome TransactionServer ServerCallback ServerRest}
    (hget : w.servers.get r = some t) (ho : Stands t.standing o.calls o.self.standing) :
    Shifted (o.callback.toList.flatMap (w.serverUpdates S)) w (w.serverDid S r o) := by
  have hput := shifted_of_steady (U := o.callback.toList.flatMap (w.serverUpdates S))
    (steady_putServer hget ho)
  unfold serverDid
  split
  · exact hput
  · next c hc =>
    refine hput.trans ((shifted_onServerCallback (w.putServer r o) _ c).mono fun p hp => ?_)
    rw [hc]
    exact List.mem_flatMap.mpr ⟨c, Option.mem_toList.mpr rfl, hp⟩

/-- What a cancel server does, and its callback. -/
theorem shifted_cancelServerDid {w : World} {r : ℕ} {t : TransactionServer}
    {o : Outcome TransactionServer ServerCallback ServerRest}
    (hget : w.cancelServers.get r = some t) (ho : Stands t.standing o.calls o.self.standing) :
    Shifted (o.callback.toList.flatMap (w.serverUpdates S)) w (w.cancelServerDid S r o) := by
  have hput := shifted_of_steady (U := o.callback.toList.flatMap (w.serverUpdates S))
    (steady_putCancelServer hget ho)
  unfold cancelServerDid
  split
  · exact hput
  · next c hc =>
    refine hput.trans ((shifted_onServerCallback (w.putCancelServer r o) _ c).mono fun p hp => ?_)
    rw [hc]
    exact List.mem_flatMap.mpr ⟨c, Option.mem_toList.mpr rfl, hp⟩

/-- What an ACK server does, and its callback. -/
theorem shifted_ackServerDid {w : World} {r : ℕ} {t : AckTransactionServer}
    {o : Outcome AckTransactionServer AckServerCallback ServerRest}
    (hget : w.ackServers.get r = some t) (ho : Stands t.standing o.calls o.self.standing) :
    Shifted U w (w.ackServerDid r o) := by
  have hput := shifted_of_steady (U := U) (steady_putAckServer hget ho)
  unfold ackServerDid
  split
  · exact hput
  · exact hput.trans (shifted_onTransAckTimeout _)

/-- The messages for an object that is there. -/
theorem shifted_found {α : Type} {w w' : World} {o : Option α} {t : α} (ho : o = some t)
    {f : α → List (Bool × SipMessage)} (h : Shifted (f t) w w') :
    Shifted (o.toList.flatMap f) w w' :=
  h.mono fun _ hp => List.mem_flatMap.mpr ⟨t, Option.mem_toList.mpr ho, hp⟩

/-- The provider passes a message to one of its listeners; the dialog is open if it is the one. -/
theorem shifted_deliver {w : World} {a : Agent} (ha : a = .dialog → w.status ≠ .close)
    (m : SipMessage) : Shifted (w.deliverUpdates S a m) w (w.deliver S a m) := by
  have hreceived := steady_observe w (.received a m)
  have hsame : w.deliverUpdates S a m = (w.observe (.received a m)).deliverUpdates S a m := by
    cases a <;> rfl
  rw [hsame]
  refine (shifted_of_steady hreceived).trans ?_
  have hopen : a = .dialog → (w.observe (.received a m)).status ≠ .close := ha
  unfold deliver
  generalize w.observe (.received a m) = w₁ at hopen
  cases a with
  | dialog => exact shifted_onReceivedMessage (hopen rfl) m
  | ackClient => exact .refl
  | inviteClient r =>
    dsimp only
    split
    · exact .refl
    · next t hget =>
      exact shifted_found hget (shifted_inviteClientDid hget (t.stands_onReceivedMessage _ m))
  | client r =>
    dsimp only
    split
    · exact .refl
    · next t hget =>
      exact shifted_found hget (shifted_clientDid hget (t.stands_onReceivedMessage m))
  | inviteServer r =>
    dsimp only
    split
    · exact .refl
    · next t hget =>
      exact shifted_found hget (shifted_inviteServerDid hget (t.stands_onReceivedMessage S m))
  | server r =>
    dsimp only
    split
    · exact .refl
    · next t hget =>
      exact shifted_found hget (shifted_serverDid hget (t.stands_onReceivedMessage m))
  | cancelServer r =>
    dsimp only
    split
    · exact .refl
    · next t hget =>
      exact shifted_found hget (shifted_cancelServerDid hget (t.stands_onReceivedMessage m))
  | ackServer r =>
    dsimp only
    split
    · exact .refl
    · next t hget => exact shifted_ackServerDid hget (t.stands_onReceivedMessage m)

/-- A callback that is about no message brings no update. -/
theorem clientUpdates_of_message {w : World} {method : Method} {c : ClientCallback}
    (hc : c.message = none) : w.clientUpdates S method c = [] := by
  cases c with
  | onTransTimeout => rfl
  | _ => cases hc

/-- A timer of a transaction expires. -/
theorem shifted_expire (w : World) (a : Agent) (n : TimerName) :
    Shifted [] w (w.expire S a n) := by
  unfold expire
  cases a with
  | dialog => exact .refl
  | ackClient => exact .refl
  | inviteClient r =>
    dsimp only
    split
    · exact .refl
    · next t hget =>
      refine (shifted_inviteClientDid (S := S) hget (t.stands_expire n)).mono fun p hp => ?_
      obtain ⟨c, hc, hp⟩ := List.mem_flatMap.mp hp
      rwa [clientUpdates_of_message (t.message_expire (Option.mem_toList.mp hc))] at hp
  | client r =>
    dsimp only
    split
    · exact .refl
    · next t hget =>
      refine (shifted_clientDid (S := S) hget (t.stands_expire n)).mono fun p hp => ?_
      obtain ⟨c, hc, hp⟩ := List.mem_flatMap.mp hp
      rwa [clientUpdates_of_message (t.message_expire (Option.mem_toList.mp hc))] at hp
  | inviteServer r =>
    dsimp only
    split
    · exact .refl
    · next t hget =>
      have hdid := shifted_inviteServerDid (S := S) hget (t.stands_expire n)
      rw [t.callback_expire n] at hdid
      exact hdid
  | server r =>
    dsimp only
    split
    · exact .refl
    · next t hget =>
      have hdid := shifted_serverDid (S := S) hget (t.stands_expire n)
      rw [World.callback_expire] at hdid
      exact hdid
  | cancelServer r =>
    dsimp only
    split
    · exact .refl
    · next t hget =>
      have hdid := shifted_cancelServerDid (S := S) hget (t.stands_expire n)
      rw [World.callback_expire] at hdid
      exact hdid
  | ackServer r =>
    dsimp only
    split
    · exact .refl
    · next t hget => exact shifted_ackServerDid hget (t.stands_expire n)

/-! ## Every event -/

/-- **Every event is a chain of pieces.** -/
theorem shifted_step {w : World} (hr : w.Registered) (e : Event) :
    Shifted (w.updates S e) w (w.step S e) := by
  cases e with
  | recv m =>
    unfold step updates
    dsimp only
    split
    · unfold receive
      split
      · exact .refl
      · next a hl =>
        exact shifted_found hl (shifted_deliver (fun ha => hr.open_of_getListener (ha ▸ hl)) m)
    · exact .refl
  | timeout a n =>
    unfold step updates
    dsimp only
    split
    · exact shifted_expire w a n
    · exact .refl
  | responderTimeout n =>
    unfold step updates
    dsimp only
    split
    · exact shifted_of_steady (steady_processTimeout w n)
    · exact .refl
  | api a =>
    unfold step updates
    dsimp only
    split
    · exact shifted_call w a
    · exact .refl
  | ret =>
    unfold step updates
    dsimp only
    split
    · exact .refl
    · exact shifted_of_steady (steady_stack ..)
    · exact .trans (shifted_of_steady (steady_stack ..)) (shifted_resume _ _)

/-- A dialog that is made for an INVITE is updated with it. -/
theorem shifted_ofInvite (invite : SipMessage) :
    Shifted ((init S).dialogUpdates S invite) (init S) (ofInvite S invite) :=
  shifted_onReceivedMessage (w := init S) (by intro h; cases h) invite

end World
end SoftPhone
