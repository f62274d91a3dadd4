import SoftPhone.Dialog.Attended

/-!
# The remote sequence numbers

A request of the peer is checked against `remote_cseq`, and `remote_cseq` follows the
messages that the dialog is updated with: INVITE and UPDATE.  An INFO, a PRACK or a BYE
that passed the check leaves it where it was, and so the next request may have a number
below theirs.  An `ExtendedInviteDialog` does not check the methods that it takes by
itself, and a listening dialog does not check the INVITE that it was waiting for.

`taken S w e` reads off the state and the next event which request the dialog will
process.  The numbers of a run go up exactly when every request that is taken is above the
ones that `remote_cseq` has missed, and an unchecked one above all (`processed_inOrder_iff`).
-/

namespace SoftPhone

open Machine

/-- The request that the dialog processes. -/
def Obs.processed? : Obs → Option SipMessage
  | .processed m => some m
  | _ => none

namespace World

variable {S : SipStack}

/-- The requests that the dialog has processed, the last one first. -/
def processed (w : World) : List SipMessage := w.log.filterMap Obs.processed?

/-! ## What takes no request -/

theorem processed_of_log {w w' : World} {l : List Obs} (h : w'.log = l ++ w.log)
    (hl : ∀ o ∈ l, ∀ m, o ≠ .processed m) : w'.processed = w.processed := by
  have hnone : l.filterMap Obs.processed? = [] := by
    refine List.filterMap_eq_nil_iff.mpr fun o ho => ?_
    cases o with
    | processed m => exact absurd rfl (hl _ ho m)
    | received a m => rfl
    | sent a m => rfl
    | fired c => rfl
  unfold processed
  rw [h, List.filterMap_append, hnone, List.nil_append]

theorem Unheard.processed {w w' : World} (h : Unheard w w') : w'.processed = w.processed := by
  obtain ⟨l, hl, hnot⟩ := h.log
  exact processed_of_log hl hnot

theorem Spares.processed {w w' : World} (h : Spares w w') : w'.processed = w.processed :=
  h.unheard.processed

theorem processed_of_calls {w w' : World} {a : Agent} {cs : List ProviderCall}
    (h : w'.provider = w.provider.calls a cs) : w'.processed = w.processed := by
  refine processed_of_log (l := SipProvider.sents a cs) ?_ ?_
  · rw [log, h, SipProvider.log_calls]
  · intro o ho m heq
    obtain ⟨m', -, rfl⟩ := SipProvider.mem_sents.mp ho
    cases heq

section Small

variable (w : World)

@[simp] theorem processed_observe (m : SipMessage) :
    (w.observe (.processed m)).processed = m :: w.processed := rfl

@[simp] theorem processed_received (a : Agent) (m : SipMessage) :
    (w.observe (.received a m)).processed = w.processed := rfl

@[simp] theorem processed_fire (c : DialogCallback) : (w.fire c).processed = w.processed := rfl

@[simp] theorem processed_suspend (rest : Rest) : (w.suspend rest).processed = w.processed := rfl

@[simp] theorem processed_setInviteReq (m : SipMessage) :
    (w.setInviteReq m).processed = w.processed := rfl

@[simp] theorem processed_setInviteTs (r : ℕ) : (w.setInviteTs r).processed = w.processed := rfl

@[simp] theorem processed_setCancelTs (r : ℕ) : (w.setCancelTs r).processed = w.processed := rfl

@[simp] theorem processed_setByeTs (r : ℕ) : (w.setByeTs r).processed = w.processed := rfl

@[simp] theorem processed_setResponder (rr : ReliableProvisionalResponder) :
    (w.setResponder rr).processed = w.processed := rfl

@[simp] theorem processed_terminateResponder : w.terminateResponder.processed = w.processed := rfl

@[simp] theorem processed_changeStatus (s : Status) : (w.changeStatus s).processed = w.processed :=
  processed_of_calls rfl

@[simp] theorem processed_updateDialogInfo (isClient : Bool) (m : SipMessage) :
    (w.updateDialogInfo isClient m).processed = w.processed :=
  processed_of_calls rfl

@[simp] theorem processed_startInviteServer (m : SipMessage) :
    (w.startInviteServer S m).processed = w.processed :=
  processed_of_calls rfl

@[simp] theorem processed_startServer (m : SipMessage) (listener : Bool) :
    (w.startServer m listener).processed = w.processed :=
  processed_of_calls rfl

@[simp] theorem processed_startCancelServer (r : ℕ) (m : SipMessage) :
    (w.startCancelServer r m).processed = w.processed :=
  processed_of_calls rfl

@[simp] theorem processed_startDialogAckServer (conn : Option ConnectionId) (invite : SipMessage)
    (p : DialogInfo × SipMessage) :
    (w.startDialogAckServer conn invite p).processed = w.processed :=
  processed_of_calls rfl

@[simp] theorem processed_onInviteServer (r : Option ℕ)
    (f : InviteTransactionServer → InviteTransactionServer × List ProviderCall) :
    (w.onInviteServer r f).processed = w.processed :=
  processed_of_calls rfl

@[simp] theorem processed_onServer (r : Option ℕ)
    (f : TransactionServer → TransactionServer × List ProviderCall) :
    (w.onServer r f).processed = w.processed :=
  processed_of_calls rfl

@[simp] theorem processed_onCancelServer (r : Option ℕ)
    (f : TransactionServer → TransactionServer × List ProviderCall) :
    (w.onCancelServer r f).processed = w.processed :=
  processed_of_calls rfl

@[simp] theorem processed_onAckServer (r : Option ℕ)
    (f : AckTransactionServer → AckTransactionServer × List ProviderCall) :
    (w.onAckServer r f).processed = w.processed :=
  processed_of_calls rfl

@[simp] theorem processed_answer (req resp : SipMessage) :
    (w.answer req resp).processed = w.processed := by
  unfold answer
  simp

end Small

/-! ## The reliable responder and `respond` -/

@[simp] theorem processed_sendNextResponse (w : World) :
    w.sendNextResponse.processed = w.processed := by
  unfold sendNextResponse
  split
  · rfl
  · split
    · rfl
    · simp

@[simp] theorem processed_respondReliably (w : World) (resp : SipMessage) :
    (w.respondReliably resp).processed = w.processed := by
  unfold respondReliably
  split
  · rfl
  · dsimp only
    split <;> simp

@[simp] theorem processed_afterPrack (w : World) : w.afterPrack.processed = w.processed := by
  unfold afterPrack
  split
  · rfl
  · split <;> simp

theorem processed_processTimeout (w : World) (n : TimerName) :
    (w.processTimeout n).processed = w.processed := by
  unfold processTimeout
  split
  · rfl
  · split
    · split
      · dsimp only
        split <;> simp
      · rfl
    · split
      · split
        · rfl
        · dsimp only
          split <;> simp
      · rfl
    · rfl

theorem processed_respondInvite (w : World) (resp : SipMessage) :
    (w.respondInvite S resp).processed = w.processed := by
  have hprovisional (w : World) (resp : SipMessage) :
      (w.respondProvisional S resp).processed = w.processed := by
    unfold respondProvisional
    extract_lets w₁
    have h₁ : w₁.processed = w.processed := by
      show (if S.earlyDialog then w.updateDialogInfo false resp else w).processed = _
      split <;> simp
    split <;> simp [h₁]
  have hsuccess (w : World) (resp : SipMessage) :
      (w.respondSuccess S resp).processed = w.processed := by
    unfold respondSuccess
    dsimp only
    split <;> simp
  unfold respondInvite
  split
  · extract_lets resp' w₁
    have h₁ : w₁.processed = w.processed := by
      show (if 200 ≤ resp'.code then w.updateDialogInfo false resp' else w).processed = _
      split <;> simp
    split
    · exact hprovisional w resp'
    · split
      · exact (hsuccess w₁ _).trans h₁
      · unfold respondFailure
        simp [h₁]
  · rfl

@[simp] theorem processed_respond (w : World) (resp : SipMessage) :
    (w.respond S resp).processed = w.processed := by
  unfold respond
  dsimp only
  split
  · simp
  · unfold inviteDialogRespond
    split
    · exact processed_respondInvite w resp
    · split <;> simp
    · split <;> simp
    · rfl

/-! ## Which request is taken -/

/-- The PRACK is for the response that the responder waits for. -/
def confirms (w : World) (prack : SipMessage) : Bool :=
  (w.dlg.reliableResponder.bind (·.responses.head?)).any prack.acknowledges

/-- `InviteDialog` has a use for a request of this method. -/
def hasUse (w : World) (m : SipMessage) : Bool :=
  match m.requestMethod with
  | some .invite | some .info | some .update => true
  | some .bye => w.status = .call ∨ w.status = .byeing
  | some .prack => w.confirms m
  | _ => false

/-- `ExtendedInviteDialog` takes the request by itself. -/
def isAlt (S : SipStack) (m : SipMessage) : Bool :=
  S.extended && m.requestMethod.any fun method => !method.isBasic

/-- The dialog takes a request that the provider passes to it. -/
def dialogTakes (S : SipStack) (w : World) (m : SipMessage) : Bool :=
  isAlt S m || (!w.tooLate m && !sessionTooShort S m && w.hasUse m)

/-- The invite server `r` waits for an INVITE, and so does the dialog. -/
def awaits (w : World) (r : ℕ) : Bool :=
  w.status = .waiting ∧ ((w.inviteServers.get r).any fun t =>
    t.status = .waiting ∧ t.listener = true) = true

/-- The dialog takes a request that the provider receives. -/
def takes (S : SipStack) (w : World) (m : SipMessage) : Bool :=
  match w.provider.getListener m with
  | some .dialog => w.dialogTakes S m
  | some (.inviteServer r) => w.awaits r && m.is .invite && m.getTransactionMethod = .invite
  | _ => false

/-- The request that the dialog takes in the event. -/
def taken (S : SipStack) (w : World) : Event → Option SipMessage
  | .recv m => if w.stack = [] ∧ w.takes S m = true then some m else none
  | _ => none

/-! ## The handlers of requests -/

theorem processed_onReceivedInvite (w : World) (m : SipMessage) :
    (w.onReceivedInvite S m).processed = m :: w.processed := by
  unfold onReceivedInvite
  extract_lets r w₁ w₂ w₃ w₄ w₅
  have h₄ : w₄.processed = m :: w.processed := by simp [w₄, w₃, w₂, w₁]
  have h₅ : w₅.processed = w₄.processed := by simp [w₅]
  split
  · exact (processed_respond w₄ _).trans h₄
  · split
    · exact h₅.trans h₄
    · exact h₅.trans h₄

theorem processed_onReceivedAck (w : World) (m : SipMessage) :
    (w.onReceivedAck m).processed = w.processed := by
  unfold onReceivedAck
  split <;> simp

theorem processed_onReceivedBye (w : World) (m : SipMessage) :
    (w.onReceivedBye S m).processed =
      if w.status = .call ∨ w.status = .byeing then m :: w.processed else w.processed := by
  unfold onReceivedBye
  split <;> simp

theorem processed_onReceivedInfo (w : World) (m : SipMessage) :
    (w.onReceivedInfo S m).processed = m :: w.processed := by
  unfold onReceivedInfo
  dsimp only
  split <;> simp

theorem processed_onReceivedUpdate (w : World) (m : SipMessage) :
    (w.onReceivedUpdate m).processed = m :: w.processed := by
  have hset (w : World) (r : ℕ) : (w.setUpdateTs r).processed = w.processed := rfl
  unfold onReceivedUpdate
  simp [hset]

theorem processed_processPrack (w : World) (prack : SipMessage) :
    (w.processPrack S prack).processed =
      if w.confirms prack then prack :: w.processed else w.processed := by
  unfold processPrack confirms
  cases w.dlg.reliableResponder with
  | none => rfl
  | some rr =>
    cases hresp : rr.responses with
    | nil => simp [hresp]
    | cons resp rest =>
      by_cases hack : prack.acknowledges resp = true
      · simp only [hresp, hack, if_true, Option.bind_some, List.head?_cons, Option.any_some]
        split <;> simp
      · simp [hresp, hack]

/-- **A checked request.** -/
theorem processed_onReceivedRequest (w : World) (m : SipMessage) :
    (w.onReceivedRequest S m).processed =
      if !w.tooLate m && !sessionTooShort S m && w.hasUse m then m :: w.processed
      else w.processed := by
  unfold onReceivedRequest
  by_cases hlate : w.tooLate m = true
  · simp [hlate]
  · by_cases hshort : sessionTooShort S m = true
    · simp [hlate, hshort]
    · simp only [hlate, hshort, Bool.false_eq_true, if_false, Bool.not_false, Bool.true_and]
      unfold hasUse
      cases m.requestMethod with
      | none => simp
      | some method =>
        cases method with
        | invite => exact processed_onReceivedInvite w m
        | ack => exact processed_onReceivedAck w m
        | bye => simp [processed_onReceivedBye]
        | info => exact processed_onReceivedInfo w m
        | prack => exact processed_processPrack w m
        | update => exact processed_onReceivedUpdate w m
        | _ => simp

/-- An unchecked request. -/
theorem processed_onReceivedAltRequest (w : World) (m : SipMessage) :
    (w.onReceivedAltRequest S m).processed = m :: w.processed := by
  unfold onReceivedAltRequest
  extract_lets w₁ _ w₂ w₃
  have h₂ : w₂.processed = m :: w.processed := processed_startServer ..
  have h₃ : w₃.processed = w₂.processed := processed_respond ..
  split
  · split
    · exact h₂
    · exact h₂
  · split
    · exact h₃.trans h₂
    · exact h₃.trans h₂
  · exact h₂

theorem processed_onReceivedMessage {w : World} (htidy : w.Tidy) (m : SipMessage) :
    (w.onReceivedMessage S m).processed =
      if w.dialogTakes S m then m :: w.processed else w.processed := by
  have hbasic : (w.inviteDialogOnReceivedMessage S m).processed =
      if !w.tooLate m && !sessionTooShort S m && w.hasUse m then m :: w.processed
      else w.processed := by
    unfold inviteDialogOnReceivedMessage
    split
    · exact processed_onReceivedRequest w m
    · next hm =>
      have huse : w.hasUse m = false := by
        unfold hasUse
        rw [Option.not_isSome_iff_eq_none.mp hm]
      rw [huse, Bool.and_false]
      exact (spares_onReceivedResponse htidy).processed
  unfold onReceivedMessage dialogTakes isAlt
  split
  · next method hS hm =>
    split
    · next hmethod => simpa [hm, hmethod] using hbasic
    · next hmethod => simpa [hS, hm, hmethod] using processed_onReceivedAltRequest w m
  · next hnot =>
    have halt : (S.extended && m.requestMethod.any fun method => !method.isBasic) = false := by
      cases hS : S.extended with
      | false => rfl
      | true =>
        cases hm : m.requestMethod with
        | none => rfl
        | some method => exact absurd hm (hnot method hS)
    rw [halt, Bool.false_or]
    exact hbasic

/-! ## The callbacks of the servers -/

theorem processed_onTransRequestInvite (w : World) (m : SipMessage) :
    (w.onTransRequestInvite S m).processed =
      if w.status = .waiting then m :: w.processed else w.processed := by
  unfold onTransRequestInvite
  split
  · extract_lets w₁ w₂
    have h₂ : w₂.processed = m :: w.processed := by simp [w₂, w₁]
    split
    · exact (processed_respond w₂ _).trans h₂
    · exact h₂
  · rfl

theorem processed_onTransRequestCancel (w : World) (m : SipMessage) :
    (w.onTransRequestCancel S m).processed = w.processed := by
  unfold onTransRequestCancel
  split
  · split <;> simp
  · rfl

/-- Only the INVITE that a dialog was waiting for is processed. -/
theorem processed_onTransRequest (w : World) (ts : Agent) (m : SipMessage) :
    (w.onTransRequest S ts m).processed =
      if m.getTransactionMethod = .invite ∧ w.status = .waiting then m :: w.processed
      else w.processed := by
  unfold onTransRequest
  split
  · next hm =>
    rw [processed_onTransRequestInvite]
    simp [hm]
  · next hm =>
    extract_lets resp w₁
    have h₁ : w₁.processed = w.processed := by
      cases ts <;> simp [w₁]
    rw [processed_onTransRequestCancel, h₁]
    simp [hm]
  · next hinvite _ =>
    rw [if_neg fun h => hinvite h.1]

theorem processed_inviteServerDid (w : World) (r : ℕ)
    (o : Outcome InviteTransactionServer ServerCallback ServerRest) :
    (w.inviteServerDid S r o).processed =
      match o.callback with
      | some (.onTransRequest m) =>
        if m.getTransactionMethod = .invite ∧ w.status = .waiting then m :: w.processed
        else w.processed
      | _ => w.processed := by
  have hput : (w.putInviteServer r o).processed = w.processed := processed_of_calls rfl
  unfold inviteServerDid
  cases o.callback with
  | none => exact hput
  | some c =>
    cases c with
    | onTransRequest m =>
      show ((w.putInviteServer r o).onTransRequest S (.inviteServer r) m).processed = _
      rw [processed_onTransRequest, hput]
      rfl
    | onTransFailureAck m => exact (spares_onTransFailureAck _).processed.trans hput

theorem processed_ackServerDid (w : World) (k : ℕ)
    (o : Outcome AckTransactionServer AckServerCallback ServerRest) :
    (w.ackServerDid k o).processed = w.processed := by
  have hput : (w.putAckServer k o).processed = w.processed := processed_of_calls rfl
  unfold ackServerDid
  split
  · exact hput
  · exact (spares_onTransAckTimeout _).processed.trans hput

/-! ## One event -/

theorem awaits_iff {w : World} {r : ℕ} {t : InviteTransactionServer}
    (hget : w.inviteServers.get r = some t) :
    w.awaits r = true ↔ w.status = .waiting ∧ t.status = .waiting ∧ t.listener = true := by
  unfold awaits
  rw [hget]
  simp

/-- A message for an invite server. -/
theorem processed_inviteServerHears {w : World} {r : ℕ} {t : InviteTransactionServer}
    (hget : w.inviteServers.get r = some t) (m : SipMessage) :
    (w.inviteServerDid S r (t.onReceivedMessage S m)).processed =
      if w.awaits r && m.is .invite && m.getTransactionMethod = .invite then m :: w.processed
      else w.processed := by
  have hawaits := awaits_iff hget
  rw [processed_inviteServerDid]
  by_cases hbegins : m.is .invite = true ∧ t.status = .waiting
  · obtain ⟨hinvite, hwaiting⟩ := hbegins
    rw [InviteTransactionServer.onReceivedMessage_of_waiting S hinvite hwaiting]
    by_cases hlistener : t.listener = true
    · simp [hinvite, hwaiting, hlistener, hawaits, and_comm]
    · simp [hlistener, hawaits]
  · have hnot : ¬ (w.awaits r && m.is .invite && m.getTransactionMethod = .invite) = true := by
      simp only [Bool.and_eq_true, hawaits]
      exact fun h => hbegins ⟨h.1.2, h.1.1.2.1⟩
    rw [if_neg hnot]
    cases hc : (t.onReceivedMessage S m).callback with
    | none => rfl
    | some c => rw [InviteTransactionServer.callback_onReceivedMessage hbegins hc]

/-- What the provider receives. -/
theorem processed_receive {w : World} (h : w.Posted) (m : SipMessage) :
    (w.receive S m).processed = if w.takes S m then m :: w.processed else w.processed := by
  unfold receive takes
  cases w.provider.getListener m with
  | none => rfl
  | some a =>
    have h₁ : (w.observe (.received a m)).Posted := h.of_spares (spares_observe w trivial)
    show (w.deliver S a m).processed = _
    unfold deliver
    extract_lets w₁
    cases a with
    | dialog => exact processed_onReceivedMessage h₁.tidy m
    | ackClient => rfl
    | inviteClient r =>
      dsimp only
      split
      · rfl
      · next t hget =>
        exact (spares_inviteClientDid h₁.tidy hget fun h =>
          InviteTransactionClient.unpassed_onReceivedMessage h _ m).processed
    | client r =>
      dsimp only
      split
      · rfl
      · next t hget =>
        obtain ⟨hreq, hcalls⟩ := t.request_onReceivedMessage m
        exact (spares_clientDid h₁.tidy hget hreq fun m' hm' => absurd hm' (hcalls m')).processed
    | inviteServer r =>
      dsimp only
      split
      · next hget =>
        have hawaits : w.awaits r = false := by
          unfold awaits
          rw [show w.inviteServers.get r = none from hget]
          simp
        rw [if_neg (by simp [hawaits])]
        rfl
      · next t hget => exact processed_inviteServerHears hget m
    | server r =>
      dsimp only
      split
      · rfl
      · next t hget =>
        have hcallback : (t.onReceivedMessage m).callback = none := by
          cases hc : (t.onReceivedMessage m).callback with
          | none => rfl
          | some c => exact absurd (mem_of_request hc).1 (h.noneListens r t hget)
        have hput : (w₁.putServer r (t.onReceivedMessage m)).processed = w₁.processed :=
          processed_of_calls rfl
        unfold serverDid
        rw [hcallback]
        exact hput
    | cancelServer r =>
      dsimp only
      split
      · rfl
      · next t hget =>
        have hput : (w₁.putCancelServer r (t.onReceivedMessage m)).processed = w₁.processed :=
          processed_of_calls rfl
        have hvacant : w.status ≠ .waiting := by
          intro hw
          have hnone : w₁.cancelServers.get r = none := h.vacant (.inr hw) r
          rw [hnone] at hget
          cases hget
        unfold cancelServerDid
        split
        · exact hput
        · next c hc =>
          obtain ⟨-, rfl⟩ := mem_of_request hc
          show (World.onTransRequest ..).processed = _
          rw [processed_onTransRequest, hput, if_neg fun hm => hvacant hm.2]
          rfl
    | ackServer r =>
      dsimp only
      split
      · rfl
      · next t hget =>
        exact processed_ackServerDid w₁ r _

/-- What the user does. -/
theorem processed_asks {w w' : World} {a : Api} (h : Asks S w a w') :
    w'.processed = w.processed := by
  cases h with
  | spares hs => exact hs.processed
  | responds => exact processed_respond w _
  | answers => exact processed_respond w _
  | listens hw =>
    unfold World.listen
    rw [if_pos hw]
    dsimp only
    rw [processed_onInviteServer]
    exact processed_changeStatus w .waiting
  | abandons => exact processed_onInviteServer ..
  | terminates =>
    have hterminate (w : World) (r : Option ℕ) :
        (w.onInviteClient r (·.terminate)).processed = w.processed :=
      (spares_terminateInviteClient w r).processed
    unfold World.terminate
    split
    · rfl
    · show (World.onServer ..).processed = _
      simp [hterminate]

/-- A timer, a call of the user or a callback that returns. -/
theorem processed_works {w w' : World} {e : Event} (h : Works S w e w')
    (he : ∀ m, e ≠ .recv m) : w'.processed = w.processed := by
  cases h with
  | spares hs => exact hs.processed
  | @hears m => exact absurd rfl (he m)
  | @inviteServerHears m => exact absurd rfl (he m)
  | @inviteServerExpires r n t =>
    rw [processed_inviteServerDid, t.callback_expire n]
  | @ackServerHears m => exact absurd rfl (he m)
  | ackServerExpires => exact processed_ackServerDid ..
  | @requested m => exact absurd rfl (he m)
  | responderTimeout => exact processed_processTimeout w _
  | asks _ ha => exact processed_asks ha
  | @goesOn c rest hstack hc =>
    have hstack : World.processed { w with stack := rest } = w.processed := rfl
    rw [← hstack]
    cases c with
    | inviteServer r k => exact processed_onInviteServer ..
    | afterPrack => exact processed_afterPrack _
    | afterResponderTimeout => exact processed_sendNextResponse _
    | _ => exact hc.elim

/-- **Every event.** -/
theorem processed_step {w : World} (h : w.Posted) (e : Event) :
    (w.step S e).processed = (w.taken S e).toList ++ w.processed := by
  have hnone (e : Event) (he : ∀ m, e ≠ .recv m) (htaken : w.taken S e = none) :
      (w.step S e).processed = (w.taken S e).toList ++ w.processed := by
    rw [htaken, processed_works (works_step h.tidy e) he]
    rfl
  cases e with
  | recv m =>
    unfold step taken
    dsimp only
    by_cases hidle : w.stack = []
    · rw [if_pos hidle, processed_receive h]
      by_cases htakes : w.takes S m = true
      · simp [hidle, htakes]
      · simp [htakes]
    · simp [hidle]
  | timeout a n => exact hnone (.timeout a n) (by simp) rfl
  | responderTimeout n => exact hnone (.responderTimeout n) (by simp) rfl
  | api a => exact hnone (.api a) (by simp) rfl
  | ret => exact hnone .ret (by simp) rfl

/-! ## Runs -/

/-- The numbers of the requests that were processed go up. -/
def InOrder (w : World) : Prop := w.processed.Pairwise fun a b => b.cseq < a.cseq

instance (w : World) : Decidable w.InOrder :=
  inferInstanceAs (Decidable (w.processed.Pairwise fun a b => b.cseq < a.cseq))

/-- The request is checked against `remote_cseq`. -/
def Checks (S : SipStack) (w : World) (m : SipMessage) : Prop :=
  w.provider.getListener m = some .dialog ∧ isAlt S m = false

instance (w : World) (m : SipMessage) : Decidable (w.Checks S m) :=
  inferInstanceAs (Decidable (_ ∧ _))

/-- The requests that `remote_cseq` has missed, or all of them when it is not looked at. -/
def missed (S : SipStack) (w : World) (m : SipMessage) : List SipMessage :=
  if w.Checks S m then w.processed.filter fun m' => w.dlg.info.remoteCSeq < m'.cseq
  else w.processed

/-- A request that is taken is above the ones that the check does not see. -/
def Rises (S : SipStack) (w : World) (e : Event) : Prop :=
  ∀ m ∈ w.taken S e, ∀ m' ∈ w.missed S m, m'.cseq < m.cseq

instance (w : World) (e : Event) : Decidable (Rises S w e) :=
  inferInstanceAs (Decidable (∀ m ∈ w.taken S e, ∀ m' ∈ w.missed S m, m'.cseq < m.cseq))

/-- What the check says. -/
theorem remoteCSeq_lt_of_checks {w : World} {e : Event} {m : SipMessage}
    (htaken : w.taken S e = some m) (hchecks : w.Checks S m) :
    w.dlg.info.remoteCSeq < m.cseq := by
  obtain ⟨hlistener, halt⟩ := hchecks
  have htakes : w.takes S m = true := by
    cases e with
    | recv m' =>
      unfold taken at htaken
      dsimp only at htaken
      split at htaken
      · next h =>
        rw [← Option.some.inj htaken]
        exact h.2
      · cases htaken
    | _ => cases htaken
  unfold takes at htakes
  rw [hlistener] at htakes
  dsimp only at htakes
  unfold dialogTakes at htakes
  rw [halt, Bool.false_or, Bool.and_eq_true, Bool.and_eq_true] at htakes
  obtain ⟨⟨hfresh, -⟩, huse⟩ := htakes
  have hmethod : (m.is .ack || m.is .cancel) = false := by
    unfold hasUse at huse
    unfold SipMessage.is
    split at huse <;> simp_all
  unfold tooLate at hfresh
  rw [hmethod] at hfresh
  simpa using hfresh

/-- One event keeps the order exactly when it rises. -/
theorem inOrder_step {w : World} (h : w.Posted) (hw : w.InOrder) (e : Event) :
    (w.step S e).InOrder ↔ Rises S w e := by
  unfold InOrder at hw ⊢
  unfold Rises
  rw [processed_step h]
  cases htaken : w.taken S e with
  | none => exact iff_of_true hw fun m hm => nomatch hm
  | some m =>
    show (m :: w.processed).Pairwise _ ↔ ∀ m' ∈ some m, _
    rw [List.pairwise_cons, and_iff_left hw]
    constructor
    · intro habove m' hm'
      rw [← Option.some.inj hm']
      unfold missed
      split
      · exact fun p hp => habove p (List.mem_of_mem_filter hp)
      · exact habove
    · intro hrises p hp
      have hmissed := hrises m rfl p
      unfold missed at hmissed
      split at hmissed
      · next hchecks =>
        have hlt := remoteCSeq_lt_of_checks htaken hchecks
        by_cases hseen : w.dlg.info.remoteCSeq < p.cseq
        · exact hmissed (List.mem_filter.mpr ⟨hp, by simpa using hseen⟩)
        · omega
      · exact hmissed hp

theorem Start.inOrder {w : World} (hw : Start S w) : w.InOrder := by
  cases hw with
  | init => exact .nil
  | ofInvite invite =>
    have hprocessed := processed_onReceivedMessage (S := S) (posted_init S).tidy invite.1
    unfold InOrder World.ofInvite
    rw [hprocessed]
    split
    · exact List.pairwise_singleton ..
    · exact .nil

/-- What was processed stays in the list. -/
theorem processed_suffix_run {w : World} (h : w.Posted) (es : List Event) :
    w.processed <:+ (run (step S) w es).processed := by
  induction es generalizing w with
  | nil => exact List.suffix_rfl
  | cons e es ih =>
    have hstep : w.processed <:+ (w.step S e).processed := by
      rw [processed_step h]
      exact List.suffix_append ..
    exact hstep.trans (ih (posted_step h e))

/-- **The requests of a run are processed in order exactly when every event rises.** -/
theorem processed_inOrder_iff {w : World} (hw : Start S w) (es : List Event) :
    (run (step S) w es).InOrder ↔ Meets (step S) (Rises S) w es := by
  have hruns : Meets (step S) (Rises S) w es ↔ ∀ fs, fs <+: es →
      (run (step S) w fs).Posted ∧ (run (step S) w fs).InOrder := by
    refine meets_iff_forall_prefix (I := fun w => Posted w ∧ InOrder w) ?_
      ⟨hw.posted, hw.inOrder⟩ es
    rintro w e ⟨hposted, horder⟩
    rw [and_iff_right (posted_step hposted e)]
    exact inOrder_step hposted horder e
  rw [hruns]
  constructor
  · rintro horder fs ⟨gs, rfl⟩
    have hposted : (run (step S) w fs).Posted :=
      run_invariant (I := Posted) (fun _ e h => posted_step h e) fs hw.posted
    rw [run_append] at horder
    exact ⟨hposted, horder.sublist (processed_suffix_run hposted gs).sublist⟩
  · exact fun h => (h es List.prefix_rfl).2

/-- Two INFOs of alice while bob is ringing. -/
def sampleInfos (first second : ℤ) : List Event :=
  [.ret, .api .ring, .recv (sampleRequest .info first (some "tag") "2"),
    .recv (sampleRequest .info second (some "tag") "3")]

/-- In order. -/
theorem processed_inOrder_infos :
    (run (step {}) (ofInvite {} sampleInvite) (sampleInfos 2 3)).InOrder :=
  (processed_inOrder_iff (.ofInvite sampleInvite) (sampleInfos 2 3)).mpr (by decide +kernel)

/-- **A request that is too late is processed**: the INFO before it did not move
`remote_cseq`. -/
theorem processed_tooLate :
    ¬ ∀ (S : SipStack) (w : World), Start S w → ∀ es : List Event,
      (run (step S) w es).InOrder := by
  intro h
  have horder := h {} _ (.ofInvite sampleInvite) (sampleInfos 3 2)
  exact absurd horder (by decide +kernel)

end World
end SoftPhone
