import SoftPhone.Dialog.Callbacks

/-!
# What a call of the user can do

The public methods come down to a dozen moves.  A method that makes its message and
the one that is given the message end in the same one.
-/

namespace SoftPhone
namespace World

variable {S : SipStack}

/-- The calls that send a request in any state, and that here would find what they send
it from. -/
def SendsAnyway (w : World) : Api → Prop
  | .confirm2xxWithAnswer _ _ => w.dlg.inv2xxResp.isSome
  | .confirm2xxWithAck _ => True
  | .confirm1xx resp _ _ =>
    resp.1.rseq.isSome ∧ w.dlg.info.remoteName.isSome ∧ w.dlg.info.localName.isSome
  | .confirm1xxMessage prack => prack.is .prack = true
  | _ => False

instance (w : World) : DecidablePred w.SendsAnyway := fun a => by
  unfold SendsAnyway
  split <;> infer_instance

/-- What a call of the user can do. -/
inductive Called (S : SipStack) (w : World) : Api → World → Prop where
  | serves {a : Api} {w' : World} (h : Serves w w') : Called S w a w'
  | listens {w' : World} (hw : w.status = .init) (h : Moves w w')
      (hstatus : w'.status = .waiting) : Called S w .listen w'
  /-- A flag is cleared and nothing else, since the method failed. -/
  | withoutOffer {a : Api} {w' : World} (h : Serves w.withoutOffer w') : Called S w a w'
  /-- An INVITE is sent. -/
  | invites {a : Api} {w₁ : World} {req : SipMessage} (hw : w.status = .init)
      (h : Serves w w₁ ∨ Serves w.withoutOffer w₁) (hreq : req.cseqMethod = .invite) :
      Called S w a ((w₁.changeStatus .inviting).sendInvite S req)
  /-- A re-INVITE is sent. -/
  | reInvites {a : Api} {w₁ : World} {req : SipMessage} (hw : w.status = .call)
      (h : Serves w w₁ ∨ Serves w.withoutOffer w₁) (hreq : req.cseqMethod = .invite) :
      Called S w a ((w₁.changeStatus .reInviting).sendInvite S req)
  /-- A final response is passed for the pending INVITE. -/
  | answers {a : Api} {w' : World} {resp : SipMessage} (h : Answers w resp w') :
      Called S w a w'
  /-- An ACK is sent with the answer to the offer of the kept 2xx. -/
  | confirms {contact : Option NameAddress} {sdp : String} {w₁ : World} {resp ack : SipMessage}
      (h : Serves w w₁) (hresp : w.dlg.inv2xxResp = some resp)
      (hack : ack.requestMethod = some .ack ∧ ack.cseq = resp.cseq) :
      Called S w (.confirm2xxWithAnswer contact sdp) (w₁.confirm2xx ack)
  | confirmsWith {ack : Request .ack} : Called S w (.confirm2xxWithAck ack) (w.confirm2xx ack)
  /-- A PRACK is sent. -/
  | pracks {a : Api} {w₁ : World} {prack : SipMessage} (h : Serves w w₁) (ha : w.SendsAnyway a)
      (hprack : prack.requestMethod = some .prack) : Called S w a (w₁.startClient S prack false)
  /-- A BYE is sent. -/
  | byes {a : Api} {w₁ : World} {req : SipMessage} (hw : w.status = .call) (h : Serves w w₁)
      (hreq : req.requestMethod = some .bye ∧ req.cseqMethod = .bye) :
      Called S w a ((w₁.changeStatus .byeing).startClient S req true)
  /-- A CANCEL is sent. -/
  | cancels {a : Api} {req : SipMessage} (hw : w.status.IsInviting)
      (hreq : req.requestMethod = some .cancel)
      (ha : a = .cancel ∨ ∃ c, a = .cancelMessage c) :
      Called S w a (w.startClient S req false)
  /-- The INVITE was not even answered provisionally, and its client is dropped. -/
  | abandons {a : Api} (hw : w.status.IsInviting) (htc : w.inviteTcProceeding = false)
      (ha : a = .cancel ∨ ∃ c, a = .cancelMessage c) :
      Called S w a (w.onInviteClient w.dlg.inviteTc (·.terminate))
  /-- An INFO is sent in D_CALL, an UPDATE in an early or confirmed state. -/
  | requests {a : Api} {w₁ : World} {req : SipMessage} (h : Serves w w₁)
      (hw : w.status = .call ∧ req.cseqMethod = .info ∨
        (w.status.isEarly || w.status.isConfirmed) = true ∧ req.cseqMethod = .update)
      (hreq : req.requestMethod = some req.cseqMethod) :
      Called S w a (w₁.startClient S req true)
  | terminates : Called S w .terminate w.terminate

theorem moves_listen {w : World} (hw : w.status = .init) :
    Moves w (w.listen S) ∧ (w.listen S).status = .waiting := by
  unfold listen
  rw [if_pos hw]
  extract_lets r w₁
  have h₁ : Moves w w₁ := (moves_changeStatus w .waiting).trans (serves_setInviteTs ..).toMoves
  have hnew : Serves w₁ { w₁ with inviteServers := w₁.inviteServers.new (.newListening S true) } :=
    serves_of_log rfl rfl rfl rfl rfl rfl
  exact ⟨h₁.trans (hnew.trans (serves_onInviteServer ..)).toMoves, rfl⟩

theorem called_listen (w : World) : Called S w .listen (w.listen S) := by
  by_cases hw : w.status = .init
  · exact .listens hw (moves_listen hw).1 (moves_listen hw).2
  · have hstay : w.listen S = w := by
      unfold listen
      rw [if_neg hw]
    rw [hstay]
    exact .serves (.refl w)

/-- `withoutOffer` leaves the state alone. -/
theorem status_withoutOffer (w : World) : w.withoutOffer.status = w.status := rfl

theorem status_of_serves_or {w w₁ : World} (h : Serves w w₁ ∨ Serves w.withoutOffer w₁) :
    w₁.status = w.status :=
  h.elim Serves.status Serves.status

/-- The header fields that `invite` adds do not change the method. -/
theorem cseqMethod_decorateInvite (d : InviteDialog) (invite : SipMessage) :
    (decorateInvite S d invite).cseqMethod = invite.cseqMethod := by
  unfold decorateInvite
  dsimp only
  split <;> split <;> split <;> rfl

theorem called_invite {w w₁ : World} {a : Api} {req : SipMessage}
    (h : Serves w w₁ ∨ Serves w.withoutOffer w₁) (hreq : req.cseqMethod = .invite) :
    Called S w a (w₁.invite S req) := by
  unfold invite
  split
  · next hw =>
    exact .invites ((status_of_serves_or h).symm.trans hw) h
      ((cseqMethod_decorateInvite ..).trans hreq)
  · exact h.elim .serves .withoutOffer

theorem called_inviteTarget (w : World) (target fromName : NameAddress)
    (contact : Option NameAddress) (sdp : String) :
    Called S w (.invite target fromName contact sdp)
      (w.inviteTarget S target fromName contact sdp) := by
  unfold inviteTarget
  split
  · refine called_invite (.inl ?_) rfl
    exact serves_of_log rfl rfl rfl rfl rfl rfl
  · exact .serves (.refl w)

/-- A request that the dialog makes of itself has the method it was made for. -/
theorem method_of_create {w w₁ : World} {method : Method} {contentType body : Option String}
    {req : SipMessage}
    (hcreate : w.create S (fun branch info =>
      createDialogRequest branch info method contentType body) = some (req, w₁)) :
    req.requestMethod = some method ∧ req.cseqMethod = method := by
  obtain ⟨p, hp, heq⟩ := Option.map_eq_some_iff.mp hcreate
  have hmethod := createDialogRequest_method hp
  cases heq
  exact hmethod

theorem called_reInvite {w w₁ : World} {a : Api} {req : SipMessage}
    (h : Serves w w₁ ∨ Serves w.withoutOffer w₁) (hreq : req.cseqMethod = .invite) :
    Called S w a (w₁.reInvite S req) := by
  unfold reInvite
  split
  · next hw => exact .reInvites ((status_of_serves_or h).symm.trans hw) h hreq
  · exact h.elim .serves .withoutOffer

theorem called_reInviteOffer {w w₁ : World} {a : Api} (contact : Option NameAddress)
    (sdp : String) (h : w₁ = w ∨ w₁ = w.withoutOffer) :
    Called S w a (w₁.reInviteOffer S contact sdp) := by
  have hrefl : Serves w w₁ ∨ Serves w.withoutOffer w₁ := by
    rcases h with rfl | rfl
    · exact .inl (.refl _)
    · exact .inr (.refl _)
  unfold reInviteOffer
  split
  · split
    · exact hrefl.elim .serves .withoutOffer
    · next req w₂ hcreate =>
      have h₂ := serves_create hcreate
      exact called_reInvite (hrefl.imp (·.trans h₂) (·.trans h₂)) (method_of_create hcreate).2
  · exact hrefl.elim .serves .withoutOffer

theorem called_respond (hS : S.extended = false) (w : World) (a : Api) (resp : SipMessage) :
    Called S w a (w.respond S resp) :=
  (respond_cases hS w resp).elim .serves .answers

theorem called_respondCode (hS : S.extended = false) (w : World) (a : Api) (code : ℤ)
    (contact : Option NameAddress) (contentType body : Option String) :
    Called S w a (w.respondCode S code contact contentType body) := by
  unfold respondCode
  split
  · split
    · exact .serves (.refl w)
    · exact called_respond hS w a _
  · exact .serves (.refl w)

theorem called_confirm2xxWithAnswer (w : World) (contact : Option NameAddress) (sdp : String) :
    Called S w (.confirm2xxWithAnswer contact sdp) (w.confirm2xxWithAnswer S contact sdp) := by
  unfold confirm2xxWithAnswer
  extract_lets w₁
  have h₁ : Serves w w₁ := by
    unfold w₁
    split
    · exact .refl w
    · exact serves_setLocalContact ..
  split
  · exact .serves h₁
  · next resp hresp =>
    split
    · exact .serves h₁
    · next ack w₂ hcreate =>
      have h₂ := serves_create hcreate
      obtain ⟨p, hp, heq⟩ := Option.map_eq_some_iff.mp hcreate
      have hspec := create2xxAckRequest_spec hp
      cases heq
      exact .confirms (h₁.trans h₂) (h₁.inv2xxResp.symm.trans hresp) hspec

/-- What a PRACK is made from. -/
theorem createPrackRequest_of_eq_some {branch : String} {d : DialogInfo} {resp : SipMessage}
    {contentType body : Option String} {p : SipMessage × DialogInfo}
    (h : createPrackRequest branch d resp contentType body = some p) :
    resp.rseq.isSome ∧ d.remoteName.isSome ∧ d.localName.isSome := by
  unfold createPrackRequest at h
  split at h
  · cases h
  · next hrseq =>
    obtain ⟨q, hq, -⟩ := Option.map_eq_some_iff.mp h
    obtain ⟨hto, hfrom, -⟩ := createDialogRequest_info hq
    exact ⟨by rw [hrseq]; rfl, hto, hfrom⟩

theorem called_confirm1xxOf (w : World) (resp : Response) (contentType body : Option String) :
    Called S w (.confirm1xx resp contentType body) (w.confirm1xxOf S resp contentType body) := by
  unfold confirm1xxOf
  split
  · exact .serves (.refl w)
  · next prack w₁ hcreate =>
    have h₁ := serves_create hcreate
    unfold confirm1xx
    split
    · next hprack =>
      obtain ⟨p, hp, -⟩ := Option.map_eq_some_iff.mp hcreate
      exact .pracks h₁ (createPrackRequest_of_eq_some hp) (by simpa [SipMessage.is] using hprack)
    · exact .serves h₁

theorem called_confirm1xx (w : World) (prack : SipMessage) :
    Called S w (.confirm1xxMessage prack) (w.confirm1xx S prack) := by
  unfold confirm1xx
  split
  · next hprack =>
    exact .pracks (.refl w) hprack (by simpa [SipMessage.is] using hprack)
  · exact .serves (.refl w)

theorem called_byeMessage {w w₁ : World} {a : Api} {req : SipMessage} (h : Serves w w₁)
    (hreq : req.requestMethod = some .bye ∧ req.cseqMethod = .bye) :
    Called S w a (w₁.byeMessage S req) := by
  unfold byeMessage
  split
  · next hw => exact .byes (h.status ▸ hw) h hreq
  · exact .serves h

theorem called_bye (w : World) : Called S w .bye (w.bye S) := by
  unfold bye
  split
  · split
    · exact .serves (.refl w)
    · next req w₁ hcreate =>
      have h₁ := serves_create hcreate
      obtain ⟨p, hp, heq⟩ := Option.map_eq_some_iff.mp hcreate
      obtain ⟨q, hq, rfl⟩ := Option.map_eq_some_iff.mp hp
      have hmethod := createDialogRequest_method hq
      cases heq
      exact called_byeMessage h₁ hmethod
  · exact .serves (.refl w)

theorem called_cancelMessage {w : World} {a : Api} {req : SipMessage}
    (hreq : req.requestMethod = some .cancel)
    (ha : a = .cancel ∨ ∃ c, a = .cancelMessage c) :
    Called S w a (w.cancelMessage S req) := by
  unfold cancelMessage
  split
  · next hw =>
    split
    · exact .cancels hw hreq ha
    · next htc => exact .abandons hw (by simpa using htc) ha
  · split
    · exact .serves (serves_onInviteServer ..)
    · exact .serves (.refl w)

theorem called_cancel (w : World) : Called S w .cancel (w.cancel S) := by
  unfold cancel
  split
  · next hw =>
    split
    · split
      · exact .serves (.refl w)
      · next req hbind =>
        obtain ⟨invite, -, hcancel⟩ := Option.bind_eq_some_iff.mp hbind
        obtain ⟨contact, -, rfl⟩ := Option.map_eq_some_iff.mp hcancel
        exact called_cancelMessage rfl (.inl rfl)
    · next htc => exact .abandons hw (by simpa using htc) (.inl rfl)
  · split
    · exact .serves (serves_onInviteServer ..)
    · exact .serves (.refl w)

theorem called_infoMessage {w w₁ : World} {a : Api} {req : SipMessage} (h : Serves w w₁)
    (hreq : req.requestMethod = some .info ∧ req.cseqMethod = .info) :
    Called S w a (w₁.infoMessage S req) := by
  unfold infoMessage
  split
  · next hw => exact .requests h (.inl ⟨h.status ▸ hw, hreq.2⟩) (hreq.1.trans (by rw [hreq.2]))
  · exact .serves h

theorem called_info (w : World) (contentType body : Option String) :
    Called S w (.info contentType body) (w.info S contentType body) := by
  unfold info
  split
  · split
    · exact .serves (.refl w)
    · next req w₁ hcreate =>
      exact called_infoMessage (serves_create hcreate) (method_of_create hcreate)
  · exact .serves (.refl w)

theorem called_updateMessage {w w₁ : World} {a : Api} {req : SipMessage} (h : Serves w w₁)
    (hreq : req.requestMethod = some .update ∧ req.cseqMethod = .update) :
    Called S w a (w₁.updateMessage S req) := by
  unfold updateMessage
  split
  · next hw => exact .requests h (.inr ⟨h.status ▸ hw, hreq.2⟩) (hreq.1.trans (by rw [hreq.2]))
  · exact .serves h

theorem called_update (w : World) (contact : Option NameAddress) (sdp : String) :
    Called S w (.update contact sdp) (w.update S contact sdp) := by
  unfold update
  split
  · split
    · exact .serves (.refl w)
    · next req w₁ hcreate =>
      have hmethod := method_of_create hcreate
      exact called_updateMessage (serves_create hcreate) hmethod
  · exact .serves (.refl w)

theorem called_respondUpdate (hS : S.extended = false) (w : World) (a : Api) (code : ℤ)
    (sdp : Option String) : Called S w a (w.respondUpdate S code sdp) := by
  unfold respondUpdate
  split
  · exact .serves (.refl w)
  · exact called_respond hS w a _

/-- Each call of the user does server work or one of the moves above. -/
theorem called_call (hS : S.extended = false) (w : World) (a : Api) :
    Called S w a (w.call S a) := by
  have hserves {a : Api} : Called S w a w := .serves (.refl w)
  cases a with
  | setSupportedExtensions tags => exact .serves (serves_of_dlg rfl rfl rfl rfl rfl rfl)
  | setRequiredExtensions tags => exact .serves (serves_of_dlg rfl rfl rfl rfl rfl rfl)
  | listen => exact called_listen w
  | invite target fromName contact sdp => exact called_inviteTarget ..
  | inviteMessage invite => exact called_invite (.inl (.refl w)) invite.2.2
  | inviteWithoutOffer => exact .withoutOffer (.refl _)
  | inviteMessageWithoutOffer invite => exact called_invite (.inr (.refl _)) invite.2.2
  | reInvite contact sdp => exact called_reInviteOffer contact sdp (.inl rfl)
  | reInviteMessage invite => exact called_reInvite (.inl (.refl w)) invite.2.2
  | reInviteWithoutOffer contact sdp => exact called_reInviteOffer contact sdp (.inr rfl)
  | reInviteMessageWithoutOffer invite => exact called_reInvite (.inr (.refl _)) invite.2.2
  | ring => exact called_respondCode hS ..
  | accept contact sdp => exact called_respondCode hS ..
  | refuse => exact called_respondCode hS ..
  | refuseWith code => exact called_respondCode hS ..
  | redirect code contact => exact called_respondCode hS ..
  | respond code contact contentType body => exact called_respondCode hS ..
  | respondMessage resp => exact called_respond hS ..
  | confirm2xxWithAnswer contact sdp => exact called_confirm2xxWithAnswer ..
  | confirm2xxWithAck ack => exact .confirmsWith
  | confirm1xx resp contentType body => exact called_confirm1xxOf ..
  | confirm1xxMessage prack => exact called_confirm1xx ..
  | bye => exact called_bye w
  | byeMessage bye => exact called_byeMessage (.refl w) bye.2
  | cancel => exact called_cancel w
  | cancelMessage cancel => exact called_cancelMessage cancel.2.1 (.inr ⟨cancel, rfl⟩)
  | info contentType body => exact called_info ..
  | infoMessage req => exact called_infoMessage (.refl w) req.2
  | update contact sdp => exact called_update ..
  | updateMessage req => exact called_updateMessage (.refl w) req.2
  | acceptUpdate sdp => exact called_respondUpdate hS ..
  | refuseUpdate => exact called_respondUpdate hS w _ 504 none
  | terminate => exact .terminates
  | request req =>
    simp only [call, request, hS]
    exact hserves
  | refer referTo referredBy =>
    simp only [call, requestWith, hS]
    exact hserves
  | notify sipfragment =>
    simp only [call, requestWith, hS]
    exact hserves
  | acceptRefer req =>
    simp only [call, respondRefer, hS]
    exact hserves
  | refuseRefer req =>
    simp only [call, respondRefer, hS]
    exact hserves

end World
end SoftPhone
