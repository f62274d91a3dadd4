import SoftPhone.Dialog.Spec

/-!
# What the callbacks can do

The same for the callbacks that the transactions make, and for the code that is left
on the stack.
-/

namespace SoftPhone

namespace DialogInfo

/-- After an update as transaction client both names are known. -/
theorem names_update_client (d : DialogInfo) (m : SipMessage) :
    (d.update true m).remoteName.isSome ∧ (d.update true m).localName.isSome := by
  have hcontact (d : DialogInfo) (b : Bool) (m : SipMessage) :
      (d.updateContact b m).remoteName = d.remoteName ∧
        (d.updateContact b m).localName = d.localName := by
    unfold updateContact
    split
    · exact ⟨rfl, rfl⟩
    · split <;> exact ⟨rfl, rfl⟩
  have hroute (d : DialogInfo) (m : SipMessage) :
      (d.updateRouteClient m).remoteName = d.remoteName ∧
        (d.updateRouteClient m).localName = d.localName := by
    unfold updateRouteClient
    dsimp only
    split <;> split <;> exact ⟨rfl, rfl⟩
  have hsecure (d : DialogInfo) (m : SipMessage) :
      (d.updateSecure m).remoteName = d.remoteName ∧
        (d.updateSecure m).localName = d.localName := by
    unfold updateSecure
    split <;> exact ⟨rfl, rfl⟩
  simp only [update, if_true, hsecure, hroute, hcontact, updateNamesClient]
  constructor
  · cases d.remoteName <;> rfl
  · cases d.localName <;> rfl

end DialogInfo

/-- A dialog that knows both names can make an ACK. -/
theorem create2xxAckRequest_eq_some (branch : String) {d : DialogInfo} (resp : SipMessage)
    (contentType body : Option String) (hremote : d.remoteName.isSome)
    (hlocal : d.localName.isSome) :
    ∃ p, create2xxAckRequest branch d resp contentType body = some p := by
  obtain ⟨toName, hto⟩ := Option.isSome_iff_exists.mp hremote
  obtain ⟨fromName, hfrom⟩ := Option.isSome_iff_exists.mp hlocal
  simp [create2xxAckRequest, createDialogRequest, hto, hfrom]

/-- The route set does not change what kind of request it is. -/
theorem SipMessage.requestMethod_rfc2543RouteAdapt (m : SipMessage) :
    m.rfc2543RouteAdapt.requestMethod = m.requestMethod := by
  unfold SipMessage.rfc2543RouteAdapt
  split
  · next hline _ =>
    split
    · rfl
    · simp [SipMessage.requestMethod, hline]
  · rfl

theorem SipMessage.cseqMethod_rfc2543RouteAdapt (m : SipMessage) :
    m.rfc2543RouteAdapt.cseqMethod = m.cseqMethod := by
  unfold SipMessage.rfc2543RouteAdapt
  split
  · split <;> rfl
  · rfl

/-- A request made in the dialog has the method it was made for. -/
theorem createDialogRequest_method {branch : String} {d : DialogInfo} {method : Method}
    {contentType body : Option String} {p : SipMessage × DialogInfo}
    (h : createDialogRequest branch d method contentType body = some p) :
    p.1.requestMethod = some method ∧ p.1.cseqMethod = method := by
  unfold createDialogRequest at h
  split at h
  · rw [← Option.some.inj h]
    constructor
    · rw [SipMessage.requestMethod_rfc2543RouteAdapt]
      rfl
    · rw [SipMessage.cseqMethod_rfc2543RouteAdapt]
      rfl
  · cases h

/-- What a request in the dialog is made from, and what becomes of the dialog's information. -/
theorem createDialogRequest_info {branch : String} {d : DialogInfo} {method : Method}
    {contentType body : Option String} {p : SipMessage × DialogInfo}
    (h : createDialogRequest branch d method contentType body = some p) :
    d.remoteName.isSome ∧ d.localName.isSome ∧
      p.2 = if method = .ack ∨ method = .cancel then d
        else { d with localCSeq := d.localCSeq + 1 } := by
  unfold createDialogRequest at h
  split at h
  · next hto hfrom =>
    rw [← Option.some.inj h, hto, hfrom]
    exact ⟨rfl, rfl, rfl⟩
  · cases h

/-- An ACK for a 2xx is an ACK with its sequence number. -/
theorem create2xxAckRequest_spec {branch : String} {d : DialogInfo} {resp : SipMessage}
    {contentType body : Option String} {p : SipMessage × DialogInfo}
    (h : create2xxAckRequest branch d resp contentType body = some p) :
    p.1.requestMethod = some .ack ∧ p.1.cseq = resp.cseq := by
  obtain ⟨q, hq, rfl⟩ := Option.map_eq_some_iff.mp h
  exact ⟨(createDialogRequest_method hq).1, rfl⟩

namespace World

variable {S : SipStack}

/-! ## Client transactions -/

/-- A reliable provisional response that was not seen before. -/
def FreshReliable (w : World) (m : SipMessage) : Prop :=
  m.requires otag100rel = true ∧
    ∃ rseq ∈ m.rseq, w.dlg.info.lastRSeq < 0 ∨ w.dlg.info.lastRSeq < rseq

instance (w : World) (m : SipMessage) : Decidable (w.FreshReliable m) :=
  inferInstanceAs (Decidable (_ ∧ _))

/-- The dialog waits for the INVITE or the BYE that the callback reports the end of. -/
def Settles (w : World) (method : Method) : ClientCallback → Prop
  | .onTransProvisionalResponse _ => False
  | .onTransSuccessResponse m =>
    method = .invite ∧ w.status.IsInviting ∧ 200 ≤ m.code ∧ m.code < 300 ∧
        m.cseqMethod = .invite ∨
      method = .bye ∧ w.status = .byeing
  | .onTransFailureResponse _ | .onTransTimeout =>
    method = .invite ∧ w.status.IsInviting ∨ method = .bye ∧ w.status = .byeing

/-- The dialog waits for an INVITE or a BYE only. -/
theorem not_settles {w : World} {method : Method} {c : ClientCallback} (hinvite : method ≠ .invite)
    (hbye : method ≠ .bye) : ¬ w.Settles method c := by
  cases c with
  | onTransProvisionalResponse m => exact id
  | onTransSuccessResponse m =>
    rintro (h | h)
    · exact hinvite h.1
    · exact hbye h.1
  | _ =>
    rintro (h | h)
    · exact hinvite h.1
    · exact hbye h.1

/-- What a callback of a client transaction with the method `method` can do. -/
inductive Notifies (S : SipStack) (w : World) (method : Method) :
    ClientCallback → World → Prop where
  | serves {c : ClientCallback} {w' : World} (h : Serves w w') (hidle : ¬ w.Settles method c) :
      Notifies S w method c w'
  /-- A PRACK is sent automatically. -/
  | pracks {m prack : SipMessage} {w₁ : World} (hauto : S.autoPrack = true)
      (hm : method = .invite) (hfresh : w.FreshReliable m) (h : Serves w w₁)
      (hprack : prack.requestMethod = some .prack) :
      Notifies S w method (.onTransProvisionalResponse m)
        ((w₁.startClient S prack false).fire (.onDlgInviteReliableProvisionalResponse m))
  /-- A failed re-INVITE or BYE: the call stands. -/
  | fails {m : SipMessage} {c : DialogCallback}
      (hw : method = .invite ∧ w.status = .reInviting ∨ method = .bye ∧ w.status = .byeing)
      (hc : c.IsNeutral) :
      Notifies S w method (.onTransFailureResponse m) ((w.changeStatus .call).fire c)
  /-- A failed or timed-out INVITE, an answered BYE: the dialog is closed. -/
  | closes {c : ClientCallback} {c' : DialogCallback}
      (hw : method = .invite ∧ w.status.IsInviting ∨ method = .bye ∧ w.status = .byeing)
      (hc : c'.IsNeutral) :
      Notifies S w method c (((w.changeStatus .close).suspend .fireDlgClosed).fire c')
  | byeTimeout (hm : method = .bye) (hw : w.status = .byeing) :
      Notifies S w method .onTransTimeout ((w.changeStatus .close).fire .onDlgClosed)
  /-- A 2xx for the INVITE is acknowledged. -/
  | acks {m ack : SipMessage} {w₁ : World} (hm : method = .invite) (hw : w.status.IsInviting)
      (hcode : 200 ≤ m.code ∧ m.code < 300) (hoffer : w.dlg.inviteOffer = true)
      (h : Moves w w₁) (hstatus : w₁.status = .call)
      (hack : ack.requestMethod = some .ack ∧ ack.cseq = m.cseq) :
      Notifies S w method (.onTransSuccessResponse m)
        ((w₁.sendAck ack).fireSuccess (w.status == .reInviting) m)
  /-- A 2xx for the INVITE is kept. -/
  | keeps {m : SipMessage} {w₁ : World} (hm : method = .invite) (hw : w.status.IsInviting)
      (hcode : 200 ≤ m.code ∧ m.code < 300) (hoffer : w.dlg.inviteOffer = false)
      (h : Moves w w₁) (hstatus : w₁.status = .call) :
      Notifies S w method (.onTransSuccessResponse m)
        ((w₁.setInv2xxResp m).fireSuccess (w.status == .reInviting) m)

theorem lastRSeq_updateDialogInfo (w : World) (isClient : Bool) (m : SipMessage) :
    (w.updateDialogInfo isClient m).dlg.info.lastRSeq = w.dlg.info.lastRSeq := by
  simp only [updateDialogInfo, InviteDialog.updateInfo]
  split
  · rfl
  · exact DialogInfo.update_lastRSeq ..

theorem reliableResponse_cases (w : World) (rseq : ℤ) (m : SipMessage) :
    Serves w (w.onReliableResponse S rseq m) ∨
      S.autoPrack = true ∧ ∃ w₁ prack, Serves w w₁ ∧ prack.requestMethod = some .prack ∧
        w.onReliableResponse S rseq m =
          (w₁.startClient S prack false).fire (.onDlgInviteReliableProvisionalResponse m) := by
  unfold onReliableResponse
  extract_lets _ _ w₁
  have h₁ : Serves w w₁ := serves_of_dlg rfl rfl rfl rfl rfl rfl
  have hfire : Serves w (w₁.fire (.onDlgInviteReliableProvisionalResponse m)) :=
    h₁.trans (serves_fire _ trivial)
  split
  · next hauto =>
    split
    · exact .inl h₁
    · next prack w₂ hcreate =>
      have h₂ : Serves w w₂ := h₁.trans (serves_create hcreate)
      unfold confirm1xx
      split
      · next hprack =>
        exact .inr ⟨hauto, w₂, prack, h₂, by simpa [SipMessage.is] using hprack, rfl⟩
      · exact .inl (h₂.trans (serves_fire _ trivial))
  · exact .inl hfire

theorem notifies_provisional (w : World) (method : Method) (m : SipMessage) :
    Notifies S w method (.onTransProvisionalResponse m)
      (w.onTransProvisionalResponse S method m) := by
  unfold onTransProvisionalResponse
  split
  · next hm =>
    extract_lets w₁
    have h₁ : Serves w w₁ := by
      unfold w₁
      split
      · exact serves_updateDialogInfo ..
      · exact .refl w
    have hlast : w₁.dlg.info.lastRSeq = w.dlg.info.lastRSeq := by
      unfold w₁
      split
      · exact lastRSeq_updateDialogInfo ..
      · rfl
    split
    · next rseq hreq hrseq =>
      split
      · next hfresh =>
        rcases reliableResponse_cases (S := S) w₁ rseq m with
          h | ⟨hauto, w₂, prack, h₂, hprack, heq⟩
        · exact .serves (h₁.trans h) id
        · rw [heq]
          exact .pracks hauto hm ⟨hreq, rseq, hrseq, hlast ▸ hfresh⟩ (h₁.trans h₂) hprack
      · exact .serves h₁ id
    · exact .serves (h₁.trans (serves_fire _ trivial)) id
  · exact .serves (.refl w) id

theorem notifies_failure (w : World) (method : Method) (m : SipMessage) :
    Notifies S w method (.onTransFailureResponse m)
      (w.inviteDialogOnTransFailureResponse method m) := by
  unfold inviteDialogOnTransFailureResponse
  split
  · unfold onInviteFailureResponse
    split
    · next hw => exact .fails (.inl ⟨rfl, hw⟩) trivial
    · next hre =>
      split
      · next hw => exact .closes (.inl ⟨rfl, .inl hw⟩) (by split <;> trivial)
      · next hin => exact .serves (.refl w) (by simp [Settles, Status.IsInviting, hre, hin])
  · split
    · exact .serves (serves_fire _ trivial) (by simp [Settles])
    · exact .serves (.refl w) (by simp [Settles])
  · split
    · next hw => exact .fails (.inr ⟨rfl, hw⟩) trivial
    · next hw => exact .serves (.refl w) (by simp [Settles, hw])
  · next hinvite _ hbye => exact .serves (.refl w) (not_settles hinvite hbye)

/-- A dialog in D_CALL that was just updated acknowledges the 2xx or keeps it. -/
theorem acknowledge_cases (w : World) (m : SipMessage) (hopen : w.status ≠ .close) :
    ∃ w', (w.updateDialogInfo true m).acknowledge S m = some w' ∧
      ((w.dlg.inviteOffer = true ∧ ∃ w₁ ack, Serves w w₁ ∧ w' = w₁.sendAck ack ∧
          ack.requestMethod = some .ack ∧ ack.cseq = m.cseq) ∨
        (w.dlg.inviteOffer = false ∧ ∃ w₁, Serves w w₁ ∧ w' = w₁.setInv2xxResp m)) := by
  have hupdate := serves_updateDialogInfo w true m
  unfold acknowledge
  rw [hupdate.inviteOffer]
  split
  · next hoffer =>
    have hinfo : (w.updateDialogInfo true m).dlg.info = w.dlg.info.update true m := by
      simp [updateDialogInfo, InviteDialog.updateInfo, hopen]
    have hnames := DialogInfo.names_update_client w.dlg.info m
    rw [← hinfo] at hnames
    obtain ⟨p, hp⟩ := create2xxAckRequest_eq_some
      (S.pickBranch (w.updateDialogInfo true m).provider.branches) m none none hnames.1 hnames.2
    have hcreate : (w.updateDialogInfo true m).create S
        (fun branch info => create2xxAckRequest branch info m none none) =
        some (p.1, { w.updateDialogInfo true m with
          dlg.info := p.2
          provider.branches := (w.updateDialogInfo true m).provider.branches + 1 }) := by
      simp [create, hp]
    rw [hcreate]
    exact ⟨_, rfl, .inl ⟨hoffer, _, _, hupdate.trans (serves_create hcreate), rfl,
      create2xxAckRequest_spec hp⟩⟩
  · next hoffer =>
    exact ⟨_, rfl, .inr ⟨by simpa using hoffer, _, hupdate, rfl⟩⟩

theorem notifies_inviteSuccess (w : World) (m : SipMessage) :
    Notifies S w .invite (.onTransSuccessResponse m) (w.onInviteSuccessResponse S m) := by
  unfold onInviteSuccessResponse
  split
  · next hw =>
    obtain ⟨hinviting, hlow, hhigh, -⟩ := hw
    have hmoves := moves_changeStatus w .call
    obtain ⟨w', hw', hcases⟩ := acknowledge_cases (S := S) (w.changeStatus .call) m
      (fun h : Status.call = .close => by cases h)
    simp only [hw']
    rcases hcases with ⟨hoffer, w₁, ack, h₁, rfl, hack⟩ | ⟨hoffer, w₁, h₁, rfl⟩
    · exact .acks rfl hinviting ⟨hlow, hhigh⟩ hoffer (hmoves.trans h₁.toMoves) h₁.status hack
    · exact .keeps rfl hinviting ⟨hlow, hhigh⟩ hoffer (hmoves.trans h₁.toMoves) h₁.status
  · next hw => exact .serves (.refl w) (by simpa [Settles, SipMessage.getTransactionMethod] using hw)

theorem notifies_success (w : World) (method : Method) (m : SipMessage) :
    Notifies S w method (.onTransSuccessResponse m)
      (w.inviteDialogOnTransSuccessResponse S method m) := by
  unfold inviteDialogOnTransSuccessResponse
  split
  · exact notifies_inviteSuccess w m
  · split
    · exact .serves ((serves_updateDialogInfo w true m).trans (serves_fire _ trivial))
        (by simp [Settles])
    · exact .serves (.refl w) (by simp [Settles])
  · split
    · next hw => exact .closes (.inr ⟨rfl, hw⟩) trivial
    · next hw => exact .serves (.refl w) (by simp [Settles, hw])
  · next hinvite _ hbye => exact .serves (.refl w) (not_settles hinvite hbye)

theorem notifies_timeout (w : World) (method : Method) :
    Notifies S w method .onTransTimeout (w.inviteDialogOnTransTimeout method) := by
  unfold inviteDialogOnTransTimeout
  split
  · split
    · next hw => exact .closes (.inl ⟨rfl, hw⟩) trivial
    · next hw => exact .serves (.refl w) (by simp [Settles, hw])
  · split
    · next hw => exact .byeTimeout rfl hw
    · next hw => exact .serves (.refl w) (by simp [Settles, hw])
  · next hinvite hbye => exact .serves (.refl w) (not_settles hinvite hbye)

theorem notifies_onClientCallback (hS : S.extended = false) (w : World) (req : SipMessage)
    (c : ClientCallback) :
    Notifies S w req.getTransactionMethod c (w.onClientCallback S req c) := by
  cases c with
  | onTransProvisionalResponse m => exact notifies_provisional w _ m
  | onTransSuccessResponse m =>
    simpa [onClientCallback, onTransSuccessResponse, hS] using notifies_success w _ m
  | onTransFailureResponse m =>
    simpa [onClientCallback, onTransFailureResponse, hS] using notifies_failure w _ m
  | onTransTimeout => exact notifies_timeout w _

/-! ## Server transactions -/

/-- What a callback of a server transaction can do. -/
inductive Served (w : World) : World → Prop where
  | serves {w' : World} (h : Serves w w') : Served w w'
  /-- The INVITE that a listening dialog waited for. -/
  | invited {w' : World} (hw : w.status = .waiting) (h : Moves w w')
      (hsome : w'.dlg.inviteReq.isSome) (hstatus : w'.status = .invited ∨ w'.status = .refused) :
      Served w w'
  /-- A CANCEL of the pending INVITE. -/
  | cancelled {w' : World} (hw : w.status.IsInvited) (h : Moves w w')
      (hstatus : w'.status = if w.status = .invited then .refused else .reRefused) : Served w w'
  /-- The ACK of a refused re-INVITE. -/
  | acked {w' : World} (hw : w.status = .reRefused) (h : Moves w w')
      (hstatus : w'.status = .call) : Served w w'
  /-- The ACK of a refused INVITE, or no ACK at all. -/
  | closes {w₁ : World} (hw : w.status.IsRefused ∨ w.status.IsAccepted) (h : Moves w w₁)
      (hstatus : w₁.status = .close) : Served w (w₁.fire .onDlgClosed)

theorem Served.of_serves {w w₁ w' : World} (h : Serves w w₁) (h' : Served w₁ w') :
    Served w w' := by
  cases h' with
  | serves h' => exact .serves (h.trans h')
  | invited hw h' hsome hstatus =>
    exact .invited (h.status ▸ hw) (h.toMoves.trans h') hsome hstatus
  | cancelled hw h' hstatus =>
    exact .cancelled (h.status ▸ hw) (h.toMoves.trans h') (h.status ▸ hstatus)
  | acked hw h' hstatus => exact .acked (h.status ▸ hw) (h.toMoves.trans h') hstatus
  | closes hw h' hstatus => exact .closes (h.status ▸ hw) (h.toMoves.trans h') hstatus

theorem served_onTransRequestInvite (hS : S.extended = false) (w : World) (m : SipMessage) :
    Served w (w.onTransRequestInvite S m) := by
  unfold onTransRequestInvite
  split
  · next hw =>
    extract_lets w₁ w₂
    have h₁ : Moves w w₁ := (serves_processed w m).toMoves.trans (moves_changeStatus ..)
    have h₂ : Serves w₁ w₂ := (serves_setInviteReq ..).trans (serves_updateDialogInfo ..)
    have hmoves : Moves w w₂ := h₁.trans h₂.toMoves
    have hsome : w₂.dlg.inviteReq.isSome := rfl
    have hstatus : w₂.status = .invited := h₂.status
    split
    · next resp hresp =>
      rcases respond_cases hS w₂ resp with h | h
      · exact .invited hw (hmoves.trans h.toMoves) (h.inviteReq hsome)
          (.inl (h.status.trans hstatus))
      · refine .invited hw (hmoves.trans h.moves) (h.moves.inviteReq hsome) (.inr ?_)
        rw [h.refused (by rw [code_processInviteMessage hresp]; decide), if_pos hstatus]
    · have hfire : Serves w₂ (w₂.fire (.onDlgInvite m)) := serves_fire _ trivial
      exact .invited hw (hmoves.trans hfire.toMoves) hsome (.inl hstatus)
  · exact .serves (.refl w)

theorem served_onTransRequestCancel (hS : S.extended = false) (w : World) (m : SipMessage) :
    Served w (w.onTransRequestCancel S m) := by
  unfold onTransRequestCancel
  split
  · next hw =>
    split
    · exact .serves (.refl w)
    · next invite _ =>
      rcases respond_cases hS w (createResponse S invite 487 none) with h | h
      · exact .serves (h.trans (serves_fire _ trivial))
      · refine .cancelled hw (h.moves.trans (serves_fire _ (c := .onDlgCancel m) trivial).toMoves) ?_
        exact h.refused (by rw [code_createResponse]; decide)
  · exact .serves (.refl w)

theorem served_onTransRequest (hS : S.extended = false) (w : World) (ts : Agent)
    (m : SipMessage) : Served w (w.onTransRequest S ts m) := by
  unfold onTransRequest
  split
  · exact served_onTransRequestInvite hS w m
  · extract_lets resp w₁
    have h₁ : Serves w w₁ := by
      unfold w₁
      split
      · exact serves_onInviteServer ..
      · exact serves_onCancelServer ..
      · exact serves_onServer ..
      · exact .refl w
    exact .of_serves h₁ (served_onTransRequestCancel hS w₁ m)
  · exact .serves (.refl w)

theorem served_onTransFailureAck (w : World) : Served w w.onTransFailureAck := by
  unfold onTransFailureAck
  split
  · next hw =>
    extract_lets w₁
    have h₁ : Serves w w₁ := serves_onCancelServer ..
    split
    · next hre =>
      exact .acked (h₁.status ▸ hre) (h₁.toMoves.trans (moves_changeStatus ..)) rfl
    · exact .closes (.inl hw) (h₁.toMoves.trans (moves_changeStatus ..)) rfl
  · exact .serves (.refl w)

theorem served_onServerCallback (hS : S.extended = false) (w : World) (ts : Agent)
    (c : ServerCallback) : Served w (w.onServerCallback S ts c) := by
  cases c with
  | onTransRequest m => exact served_onTransRequest hS w ts m
  | onTransFailureAck m => exact served_onTransFailureAck w

theorem served_onTransAckTimeout (w : World) : Served w w.onTransAckTimeout := by
  unfold onTransAckTimeout
  split
  · next hw => exact .closes hw.symm (moves_changeStatus ..) rfl
  · exact .serves (.refl w)

theorem serves_processTimeout (w : World) (n : TimerName) : Serves w (w.processTimeout n) := by
  unfold processTimeout
  split
  · exact .refl w
  · split
    · split
      · extract_lets w₁
        split
        · exact serves_setResponder ..
        · exact (serves_setResponder ..).trans (serves_onInviteServer ..)
      · exact .refl w
    · split
      · split
        · exact serves_setResponder ..
        · extract_lets w₁
          have h₁ : Serves w w₁ := serves_setResponder ..
          split
          · have hsuspend : Serves w₁ (w₁.suspend .afterResponderTimeout) :=
              serves_suspend _ trivial
            exact (h₁.trans hsuspend).trans (serves_fire _ trivial)
          · exact h₁.trans (serves_sendNextResponse w₁)
      · exact .refl w
    · exact .refl w

/-! ## After a callback -/

theorem serves_readSessionTimers (w : World) (m : SipMessage) :
    Serves w (w.readSessionTimers m) := by
  unfold readSessionTimers
  split
  · exact .refl w
  · exact serves_of_dlg rfl rfl rfl rfl rfl rfl

/-- Code of the server side that was left on the stack does server work. -/
theorem serves_resume (w : World) {rest : Rest} (h : rest.IsServing) :
    Serves w (w.resume rest) := by
  cases rest with
  | inviteServer r rest => exact serves_onInviteServer ..
  | sessionTimers m => exact serves_readSessionTimers w m
  | afterPrack => exact serves_afterPrack w
  | afterResponderTimeout => exact serves_sendNextResponse w
  | inviteClient r rest => cases h
  | client r rest => cases h
  | fireDlgCall => cases h
  | fireDlgClosed => cases h
  | closeAfterBye => cases h

end World
end SoftPhone
