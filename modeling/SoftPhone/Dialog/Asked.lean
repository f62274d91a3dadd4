import SoftPhone.Dialog.Calls
import SoftPhone.Dialog.Requests

/-!
# What a call of the user sends

`asked` reads off the state and the call whether a request is sent and where it comes
from.  A call starts a client transaction for a request of that origin, or it is silent
(`asked_call`).
-/

namespace SoftPhone

open Machine

namespace World

variable (S : SipStack)

/-- The origin of the request that a call of the user makes the dialog send. -/
def asked (w : World) : Api → Option Origin
  | .invite _ _ _ _ => if w.status = .init then some .opened else none
  | .inviteMessage invite | .inviteMessageWithoutOffer invite =>
    if w.status = .init then some (.given invite) else none
  | .reInvite _ _ | .reInviteWithoutOffer _ _ | .bye | .info _ _ =>
    if w.status = .call ∧ w.Named then some .made else none
  | .reInviteMessage invite | .reInviteMessageWithoutOffer invite =>
    if w.status = .call then some (.given invite) else none
  | .byeMessage bye => if w.status = .call then some (.given bye) else none
  | .infoMessage req => if w.status = .call then some (.given req) else none
  | .update _ _ =>
    if (w.status.isEarly || w.status.isConfirmed) ∧ w.Named then some .made else none
  | .updateMessage req =>
    if w.status.isEarly || w.status.isConfirmed then some (.given req) else none
  | .confirm1xx resp _ _ => if resp.1.rseq.isSome ∧ w.Named then some .made else none
  | .confirm1xxMessage prack => if prack.is .prack then some (.given prack) else none
  | .cancel =>
    if w.status.IsInviting ∧ w.inviteTcProceeding then
      (w.dlg.inviteReq.bind createCancelRequest).map .given
    else none
  | .cancelMessage cancel =>
    if w.status.IsInviting ∧ w.inviteTcProceeding then some (.given cancel) else none
  | .request req => if S.extended then some (.given req) else none
  | .refer _ _ | .notify _ => if S.extended ∧ w.Named then some .made else none
  | _ => none

variable {S}

/-! ## Requests made in the dialog -/

/-- A factory of requests that count. -/
def Numbers (factory : String → DialogInfo → Option (SipMessage × DialogInfo)) : Prop :=
  ∀ branch info p, factory branch info = some p →
    p.1.Counts ∧ p.1.cseq = info.localCSeq + 1 ∧ p.1.branch = some branch ∧
      p.2.localCSeq = info.localCSeq + 1 ∧ info.remoteName.isSome ∧ info.localName.isSome

theorem cseq_rfc2543RouteAdapt (m : SipMessage) :
    m.rfc2543RouteAdapt.cseq = m.cseq ∧ m.rfc2543RouteAdapt.branch = m.branch := by
  unfold SipMessage.rfc2543RouteAdapt
  split
  · split <;> exact ⟨rfl, rfl⟩
  · exact ⟨rfl, rfl⟩

theorem numbers_createDialogRequest (method : Method) (hmethod : method ≠ .ack ∧ method ≠ .cancel)
    (contentType body : Option String) :
    Numbers fun branch info => createDialogRequest branch info method contentType body := by
  intro branch info p hp
  have hm := (createDialogRequest_method hp).1
  have hcounts : p.1.Counts := by
    refine ⟨fun h => hmethod.1 ?_, fun h => hmethod.2 ?_⟩
    · rw [hm] at h
      exact Option.some.inj h
    · rw [hm] at h
      exact Option.some.inj h
  have hsome : createDialogRequest branch info method contentType body = some p := hp
  unfold createDialogRequest at hsome
  split at hsome
  · next hremote hlocal =>
    have hnot : ¬ (method = .ack ∨ method = .cancel) := fun h => h.elim hmethod.1 hmethod.2
    rw [← Option.some.inj hsome] at hcounts ⊢
    simp only [hnot, if_false] at hcounts ⊢
    refine ⟨hcounts, ?_, ?_, trivial, ?_, ?_⟩
    · rw [(cseq_rfc2543RouteAdapt _).1]
      rfl
    · rw [(cseq_rfc2543RouteAdapt _).2]
      rfl
    · rw [hremote]
      rfl
    · rw [hlocal]
      rfl
  · cases hsome

/-- Header fields that are added to a request. -/
theorem Numbers.map {factory : String → DialogInfo → Option (SipMessage × DialogInfo)}
    (h : Numbers factory) {f : DialogInfo → SipMessage × DialogInfo → SipMessage × DialogInfo}
    (hf : ∀ info p, (f info p).1.firstLine = p.1.firstLine ∧ (f info p).1.cseq = p.1.cseq ∧
      (f info p).1.branch = p.1.branch ∧ (f info p).2 = p.2) :
    Numbers fun branch info => (factory branch info).map (f info) := by
  intro branch info p hp
  obtain ⟨q, hq, rfl⟩ := Option.map_eq_some_iff.mp hp
  obtain ⟨hline, hcseq, hbranch, hinfo⟩ := hf info q
  have hq' := h branch info q hq
  rw [hcseq, hbranch, hinfo]
  refine ⟨?_, hq'.2⟩
  have hmethod : (f info q).1.requestMethod = q.1.requestMethod := by
    unfold SipMessage.requestMethod
    rw [hline]
  rw [SipMessage.Counts, hmethod]
  exact hq'.1

theorem numbers_createPrackRequest (resp : SipMessage) (contentType body : Option String) :
    Numbers fun branch info => createPrackRequest branch info resp contentType body := by
  unfold createPrackRequest
  split
  · intro branch info p hp
    cases hp
  · next rseq _ =>
    have hdialog := numbers_createDialogRequest .prack (by decide) contentType body
    exact hdialog.map (f := fun _ p =>
      ({ p.1 with rack := some ⟨rseq, resp.cseq, resp.cseqMethod⟩ }, p.2)) fun _ _ =>
      ⟨rfl, rfl, rfl, rfl⟩

theorem numbers_createByeRequest : Numbers createByeRequest := by
  have hdialog := numbers_createDialogRequest .bye (by decide) none none
  exact hdialog.map (f := fun _ p => ({ p.1 with expires := none, contact := none }, p.2))
    fun _ _ => ⟨rfl, rfl, rfl, rfl⟩

theorem numbers_createReferRequest (referTo : NameAddress) (referredBy : Option NameAddress) :
    Numbers fun branch info => createReferRequest branch info referTo referredBy := by
  have hdialog := numbers_createDialogRequest .refer (by decide) none none
  exact hdialog.map (f := fun info p => ({ p.1 with
      referTo := some referTo, referredBy := referredBy <|> info.localName }, p.2))
    fun _ _ => ⟨rfl, rfl, rfl, rfl⟩

theorem numbers_createNotifyRequest (event sipfragment : String) :
    Numbers fun branch info => createNotifyRequest branch info event sipfragment := by
  have hdialog := numbers_createDialogRequest .notify (by decide)
    (some "message/sipfrag;version=2.0") (some sipfragment)
  exact hdialog.map (f := fun _ p => ({ p.1 with expires := none, event := some event }, p.2))
    fun _ _ => ⟨rfl, rfl, rfl, rfl⟩

theorem still_create {w w' : World} {req : SipMessage}
    {factory : String → DialogInfo → Option (SipMessage × DialogInfo)} (hf : Numbers factory)
    (h : w.create S factory = some (req, w')) : Silent w w' := by
  obtain ⟨p, hp, heq⟩ := Option.map_eq_some_iff.mp h
  cases heq
  obtain ⟨-, -, -, hcseq, -⟩ := hf _ _ _ hp
  exact ⟨⟨.refl _ _, .refl _ _, by show _ ≤ p.2.localCSeq; omega, Nat.le_succ _,
    fun h => ⟨h, rfl, rfl⟩⟩, rfl, [], rfl, by simp⟩

/-- A request that is made in the dialog and then sent, perhaps with header fields added. -/
theorem starts_of_create {w w₁ w' : World} {req req' : SipMessage}
    {factory : String → DialogInfo → Option (SipMessage × DialogInfo)} (hf : Numbers factory)
    (h : w.create S factory = some (req, w₁)) (hline : req'.firstLine = req.firstLine)
    (hcseq : req'.cseq = req.cseq) (hbranch : req'.branch = req.branch)
    (hl : Launches req' w₁ w') :
    w.Named ∧ Starts S w.dlg.info.localCSeq (.made, req') w w' := by
  have hstill := still_create hf h
  obtain ⟨p, hp, heq⟩ := Option.map_eq_some_iff.mp h
  cases heq
  obtain ⟨hcounts, hnumber, hpicked, hnext, hnamed⟩ := hf _ _ _ hp
  have hle : p.2.localCSeq ≤ w'.dlg.info.localCSeq := hl.localCSeq
  have hlt : w.provider.branches + 1 ≤ w'.provider.branches := hl.branches
  refine ⟨hnamed, hstill.toStill.launches hl, hcseq.trans hnumber, fun _ => ?_, ?_, ?_⟩
  · show req'.cseq ≤ _
    omega
  · have hmethod : req'.requestMethod = p.1.requestMethod := by
      unfold SipMessage.requestMethod
      rw [hline]
    show req'.Counts ↔ True
    rw [SipMessage.Counts, hmethod]
    exact iff_true_intro hcounts
  · exact ⟨w.provider.branches, Nat.le_refl _, by omega, hbranch.trans hpicked⟩

/-! ## The start of a transaction -/

theorem launches_startClient (w : World) (req : SipMessage) (listener : Bool) :
    Launches req w (w.startClient S req listener) ∧ Calm w (w.startClient S req listener) :=
  ⟨⟨.inr ⟨.refl _ _, Heap.extends_new _ _⟩, Int.le_refl _, Nat.le_of_eq (branches_calls ..).symm,
    fun h => .inl ⟨h, rfl, rfl⟩⟩, rfl, _, SipProvider.log_calls .., not_isDelivery_of_sents⟩

theorem launches_startInviteClient (w : World) (req : SipMessage) :
    Launches req w (w.startInviteClient S req) ∧ Calm w (w.startInviteClient S req) :=
  ⟨⟨.inl ⟨Heap.extends_new _ _, .refl _ _⟩, Int.le_refl _, Nat.le_of_eq (branches_calls ..).symm,
    fun h => .inl ⟨h, rfl, rfl⟩⟩, rfl, _, SipProvider.log_calls .., not_isDelivery_of_sents⟩

theorem calm_changeStatus (w : World) (s : Status) : Calm w (w.changeStatus s) :=
  ⟨rfl, SipProvider.sents .dialog (w.statusCalls s), SipProvider.log_calls ..,
    not_isDelivery_of_sents⟩

/-- An INVITE or a re-INVITE. -/
theorem launches_sendInvite (w : World) (s : Status) (req : SipMessage) :
    Launches req w ((w.changeStatus s).sendInvite S req) ∧
      Calm w ((w.changeStatus s).sendInvite S req) := by
  set w₁ := ((w.changeStatus s).setInviteReq req).updateDialogInfo true req
  have hupdate := silent_updateDialogInfo ((w.changeStatus s).setInviteReq req) true req
  have hset : Calm (w.changeStatus s) ((w.changeStatus s).setInviteReq req) :=
    ⟨rfl, [], rfl, by simp⟩
  have hcalm : Calm w w₁ := ((calm_changeStatus w s).trans hset).trans hupdate.toCalm
  obtain ⟨hl, hc⟩ := launches_startInviteClient (S := S) (w₁.setInviteTc w₁.inviteClients.next) req
  refine ⟨⟨.inl ⟨Heap.extends_new _ _, .refl _ _⟩, hupdate.localCSeq, ?_, fun _ => .inr ?_⟩,
    hc.attempts.trans hcalm.attempts, extension_trans hcalm.log hc.log⟩
  · have hstatus : w.provider.branches ≤ (w.changeStatus s).provider.branches :=
      Nat.le_of_eq (branches_calls ..).symm
    exact Nat.le_trans hstatus (Nat.le_trans hupdate.branches hl.branches)
  · exact ⟨rfl, w₁.inviteClients.next, _, rfl, Heap.get_new_self .., rfl⟩

/-! ## The calls of the user -/

/-- A call starts no client transaction, or one of the origin that is asked for. -/
def Asked (S : SipStack) (w : World) (a : Api) (w' : World) : Prop :=
  Silent w w' ∨ ∃ p, w.asked S a = some p.1 ∧ Starts S w.dlg.info.localCSeq p w w' ∧ Calm w w'

/-- A request that was there before is sent, perhaps with header fields added. -/
theorem starts_of_given {w w' : World} {m req : SipMessage} {c : ℤ} (hl : Launches req w w')
    (hline : req.firstLine = m.firstLine) (hcseq : req.cseq = m.cseq)
    (hbranch : req.branch = m.branch) : Starts S c (.given m, req) w w' := by
  refine ⟨hl, hcseq, fun h => (nomatch h), ?_, hbranch⟩
  have hmethod : req.requestMethod = m.requestMethod := by
    unfold SipMessage.requestMethod
    rw [hline]
  show req.Counts ↔ m.Counts
  rw [SipMessage.Counts, SipMessage.Counts, hmethod]

theorem silent_withoutOffer (w : World) : Silent w w.withoutOffer :=
  silent_of_fields rfl rfl rfl rfl rfl

theorem same_decorateInvite (d : InviteDialog) (invite : SipMessage) :
    (decorateInvite S d invite).firstLine = invite.firstLine ∧
      (decorateInvite S d invite).cseq = invite.cseq ∧
      (decorateInvite S d invite).branch = invite.branch := by
  unfold decorateInvite
  dsimp only
  split <;> split <;> split <;> exact ⟨rfl, rfl, rfl⟩

theorem asked_invite {w w₁ : World} {a : Api} {invite : SipMessage} (h : Silent w w₁)
    (hstatus : w₁.status = w.status)
    (ha : w.status = .init → w.asked S a = some (.given invite)) :
    Asked S w a (w₁.invite S invite) := by
  unfold World.invite
  split
  · next hw =>
    obtain ⟨hline, hcseq, hbranch⟩ := same_decorateInvite (S := S) w₁.dlg invite
    obtain ⟨hl, hc⟩ :=
      launches_sendInvite (S := S) w₁ .inviting (decorateInvite S w₁.dlg invite)
    exact .inr ⟨_, ha (hstatus ▸ hw),
      starts_of_given (h.toStill.launches hl) hline hcseq hbranch, h.toCalm.trans hc⟩
  · exact .inl h

/-- The INVITE that `invite(target,...)` makes has the first sequence number and a new
branch. -/
theorem asked_inviteTarget (w : World) (target fromName : NameAddress)
    (contact : Option NameAddress) (sdp : String) :
    Asked S w (.invite target fromName contact sdp)
      (w.inviteTarget S target fromName contact sdp) := by
  unfold inviteTarget
  split
  · next hw =>
    extract_lets req _
    unfold World.invite
    rw [if_pos (show ({ w with provider.branches := w.provider.branches + 1 } : World).status =
      .init from hw)]
    obtain ⟨hline, hcseq, hbranch⟩ := same_decorateInvite (S := S) w.dlg req
    obtain ⟨hl, hc⟩ := launches_sendInvite (S := S)
      { w with provider.branches := w.provider.branches + 1 } .inviting
      (decorateInvite S w.dlg req)
    have hpicked : Silent w { w with provider.branches := w.provider.branches + 1 } :=
      ⟨⟨.refl _ _, .refl _ _, Int.le_refl _, Nat.le_succ _, fun h => ⟨h, rfl, rfl⟩⟩, rfl, [],
        rfl, by simp⟩
    refine .inr ⟨(.opened, decorateInvite S w.dlg req), if_pos hw,
      ⟨hpicked.toStill.launches hl, hcseq, fun h => (nomatch h), ?_, ?_⟩, hpicked.toCalm.trans hc⟩
    · have hmethod : (decorateInvite S w.dlg req).requestMethod = some .invite := by
        unfold SipMessage.requestMethod
        rw [hline]
        rfl
      show (decorateInvite S w.dlg req).Counts ↔ True
      rw [SipMessage.Counts, hmethod]
      decide
    · exact ⟨w.provider.branches, Nat.le_refl _, hl.branches, hbranch⟩
  · exact .inl (.refl w)

theorem asked_reInvite {w w₁ : World} {a : Api} {invite : SipMessage} (h : Silent w w₁)
    (hstatus : w₁.status = w.status)
    (ha : w.status = .call → w.asked S a = some (.given invite)) :
    Asked S w a (w₁.reInvite S invite) := by
  unfold reInvite
  split
  · next hw =>
    obtain ⟨hl, hc⟩ := launches_sendInvite (S := S) w₁ .reInviting invite
    exact .inr ⟨_, ha (hstatus ▸ hw), starts_of_given (h.toStill.launches hl) rfl rfl rfl,
      h.toCalm.trans hc⟩
  · exact .inl h

/-- The request is made, the dialog goes into the state in which it is sent, and a
transaction is started. -/
theorem asked_of_create {w w₁ w₂ w' : World} {a : Api} {req req' : SipMessage}
    {factory : String → DialogInfo → Option (SipMessage × DialogInfo)} (h : Silent w w₁)
    (hinfo : w₁.dlg.info = w.dlg.info) (hf : Numbers factory)
    (hcreate : w₁.create S factory = some (req, w₂)) (hline : req'.firstLine = req.firstLine)
    (hcseq : req'.cseq = req.cseq) (hbranch : req'.branch = req.branch)
    (hl : Launches req' w₂ w') (hc : Calm w₂ w') (ha : w.Named → w.asked S a = some .made) :
    Asked S w a w' := by
  obtain ⟨hnamed, hstarts⟩ := starts_of_create hf hcreate hline hcseq hbranch hl
  rw [Named, hinfo] at hnamed
  rw [hinfo] at hstarts
  exact .inr ⟨_, ha hnamed, h.toStill.starts hstarts,
    (h.toCalm.trans (still_create hf hcreate).toCalm).trans hc⟩

theorem status_create {w w' : World} {req : SipMessage}
    {factory : String → DialogInfo → Option (SipMessage × DialogInfo)}
    (h : w.create S factory = some (req, w')) : w'.status = w.status := by
  obtain ⟨p, -, heq⟩ := Option.map_eq_some_iff.mp h
  cases heq
  rfl

theorem asked_reInviteOffer {w w₁ : World} {a : Api} (contact : Option NameAddress)
    (sdp : String) (h : Silent w w₁) (hdlg : w₁.dlg.info = w.dlg.info) (hstatus : w₁.status = w.status)
    (ha : w.status = .call → w.Named → w.asked S a = some .made) :
    Asked S w a (w₁.reInviteOffer S contact sdp) := by
  unfold reInviteOffer
  split
  · next hw =>
    split
    · exact .inl h
    · next req w₂ hcreate =>
      unfold reInvite
      rw [if_pos ((status_create hcreate).trans hw)]
      obtain ⟨hl, hc⟩ := launches_sendInvite (S := S) w₂ .reInviting
        { req with contact := contact <|> req.contact }
      refine asked_of_create h hdlg (numbers_createDialogRequest .invite (by decide) _ _) hcreate ?_ ?_ ?_
        hl hc (ha (hstatus ▸ hw)) <;> rfl
  · exact .inl h

/-- The ACK that is made in the dialog takes a branch, but no sequence number. -/
theorem silent_create2xxAck {w w' : World} {req resp : SipMessage} {contentType body : Option String}
    (h : w.create S (fun branch info => create2xxAckRequest branch info resp contentType body) =
      some (req, w')) : Silent w w' := by
  obtain ⟨p, hp, heq⟩ := Option.map_eq_some_iff.mp h
  cases heq
  obtain ⟨q, hq, rfl⟩ := Option.map_eq_some_iff.mp hp
  have hinfo : q.2 = w.dlg.info := (createDialogRequest_info hq).2.2.trans (if_pos (.inl rfl))
  exact ⟨⟨.refl _ _, .refl _ _, Int.le_of_eq (by show _ = q.2.localCSeq; rw [hinfo]), Nat.le_succ _,
    fun h => ⟨h, rfl, rfl⟩⟩, rfl, [], rfl, by simp⟩

theorem silent_confirm2xx (w : World) (ack : SipMessage) : Silent w (w.confirm2xx ack) := by
  have hset : Silent w (w.setAckReq ack) := silent_of_fields rfl rfl rfl rfl rfl
  unfold confirm2xx
  dsimp only
  split
  · exact hset.trans (silent_startAckClient ..)
  · exact (hset.trans (silent_setLocalContact ..)).trans (silent_startAckClient ..)

theorem silent_confirm2xxWithAnswer (w : World) (contact : Option NameAddress) (sdp : String) :
    Silent w (w.confirm2xxWithAnswer S contact sdp) := by
  unfold confirm2xxWithAnswer
  extract_lets w₁
  have h₁ : Silent w w₁ := by
    unfold w₁
    split
    · exact .refl w
    · exact silent_setLocalContact ..
  split
  · exact h₁
  · split
    · exact h₁
    · next hcreate => exact (h₁.trans (silent_create2xxAck hcreate)).trans (silent_confirm2xx ..)

/-- A request of the user goes into a transaction of its own. -/
theorem asked_startClient {w w₁ : World} {a : Api} {req : SipMessage} {listener : Bool}
    (h : Silent w w₁) (ha : w.asked S a = some (.given req)) :
    Asked S w a (w₁.startClient S req listener) := by
  obtain ⟨hl, hc⟩ := launches_startClient (S := S) w₁ req listener
  exact .inr ⟨_, ha, starts_of_given (h.toStill.launches hl) rfl rfl rfl, h.toCalm.trans hc⟩

/-- A request that is made in the dialog goes into a transaction of its own. -/
theorem asked_made {w w₁ w₂ : World} {a : Api} {req req' : SipMessage} {listener : Bool}
    {factory : String → DialogInfo → Option (SipMessage × DialogInfo)} (hf : Numbers factory)
    (hcreate : w.create S factory = some (req, w₁)) (hline : req'.firstLine = req.firstLine)
    (hcseq : req'.cseq = req.cseq) (hbranch : req'.branch = req.branch) (h : Silent w₁ w₂)
    (ha : w.Named → w.asked S a = some .made) :
    Asked S w a (w₂.startClient S req' listener) := by
  obtain ⟨hl, hc⟩ := launches_startClient (S := S) w₂ req' listener
  exact asked_of_create (.refl w) rfl hf hcreate hline hcseq hbranch (h.toStill.launches hl)
    (h.toCalm.trans hc) ha

theorem asked_bye (w : World) : Asked S w .bye (w.bye S) := by
  unfold bye
  split
  · next hw =>
    split
    · exact .inl (.refl w)
    · next hcreate =>
      unfold byeMessage
      rw [if_pos ((status_create hcreate).trans hw)]
      exact asked_made numbers_createByeRequest hcreate rfl rfl rfl
        (silent_changeStatus _ (by decide)) fun hnamed => if_pos ⟨hw, hnamed⟩
  · exact .inl (.refl w)

theorem asked_info (w : World) (contentType body : Option String) :
    Asked S w (.info contentType body) (w.info S contentType body) := by
  unfold info
  split
  · next hw =>
    split
    · exact .inl (.refl w)
    · next hcreate =>
      unfold infoMessage
      rw [if_pos ((status_create hcreate).trans hw)]
      exact asked_made (numbers_createDialogRequest .info (by decide) _ _) hcreate rfl rfl rfl (.refl _)
        fun hnamed => if_pos ⟨hw, hnamed⟩
  · exact .inl (.refl w)

theorem asked_update (w : World) (contact : Option NameAddress) (sdp : String) :
    Asked S w (.update contact sdp) (w.update S contact sdp) := by
  unfold update
  split
  · next hw =>
    split
    · exact .inl (.refl w)
    · next w₁ hcreate =>
      unfold updateMessage
      rw [if_pos (show (w₁.status.isEarly || w₁.status.isConfirmed) = true by
        rw [status_create hcreate]; exact hw)]
      exact asked_made (numbers_createDialogRequest .update (by decide) _ _) hcreate rfl rfl rfl (.refl _)
        fun hnamed => if_pos ⟨hw, hnamed⟩
  · exact .inl (.refl w)

/-- A PRACK is a PRACK, for a response that has a number. -/
theorem createPrackRequest_spec {branch : String} {d : DialogInfo} {resp : SipMessage}
    {contentType body : Option String} {p : SipMessage × DialogInfo}
    (h : createPrackRequest branch d resp contentType body = some p) :
    p.1.is .prack = true ∧
      ∃ rseq, resp.rseq = some rseq ∧ p.1.rack = some ⟨rseq, resp.cseq, resp.cseqMethod⟩ := by
  unfold createPrackRequest at h
  split at h
  · cases h
  · next rseq hrseq =>
    obtain ⟨q, hq, rfl⟩ := Option.map_eq_some_iff.mp h
    refine ⟨?_, rseq, hrseq, rfl⟩
    have hmethod := (createDialogRequest_method hq).1
    exact beq_iff_eq.mpr hmethod

theorem createPrackRequest_of_create {w w' : World} {req resp : SipMessage}
    {contentType body : Option String}
    (h : w.create S (fun branch info => createPrackRequest branch info resp contentType body) =
      some (req, w')) :
    req.is .prack = true ∧
      ∃ rseq, resp.rseq = some rseq ∧ req.rack = some ⟨rseq, resp.cseq, resp.cseqMethod⟩ := by
  obtain ⟨p, hp, heq⟩ := Option.map_eq_some_iff.mp h
  cases heq
  exact createPrackRequest_spec hp

theorem asked_confirm1xxOf (w : World) (resp : Response) (contentType body : Option String) :
    Asked S w (.confirm1xx resp contentType body) (w.confirm1xxOf S resp contentType body) := by
  unfold confirm1xxOf
  split
  · exact .inl (.refl w)
  · next prack w₁ hcreate =>
    obtain ⟨hprack, rseq, hrseq, -⟩ := createPrackRequest_of_create hcreate
    unfold confirm1xx
    rw [if_pos hprack]
    exact asked_made (numbers_createPrackRequest _ _ _) hcreate rfl rfl rfl (.refl _)
      fun hnamed => if_pos ⟨by rw [hrseq]; rfl, hnamed⟩

theorem request_terminate (t : InviteTransactionClient) : t.terminate.1.request = t.request := by
  unfold InviteTransactionClient.terminate InviteTransactionClient.doTerminate
  split <;> rfl

theorem silent_terminateInviteClient (w : World) (r : Option ℕ) :
    Silent w (w.onInviteClient r (·.terminate)) :=
  silent_onInviteClient w r request_terminate

theorem asked_cancelMessage {w : World} {a : Api} {req : SipMessage}
    (ha : w.status.IsInviting → w.inviteTcProceeding = true → w.asked S a = some (.given req)) :
    Asked S w a (w.cancelMessage S req) := by
  unfold cancelMessage
  split
  · next hw =>
    split
    · next htc => exact asked_startClient (.refl w) (ha hw htc)
    · exact .inl (silent_terminateInviteClient ..)
  · split
    · exact .inl (silent_onInviteServer ..)
    · exact .inl (.refl w)

theorem asked_cancel (w : World) : Asked S w .cancel (w.cancel S) := by
  unfold cancel
  split
  · next hw =>
    split
    · next htc =>
      split
      · exact .inl (.refl w)
      · next req hbind =>
        refine asked_cancelMessage fun _ _ => ?_
        show (if w.status.IsInviting ∧ w.inviteTcProceeding then _ else _) = _
        rw [if_pos ⟨hw, htc⟩, hbind]
        rfl
    · exact .inl (silent_terminateInviteClient ..)
  · split
    · exact .inl (silent_onInviteServer ..)
    · exact .inl (.refl w)

theorem silent_terminate (w : World) : Silent w w.terminate := by
  unfold terminate
  split
  · exact .refl w
  · extract_lets w₁ w₂ w₃ w₄ w₅ w₆ w₇
    have h₁ : Silent w w₁ := silent_changeStatus w (by decide)
    have h₂ : Silent w w₂ := h₁.trans (silent_terminateInviteClient ..)
    have h₃ : Silent w w₇ := ((((h₂.trans (silent_onInviteServer ..)).trans
      (silent_onCancelServer ..)).trans (silent_onServer ..)).trans (silent_onAckServer ..)).trans
      (silent_onServer ..)
    have hclose : ¬ w₇.status.IsInviting := show ¬ Status.IsInviting .close by decide
    have hforget : Silent w₇ { w₇ with dlg := w₇.dlg.forget } :=
      silent_of_dlg (Int.le_refl _) rfl fun h => absurd h hclose
    exact (h₃.trans hforget).trans (silent_fire _ id)

theorem silent_listen (w : World) : Silent w (w.listen S) := by
  unfold listen
  split
  · extract_lets r w₁
    have h₁ : Silent w w₁ := (silent_changeStatus w (by decide)).trans (silent_setInviteTs ..)
    have h₂ : Silent w₁ { w₁ with
        inviteServers := w₁.inviteServers.new (.newListening S true) } :=
      ⟨⟨.refl _ _, .refl _ _, Int.le_refl _, Nat.le_refl _, fun h => ⟨h, rfl, rfl⟩⟩, rfl, [],
        rfl, by simp⟩
    exact (h₁.trans h₂).trans (silent_onInviteServer ..)
  · exact .refl w

theorem silent_respondCode (w : World) (code : ℤ) (contact : Option NameAddress)
    (contentType body : Option String) :
    Silent w (w.respondCode S code contact contentType body) := by
  unfold respondCode
  split
  · split
    · exact .refl w
    · exact silent_respond ..
  · exact .refl w

theorem silent_respondUpdate (w : World) (code : ℤ) (sdp : Option String) :
    Silent w (w.respondUpdate S code sdp) := by
  unfold respondUpdate
  split
  · exact .refl w
  · exact silent_respond ..

theorem silent_respondRefer (w : World) (req : SipMessage) (code : ℤ) :
    Silent w (w.respondRefer S req code) := by
  unfold respondRefer
  split
  · exact silent_respond ..
  · exact .refl w

theorem asked_requestWith {w : World} {a : Api}
    {factory : String → DialogInfo → Option (SipMessage × DialogInfo)} (hf : Numbers factory)
    (ha : S.extended = true → w.Named → w.asked S a = some .made) :
    Asked S w a (w.requestWith S factory) := by
  unfold requestWith
  split
  · next hS =>
    split
    · exact .inl (.refl w)
    · next hcreate =>
      unfold request
      rw [if_pos hS]
      exact asked_made hf hcreate rfl rfl rfl (.refl _) (ha hS)
  · exact .inl (.refl w)

/-- **The calls of the user.** -/
theorem asked_call (w : World) (a : Api) : Asked S w a (w.call S a) := by
  have hrefl : Silent w w := .refl w
  cases a with
  | setSupportedExtensions tags => exact .inl (silent_of_fields rfl rfl rfl rfl rfl)
  | setRequiredExtensions tags => exact .inl (silent_of_fields rfl rfl rfl rfl rfl)
  | listen => exact .inl (silent_listen w)
  | invite target fromName contact sdp => exact asked_inviteTarget ..
  | inviteMessage invite => exact asked_invite hrefl rfl fun hw => if_pos hw
  | inviteWithoutOffer => exact .inl (silent_withoutOffer w)
  | inviteMessageWithoutOffer invite =>
    exact asked_invite (silent_withoutOffer w) rfl fun hw => if_pos hw
  | reInvite contact sdp =>
    exact asked_reInviteOffer contact sdp hrefl rfl rfl fun hw hnamed => if_pos ⟨hw, hnamed⟩
  | reInviteMessage invite => exact asked_reInvite hrefl rfl fun hw => if_pos hw
  | reInviteWithoutOffer contact sdp =>
    exact asked_reInviteOffer contact sdp (silent_withoutOffer w) rfl rfl fun hw hnamed =>
      if_pos ⟨hw, hnamed⟩
  | reInviteMessageWithoutOffer invite =>
    exact asked_reInvite (silent_withoutOffer w) rfl fun hw => if_pos hw
  | ring => exact .inl (silent_respondCode ..)
  | accept contact sdp => exact .inl (silent_respondCode ..)
  | refuse => exact .inl (silent_respondCode ..)
  | refuseWith code => exact .inl (silent_respondCode ..)
  | redirect code contact => exact .inl (silent_respondCode ..)
  | respond code contact contentType body => exact .inl (silent_respondCode ..)
  | respondMessage resp => exact .inl (silent_respond ..)
  | confirm2xxWithAnswer contact sdp => exact .inl (silent_confirm2xxWithAnswer ..)
  | confirm2xxWithAck ack => exact .inl (silent_confirm2xx ..)
  | confirm1xx resp contentType body => exact asked_confirm1xxOf ..
  | confirm1xxMessage prack =>
    show Asked S w _ (w.confirm1xx S prack)
    unfold confirm1xx
    split
    · next hprack => exact asked_startClient hrefl (if_pos hprack)
    · exact .inl hrefl
  | bye => exact asked_bye w
  | byeMessage bye =>
    show Asked S w _ (w.byeMessage S bye)
    unfold byeMessage
    split
    · next hw => exact asked_startClient (silent_changeStatus w (by decide)) (if_pos hw)
    · exact .inl hrefl
  | cancel => exact asked_cancel w
  | cancelMessage cancel => exact asked_cancelMessage fun hw htc => if_pos ⟨hw, htc⟩
  | info contentType body => exact asked_info ..
  | infoMessage req =>
    show Asked S w _ (w.infoMessage S req)
    unfold infoMessage
    split
    · next hw => exact asked_startClient hrefl (if_pos hw)
    · exact .inl hrefl
  | update contact sdp => exact asked_update ..
  | updateMessage req =>
    show Asked S w _ (w.updateMessage S req)
    unfold updateMessage
    split
    · next hw => exact asked_startClient hrefl (if_pos hw)
    · exact .inl hrefl
  | acceptUpdate sdp => exact .inl (silent_respondUpdate ..)
  | refuseUpdate => exact .inl (silent_respondUpdate w 504 none)
  | terminate => exact .inl (silent_terminate w)
  | request req =>
    show Asked S w _ (w.request S req)
    unfold request
    split
    · next hS => exact asked_startClient hrefl (if_pos hS)
    · exact .inl hrefl
  | refer referTo referredBy =>
    exact asked_requestWith (numbers_createReferRequest referTo referredBy) fun hS hnamed =>
      if_pos ⟨hS, hnamed⟩
  | notify sipfragment =>
    exact asked_requestWith (numbers_createNotifyRequest _ sipfragment) fun hS hnamed =>
      if_pos ⟨hS, hnamed⟩
  | acceptRefer req => exact .inl (silent_respondRefer ..)
  | refuseRefer req => exact .inl (silent_respondRefer ..)

end World
end SoftPhone
