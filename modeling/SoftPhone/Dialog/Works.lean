import SoftPhone.Dialog.Spares

/-!
# What one event does to the server side

The counterpart of `Happens`: there the handlers of the client side are spelled out and
server work is one case, here it is the other way round.  `Works S w e w'` names the
handlers that touch what answers an INVITE; everything else is `Spares`.
-/

namespace SoftPhone

open Machine

/-- Code that touches what answers an INVITE. -/
def Rest.IsAnswering : Rest → Prop
  | .inviteServer _ _ | .afterPrack | .afterResponderTimeout => True
  | _ => False

namespace World

variable {S : SipStack}

/-! ## What the clients do -/

theorem spares_putInviteClient {w : World} (htidy : w.Tidy) {r : ℕ} {t : InviteTransactionClient}
    {o : Outcome InviteTransactionClient ClientCallback ClientRest}
    (hget : w.inviteClients.get r = some t)
    (ho : t.Unpassed → o.self.Unpassed ∧ ∀ m, ProviderCall.sendMessage m ∈ o.calls → m.Unpassed) :
    Spares w (w.putInviteClient r o) := by
  obtain ⟨hself, hcalls⟩ := ho (htidy.inviteClients r t hget)
  have hput : Spares w { w with
      inviteClients := w.inviteClients.put r o.self
      provider := w.provider.calls (.inviteClient r) o.calls } :=
    spares_of_calls (a := .inviteClient r) id hcalls rfl rfl rfl rfl id (fun _ h => h) fun h =>
      ⟨h.ackReq, Heap.forall_put (P := fun _ (t : InviteTransactionClient) => t.Unpassed)
        h.inviteClients hself, h.clients, h.servers, h.cancelServers⟩
  exact hput.trans (spares_stack ..)

theorem spares_putClient {w : World} (htidy : w.Tidy) {r : ℕ} {t : TransactionClient}
    {o : Outcome TransactionClient ClientCallback ClientRest} (hget : w.clients.get r = some t)
    (hself : o.self.request = t.request)
    (hcalls : ∀ m, ProviderCall.sendMessage m ∈ o.calls → m = t.request) :
    Spares w (w.putClient r o) := by
  have hreq := htidy.clients r t hget
  have hput : Spares w { w with
      clients := w.clients.put r o.self
      provider := w.provider.calls (.client r) o.calls } :=
    spares_of_calls (a := .client r) id (fun m hm => hcalls m hm ▸ hreq) rfl rfl rfl rfl id
      (fun _ h => h) fun h =>
      ⟨h.ackReq, h.inviteClients, Heap.forall_put
        (P := fun _ (t : TransactionClient) => t.request.Unpassed) h.clients (hself ▸ hreq),
        h.servers, h.cancelServers⟩
  exact hput.trans (spares_stack ..)

theorem spares_inviteClientDid {w : World} (htidy : w.Tidy) {r : ℕ} {t : InviteTransactionClient}
    {o : Outcome InviteTransactionClient ClientCallback ClientRest}
    (hget : w.inviteClients.get r = some t)
    (ho : t.Unpassed → o.self.Unpassed ∧ ∀ m, ProviderCall.sendMessage m ∈ o.calls → m.Unpassed) :
    Spares w (w.inviteClientDid S r o) := by
  have hput := spares_putInviteClient htidy hget ho
  unfold inviteClientDid
  split
  · exact hput
  · exact hput.trans (spares_onClientCallback _ (ho (htidy.inviteClients r t hget)).1.1 _)

theorem spares_clientDid {w : World} (htidy : w.Tidy) {r : ℕ} {t : TransactionClient}
    {o : Outcome TransactionClient ClientCallback ClientRest} (hget : w.clients.get r = some t)
    (hself : o.self.request = t.request)
    (hcalls : ∀ m, ProviderCall.sendMessage m ∈ o.calls → m = t.request) :
    Spares w (w.clientDid S r o) := by
  have hput := spares_putClient htidy hget hself hcalls
  have hreq : o.self.request.Unpassed := hself ▸ htidy.clients r t hget
  unfold clientDid
  split
  · exact hput
  · exact hput.trans (spares_onClientCallback _ hreq _)

/-! ## What the generic servers do -/

theorem spares_putServer {w : World} (htidy : w.Tidy) {r : ℕ} {t : TransactionServer}
    {o : Outcome TransactionServer ServerCallback ServerRest} (hget : w.servers.get r = some t)
    (hself : o.self.response = t.response) (hstatus : t.status ≠ .waiting → o.self.status ≠ .waiting)
    (hcalls : ∀ m, ProviderCall.sendMessage m ∈ o.calls → m ∈ t.response) :
    Spares w (w.putServer r o) := by
  have hresp := htidy.servers r t hget
  exact spares_of_calls (a := .server r) id (fun m hm => hresp m (hcalls m hm)) rfl rfl rfl rfl
    (fun h => Heap.forall_put (P := fun _ (t : TransactionServer) => t.status ≠ .waiting) h
      (hstatus (h r t hget))) (fun _ h => h) fun h =>
    ⟨h.ackReq, h.inviteClients, h.clients, Heap.forall_put
      (P := fun _ (t : TransactionServer) => ∀ resp ∈ t.response, resp.Unpassed) h.servers
      (hself ▸ hresp), h.cancelServers⟩

theorem spares_putCancelServer {w : World} (htidy : w.Tidy) {r : ℕ} {t : TransactionServer}
    {o : Outcome TransactionServer ServerCallback ServerRest}
    (hget : w.cancelServers.get r = some t) (hself : o.self.response = t.response)
    (hcalls : ∀ m, ProviderCall.sendMessage m ∈ o.calls → m ∈ t.response) :
    Spares w (w.putCancelServer r o) := by
  have hresp := htidy.cancelServers r t hget
  refine spares_of_calls (a := .cancelServer r) id (fun m hm => hresp m (hcalls m hm)) rfl rfl rfl
    rfl id (fun s hs => ?_) fun h =>
    ⟨h.ackReq, h.inviteClients, h.clients, h.servers, Heap.forall_put
      (P := fun _ (t : TransactionServer) => ∀ resp ∈ t.response, resp.Unpassed) h.cancelServers
      (hself ▸ hresp)⟩
  rw [show (w.putCancelServer r o).cancelServers = w.cancelServers.put r o.self from rfl,
    Heap.get_put_of_ne]
  · exact hs
  · rintro rfl
    rw [hget] at hs
    cases hs

/-! ## What the user asks for -/

/-- The response that `respond(code,reason,contact,content_type,body)` makes. -/
def codeResponse (S : SipStack) (w : World) (code : ℤ) (contact : Option NameAddress)
    (contentType body : Option String) : Option SipMessage :=
  if w.status.IsInvited then
    w.dlg.inviteReq.map fun invite =>
      { createResponse S invite code contact with contentType := contentType, body := body }
  else none

/-- The response that a call of the user passes to `respond`. -/
def passed (S : SipStack) (w : World) : Api → Option SipMessage
  | .ring => w.codeResponse S 180 none none none
  | .accept contact sdp => w.codeResponse S 200 contact (some "application/sdp") (some sdp)
  | .refuse => w.codeResponse S 486 none none none
  | .refuseWith code => w.codeResponse S code none none none
  | .redirect code contact => w.codeResponse S code (some contact) none none
  | .respond code contact contentType body => w.codeResponse S code contact contentType body
  | .respondMessage resp => some resp
  | _ => none

theorem respondCode_eq (w : World) (code : ℤ) (contact : Option NameAddress)
    (contentType body : Option String) :
    w.respondCode S code contact contentType body =
      match w.codeResponse S code contact contentType body with
      | none => w
      | some resp => w.respond S resp := by
  unfold respondCode codeResponse
  split
  · cases w.dlg.inviteReq <;> rfl
  · rfl

/-- What a call of the user does to the server side. -/
inductive Asks (S : SipStack) (w : World) : Api → World → Prop where
  | spares {a : Api} {w' : World} (h : Spares w w') : Asks S w a w'
  | responds {a : Api} {resp : SipMessage} (h : w.passed S a = some resp) :
      Asks S w a (w.respond S resp)
  /-- A final response that the dialog makes: to an UPDATE or a REFER. -/
  | answers {a : Api} {resp : SipMessage} (hcode : 200 ≤ resp.code) (hresp : resp.Unpassed) :
      Asks S w a (w.respond S resp)
  | listens (hw : w.status = .init) : Asks S w .listen (w.listen S)
  | abandons {a : Api} (hw : w.status.IsWaiting) :
      Asks S w a (w.onInviteServer w.dlg.inviteTs (·.terminate))
  | terminates : Asks S w .terminate w.terminate

theorem spares_withoutOffer (w : World) : Spares w w.withoutOffer :=
  spares_of_dlg rfl rfl rfl rfl rfl (Int.le_refl _) (·.ackReq)

theorem spares_sendInvite (w : World) {s : Status} (hs : ¬ s.IsServing) {req : SipMessage}
    (hreq : req.Unpassed) : Spares w ((w.changeStatus s).sendInvite S req) := by
  have hset : Spares w ((w.changeStatus s).setInviteReq req) := by
    have hstatus := spares_changeStatus w hs
    exact ⟨hstatus.inviteTs, hstatus.ackTs, hstatus.reliableResponder, hstatus.inviteServers,
      hstatus.ackServers, hstatus.status, .inr hs, hstatus.remoteCSeq, hstatus.listeners,
      fun h => (hstatus.tidy h).congr rfl rfl rfl rfl rfl, hstatus.noneListens,
      hstatus.cancelServers, hstatus.log⟩
  have htc (w : World) (r : ℕ) : Spares w (w.setInviteTc r) :=
    spares_of_dlg rfl rfl rfl rfl rfl (Int.le_refl _) (·.ackReq)
  unfold sendInvite
  exact ((hset.trans (spares_updateDialogInfo ..)).trans (htc ..)).trans
    (spares_startInviteClient _ hreq)

theorem unpassed_decorateInvite {d : InviteDialog} {invite : SipMessage} (h : invite.Unpassed) :
    (decorateInvite S d invite).Unpassed := by
  unfold decorateInvite
  dsimp only
  split <;> split <;> split <;> exact h

theorem spares_invite (w : World) {invite : SipMessage} (h : invite.Unpassed) :
    Spares w (w.invite S invite) := by
  unfold World.invite
  split
  · exact spares_sendInvite w (by decide) (unpassed_decorateInvite h)
  · exact .refl w

theorem spares_inviteTarget (w : World) (target fromName : NameAddress)
    (contact : Option NameAddress) (sdp : String) :
    Spares w (w.inviteTarget S target fromName contact sdp) := by
  unfold inviteTarget
  split
  · have hbranch : Spares w { w with provider.branches := w.provider.branches + 1 } :=
      ⟨rfl, rfl, rfl, rfl, rfl, .inl rfl, .inl rfl, Int.le_refl _, fun _ _ _ h => h,
        (·.congr rfl rfl rfl rfl rfl), id, fun _ h => h, [], rfl, by simp⟩
    exact hbranch.trans (spares_invite _ (SipMessage.unpassed_of_method (show _ = some Method.invite from rfl)))
  · exact .refl w

theorem spares_reInvite (w : World) {invite : SipMessage} (h : invite.Unpassed) :
    Spares w (w.reInvite S invite) := by
  unfold reInvite
  split
  · exact spares_sendInvite w (by decide) h
  · exact .refl w

theorem spares_reInviteOffer (w : World) (contact : Option NameAddress) (sdp : String) :
    Spares w (w.reInviteOffer S contact sdp) := by
  unfold reInviteOffer
  split
  · split
    · exact .refl w
    · next req w₁ hcreate =>
      obtain ⟨h₁, hreq⟩ := spares_create (makesRequest_createDialogRequest .invite _ _) hcreate
      exact h₁.trans (spares_reInvite w₁ hreq)
  · exact .refl w

theorem spares_setLocalContact (w : World) (contact : NameAddress) :
    Spares w (w.setLocalContact contact) :=
  spares_of_dlg rfl rfl rfl rfl rfl (Int.le_refl _) (·.ackReq)

theorem spares_confirm2xx (w : World) {ack : SipMessage} (hack : ack.Unpassed) :
    Spares w (w.confirm2xx ack) := by
  have hset : Spares w (w.setAckReq ack) :=
    spares_of_dlg rfl rfl rfl rfl rfl (Int.le_refl _) fun _ a ha => by
      rw [← Option.some.inj ha]; exact hack
  unfold confirm2xx
  dsimp only
  split
  · exact hset.trans (spares_startAckClient _ hack)
  · exact (hset.trans (spares_setLocalContact ..)).trans (spares_startAckClient _ hack)

theorem spares_confirm2xxWithAnswer (w : World) (contact : Option NameAddress) (sdp : String) :
    Spares w (w.confirm2xxWithAnswer S contact sdp) := by
  unfold confirm2xxWithAnswer
  extract_lets w₁
  have h₁ : Spares w w₁ := by
    unfold w₁
    split
    · exact .refl w
    · exact spares_setLocalContact ..
  split
  · exact h₁
  · split
    · exact h₁
    · next resp _ _ ack w₂ hcreate =>
      obtain ⟨h₂, hack⟩ := spares_create (makesRequest_create2xxAckRequest resp _ _) hcreate
      exact (h₁.trans h₂).trans (spares_confirm2xx _ hack)

theorem spares_byeMessage (w : World) {req : SipMessage} (hreq : req.Unpassed) :
    Spares w (w.byeMessage S req) := by
  unfold byeMessage
  split
  · exact (spares_changeStatus w (by decide)).trans (spares_startClient _ _ hreq)
  · exact .refl w

theorem makesRequest_createByeRequest : MakesRequest createByeRequest := by
  have hdialog := makesRequest_createDialogRequest .bye none none
  exact hdialog.map (f := fun _ p => ({ p.1 with expires := none, contact := none }, p.2))
    fun info p => ⟨rfl, rfl⟩

theorem spares_bye (w : World) : Spares w (w.bye S) := by
  unfold bye
  split
  · split
    · exact .refl w
    · next hcreate =>
      obtain ⟨h₁, hreq⟩ := spares_create makesRequest_createByeRequest hcreate
      exact h₁.trans (spares_byeMessage _ hreq)
  · exact .refl w

/-- Terminating an invite client sends nothing. -/
theorem spares_terminateInviteClient (w : World) (r : Option ℕ) :
    Spares w (w.onInviteClient r (·.terminate)) := by
  refine spares_onInviteClient w r fun t => ?_
  unfold InviteTransactionClient.terminate InviteTransactionClient.doTerminate
  split <;> exact ⟨rfl, rfl, by simp⟩

theorem asks_cancelMessage (w : World) (a : Api) {req : SipMessage} (hreq : req.Unpassed) :
    Asks S w a (w.cancelMessage S req) := by
  unfold cancelMessage
  split
  · split
    · exact .spares (spares_startClient _ _ hreq)
    · exact .spares (spares_terminateInviteClient ..)
  · split
    · next hw => exact .abandons hw
    · exact .spares (.refl w)

theorem asks_cancel (w : World) : Asks S w .cancel (w.cancel S) := by
  unfold cancel
  split
  · split
    · split
      · exact .spares (.refl w)
      · next req hbind =>
        obtain ⟨invite, -, hcancel⟩ := Option.bind_eq_some_iff.mp hbind
        obtain ⟨contact, -, rfl⟩ := Option.map_eq_some_iff.mp hcancel
        exact asks_cancelMessage w _ (SipMessage.unpassed_of_method (show _ = some Method.cancel from rfl))
    · exact .spares (spares_terminateInviteClient ..)
  · split
    · next hw => exact .abandons hw
    · exact .spares (.refl w)

theorem spares_infoMessage (w : World) {req : SipMessage} (hreq : req.Unpassed) :
    Spares w (w.infoMessage S req) := by
  unfold infoMessage
  split
  · exact spares_startClient _ _ hreq
  · exact .refl w

theorem spares_info (w : World) (contentType body : Option String) :
    Spares w (w.info S contentType body) := by
  unfold info
  split
  · split
    · exact .refl w
    · next hcreate =>
      obtain ⟨h₁, hreq⟩ := spares_create (makesRequest_createDialogRequest .info _ _) hcreate
      exact h₁.trans (spares_infoMessage _ hreq)
  · exact .refl w

theorem spares_updateMessage (w : World) {req : SipMessage} (hreq : req.Unpassed) :
    Spares w (w.updateMessage S req) := by
  unfold updateMessage
  split
  · exact spares_startClient _ _ hreq
  · exact .refl w

theorem spares_update (w : World) (contact : Option NameAddress) (sdp : String) :
    Spares w (w.update S contact sdp) := by
  unfold update
  split
  · split
    · exact .refl w
    · next req w₁ hcreate =>
      obtain ⟨h₁, hreq⟩ := spares_create (makesRequest_createDialogRequest .update _ _) hcreate
      exact h₁.trans (spares_updateMessage w₁ hreq)
  · exact .refl w

theorem asks_respondCode (w : World) {a : Api} {code : ℤ} {contact : Option NameAddress}
    {contentType body : Option String}
    (h : w.passed S a = w.codeResponse S code contact contentType body) :
    Asks S w a (w.respondCode S code contact contentType body) := by
  rw [respondCode_eq]
  split
  · exact .spares (.refl w)
  · next resp hresp => exact .responds (h.trans hresp)

theorem asks_respondUpdate (w : World) (a : Api) {code : ℤ} (hcode : 200 ≤ code)
    (sdp : Option String) : Asks S w a (w.respondUpdate S code sdp) := by
  unfold respondUpdate
  split
  · exact .spares (.refl w)
  · next req _ =>
    dsimp only
    cases sdp with
    | none => exact .answers hcode (unpassed_createResponse S req code none)
    | some sdp => exact .answers hcode fun _ _ => rfl

theorem spares_request (w : World) {req : SipMessage} (hreq : req.Unpassed) :
    Spares w (w.request S req) := by
  unfold request
  split
  · exact spares_startClient _ _ hreq
  · exact .refl w

theorem spares_requestWith (w : World)
    {factory : String → DialogInfo → Option (SipMessage × DialogInfo)}
    (hfactory : MakesRequest factory) : Spares w (w.requestWith S factory) := by
  unfold requestWith
  split
  · split
    · exact .refl w
    · next hcreate =>
      obtain ⟨h₁, hreq⟩ := spares_create hfactory hcreate
      exact h₁.trans (spares_request _ hreq)
  · exact .refl w

theorem makesRequest_createReferRequest (referTo : NameAddress) (referredBy : Option NameAddress) :
    MakesRequest fun branch info => createReferRequest branch info referTo referredBy := by
  have hdialog := makesRequest_createDialogRequest .refer none none
  exact hdialog.map (f := fun info p => ({ p.1 with
    referTo := some referTo
    referredBy := referredBy <|> info.localName }, p.2)) fun info p => ⟨rfl, rfl⟩

theorem makesRequest_createNotifyRequest (event sipfragment : String) :
    MakesRequest fun branch info => createNotifyRequest branch info event sipfragment := by
  have hdialog := makesRequest_createDialogRequest .notify
    (some "message/sipfrag;version=2.0") (some sipfragment)
  exact hdialog.map (f := fun _ p => ({ p.1 with expires := none, event := some event }, p.2))
    fun info p => ⟨rfl, rfl⟩

theorem asks_respondRefer (w : World) (a : Api) (req : SipMessage) {code : ℤ} (hcode : 200 ≤ code) :
    Asks S w a (w.respondRefer S req code) := by
  unfold respondRefer
  split
  · exact .answers hcode (unpassed_createResponse S req code none)
  · exact .spares (.refl w)

theorem asks_call (w : World) (a : Api) : Asks S w a (w.call S a) := by
  have hmethod {method : Method} (m : Request method) : m.1.Unpassed :=
    SipMessage.unpassed_of_method m.2.1
  have hoffer := spares_withoutOffer w
  cases a with
  | setSupportedExtensions tags =>
    exact .spares (spares_of_dlg rfl rfl rfl rfl rfl (Int.le_refl _) (·.ackReq))
  | setRequiredExtensions tags =>
    exact .spares (spares_of_dlg rfl rfl rfl rfl rfl (Int.le_refl _) (·.ackReq))
  | listen =>
    by_cases hw : w.status = .init
    · exact .listens hw
    · show Asks S w .listen (w.listen S)
      rw [show w.listen S = w by unfold World.listen; rw [if_neg hw]]
      exact .spares (.refl w)
  | invite target fromName contact sdp => exact .spares (spares_inviteTarget ..)
  | inviteMessage invite => exact .spares (spares_invite w (hmethod invite))
  | inviteWithoutOffer => exact .spares hoffer
  | inviteMessageWithoutOffer invite =>
    exact .spares (hoffer.trans (spares_invite _ (hmethod invite)))
  | reInvite contact sdp => exact .spares (spares_reInviteOffer ..)
  | reInviteMessage invite => exact .spares (spares_reInvite w (hmethod invite))
  | reInviteWithoutOffer contact sdp => exact .spares (hoffer.trans (spares_reInviteOffer ..))
  | reInviteMessageWithoutOffer invite =>
    exact .spares (hoffer.trans (spares_reInvite _ (hmethod invite)))
  | ring => exact asks_respondCode w rfl
  | accept contact sdp => exact asks_respondCode w rfl
  | refuse => exact asks_respondCode w rfl
  | refuseWith code => exact asks_respondCode w rfl
  | redirect code contact => exact asks_respondCode w rfl
  | respond code contact contentType body => exact asks_respondCode w rfl
  | respondMessage resp => exact .responds rfl
  | confirm2xxWithAnswer contact sdp => exact .spares (spares_confirm2xxWithAnswer ..)
  | confirm2xxWithAck ack => exact .spares (spares_confirm2xx w (hmethod ack))
  | confirm1xx resp contentType body => exact .spares (spares_confirm1xxOf ..)
  | confirm1xxMessage prack => exact .spares (spares_confirm1xx ..)
  | bye => exact .spares (spares_bye w)
  | byeMessage bye => exact .spares (spares_byeMessage w (hmethod bye))
  | cancel => exact asks_cancel w
  | cancelMessage cancel => exact asks_cancelMessage w _ (hmethod cancel)
  | info contentType body => exact .spares (spares_info ..)
  | infoMessage req => exact .spares (spares_infoMessage w (hmethod req))
  | update contact sdp => exact .spares (spares_update ..)
  | updateMessage req => exact .spares (spares_updateMessage w (hmethod req))
  | acceptUpdate sdp => exact asks_respondUpdate w _ (by decide) sdp
  | refuseUpdate => exact asks_respondUpdate w _ (by decide) none
  | terminate => exact .terminates
  | request req => exact .spares (spares_request w (SipMessage.unpassed_of_isRequest req.2))
  | refer referTo referredBy =>
    exact .spares (spares_requestWith w (makesRequest_createReferRequest referTo referredBy))
  | notify sipfragment => exact .spares (spares_requestWith w (makesRequest_createNotifyRequest _ sipfragment))
  | acceptRefer req => exact asks_respondRefer w _ req (by decide)
  | refuseRefer req => exact asks_respondRefer w _ req (by decide)

/-! ## What the dialog is told -/

/-- What `onReceivedMessage` does to the server side. -/
inductive Hears (S : SipStack) (w : World) (m : SipMessage) : World → Prop where
  | spares {w' : World} (h : Spares w w') : Hears S w m w'
  | invite (hm : m.requestMethod = some .invite) (hfresh : w.tooLate m = false)
      (hlong : sessionTooShort S m = false) : Hears S w m (w.onReceivedInvite S m)
  | ack (hm : m.requestMethod = some .ack) (hw : w.status.IsAccepted) :
      Hears S w m (w.onReceivedAck m)
  | prack (hm : m.requestMethod = some .prack) (hfresh : w.tooLate m = false)
      (hlong : sessionTooShort S m = false) : Hears S w m (w.processPrack S m)
  /-- A request is taken that is not for an INVITE. -/
  | takes {method : Method} {w' : World} (hm : m.requestMethod = some method)
      (hmethod : method = .bye ∨ method = .info ∨ method = .update) (hfresh : w.tooLate m = false)
      (h : Spares (w.observe (.processed m)) w') : Hears S w m w'
  /-- A request that only an `ExtendedInviteDialog` takes. -/
  | extended {method : Method} (hS : S.extended = true) (hm : m.requestMethod = some method)
      (hmethod : method.isBasic = false) : Hears S w m (w.onReceivedAltRequest S m)

theorem hears_onReceivedRequest (w : World) (m : SipMessage) :
    Hears S w m (w.onReceivedRequest S m) := by
  unfold onReceivedRequest
  split
  · exact .spares (.refl w)
  · next hfresh =>
    have hfresh : w.tooLate m = false := by simpa using hfresh
    split
    · exact .spares (spares_answer w m fun _ _ => rfl)
    · next hlong =>
      split
      · next hm => exact .invite hm hfresh (by simpa using hlong)
      · next hm =>
        by_cases hw : w.status.IsAccepted
        · exact .ack hm hw
        · rw [show w.onReceivedAck m = w by unfold onReceivedAck; rw [if_neg hw]]
          exact .spares (.refl w)
      · next hm =>
        rcases spares_onReceivedBye (S := S) w m with heq | h
        · rw [heq]
          exact .spares (.refl w)
        · exact .takes hm (.inl rfl) hfresh h
      · next hm => exact .takes hm (.inr (.inl rfl)) hfresh (spares_onReceivedInfo w m)
      · next hm => exact .prack hm hfresh (by simpa using hlong)
      · next hm => exact .takes hm (.inr (.inr rfl)) hfresh (spares_onReceivedUpdate w m)
      · exact .spares (spares_answer w m (unpassed_createResponse S m 405 none))

theorem hears_onReceivedMessage {w : World} (htidy : w.Tidy) (m : SipMessage) :
    Hears S w m (w.onReceivedMessage S m) := by
  have hbasic : Hears S w m (w.inviteDialogOnReceivedMessage S m) := by
    unfold inviteDialogOnReceivedMessage
    split
    · exact hears_onReceivedRequest w m
    · exact .spares (spares_onReceivedResponse htidy)
  unfold onReceivedMessage
  split
  · next hS hm =>
    split
    · exact hbasic
    · next hmethod => exact .extended hS hm (by simpa using hmethod)
  · exact hbasic

/-! ## One event -/

/-- A generic server or a cancel server that was waiting for its request. -/
def WasListening (w : World) : Agent → Prop
  | .server r => ∃ t, w.servers.get r = some t ∧ t.status = .waiting
  | .cancelServer r => w.cancelServers.get r ≠ none
  | _ => False

/-- What one event does to the server side. -/
inductive Works (S : SipStack) (w : World) : Event → World → Prop where
  | spares {e : Event} {w' : World} (h : Spares w w') : Works S w e w'
  | hears {m : SipMessage} {w' : World} (hidle : w.stack = [])
      (hl : w.provider.getListener m = some .dialog)
      (h : Hears S (w.observe (.received .dialog m)) m w') : Works S w (.recv m) w'
  | inviteServerHears {m : SipMessage} {r : ℕ} {t : InviteTransactionServer} (hidle : w.stack = [])
      (hl : w.provider.getListener m = some (.inviteServer r))
      (hget : w.inviteServers.get r = some t) :
      Works S w (.recv m) ((w.observe (.received (.inviteServer r) m)).inviteServerDid S r
        (t.onReceivedMessage S m))
  | inviteServerExpires {r : ℕ} {n : TimerName} {t : InviteTransactionServer}
      (hidle : w.stack = []) (hget : w.inviteServers.get r = some t) :
      Works S w (.timeout (.inviteServer r) n) (w.inviteServerDid S r (t.expire n))
  | ackServerHears {m : SipMessage} {r : ℕ} {t : AckTransactionServer} (hidle : w.stack = [])
      (hl : w.provider.getListener m = some (.ackServer r)) (hget : w.ackServers.get r = some t) :
      Works S w (.recv m) ((w.observe (.received (.ackServer r) m)).ackServerDid r
        (t.onReceivedMessage m))
  | ackServerExpires {r : ℕ} {n : TimerName} {t : AckTransactionServer} (hidle : w.stack = [])
      (hget : w.ackServers.get r = some t) :
      Works S w (.timeout (.ackServer r) n) (w.ackServerDid r (t.expire n))
  /-- A generic server or a cancel server calls the dialog back. -/
  | requested {m : SipMessage} {w₁ : World} {ts : Agent} (hidle : w.stack = []) (h : Spares w w₁)
      (hts : w.WasListening ts) : Works S w (.recv m) (w₁.onTransRequest S ts m)
  | responderTimeout {n : TimerName} (hidle : w.stack = []) :
      Works S w (.responderTimeout n) (w.processTimeout n)
  | asks {a : Api} {w' : World} (huser : w.AtUser) (h : Asks S w a w') : Works S w (.api a) w'
  | goesOn {c : Rest} {rest : List Frame} (hstack : w.stack = .code c :: rest)
      (hc : c.IsAnswering) : Works S w .ret ({ w with stack := rest }.resume c)

theorem mem_of_request {m : SipMessage} {t : TransactionServer}
    {c : ServerCallback} (h : (t.onReceivedMessage m).callback = some c) :
    t.status = .waiting ∧ c = .onTransRequest m := by
  unfold TransactionServer.onReceivedMessage at h
  split at h
  · split at h
    · next hw =>
      refine ⟨hw, ?_⟩
      dsimp only at h
      split at h
      · exact (Option.some.inj h).symm
      · cases h
    · split at h <;> cases h
  · cases h

theorem callback_expire (t : TransactionServer) (n : TimerName) : (t.expire n).callback = none := by
  cases n with
  | clearing =>
    unfold TransactionServer.expire Timer.expire
    dsimp only
    split
    · split <;> rfl
    · rfl
  | _ => rfl

theorem works_deliver {w : World} (htidy : w.Tidy) {a : Agent} {m : SipMessage}
    (hidle : w.stack = []) (hl : w.provider.getListener m = some a) :
    Works S w (.recv m) (w.deliver S a m) := by
  have h₁ : Spares w (w.observe (.received a m)) := spares_observe w trivial
  have htidy₁ := h₁.tidy htidy
  unfold deliver
  extract_lets w₁
  cases a with
  | dialog => exact .hears hidle hl (hears_onReceivedMessage htidy₁ m)
  | ackClient => exact .spares h₁
  | inviteClient r =>
    dsimp only
    split
    · exact .spares h₁
    · next t hget =>
      exact .spares (h₁.trans (spares_inviteClientDid htidy₁ hget fun h =>
        InviteTransactionClient.unpassed_onReceivedMessage h _ m))
  | client r =>
    dsimp only
    split
    · exact .spares h₁
    · next t hget =>
      obtain ⟨hreq, hcalls⟩ := t.request_onReceivedMessage m
      exact .spares (h₁.trans (spares_clientDid htidy₁ hget hreq fun m' hm' =>
        absurd hm' (hcalls m')))
  | inviteServer r =>
    dsimp only
    split
    · exact .spares h₁
    · next t hget => exact .inviteServerHears hidle hl hget
  | server r =>
    dsimp only
    split
    · exact .spares h₁
    · next t hget =>
      obtain ⟨hresp, hstatus, hcalls⟩ := t.response_onReceivedMessage m
      have hput := h₁.trans (spares_putServer htidy₁ hget hresp hstatus hcalls)
      unfold serverDid
      split
      · exact .spares hput
      · next c hc =>
        obtain ⟨hw, rfl⟩ := mem_of_request hc
        have hts : w.WasListening (.server r) := ⟨t, hget, hw⟩
        exact .requested hidle hput hts
  | cancelServer r =>
    dsimp only
    split
    · exact .spares h₁
    · next t hget =>
      obtain ⟨hresp, -, hcalls⟩ := t.response_onReceivedMessage m
      have hput := h₁.trans (spares_putCancelServer htidy₁ hget hresp hcalls)
      unfold cancelServerDid
      split
      · exact .spares hput
      · next c hc =>
        obtain ⟨-, rfl⟩ := mem_of_request hc
        have hts : w.WasListening (.cancelServer r) := by
          show w.cancelServers.get r ≠ none
          rw [show w.cancelServers.get r = some t from hget]
          exact Option.some_ne_none t
        exact .requested hidle hput hts
  | ackServer r =>
    dsimp only
    split
    · exact .spares h₁
    · next t hget => exact .ackServerHears hidle hl hget

theorem works_expire {w : World} (htidy : w.Tidy) (a : Agent) (n : TimerName)
    (hidle : w.stack = []) : Works S w (.timeout a n) (w.expire S a n) := by
  have hrefl : Spares w w := .refl w
  unfold expire
  cases a with
  | dialog => exact .spares hrefl
  | ackClient => exact .spares hrefl
  | inviteClient r =>
    dsimp only
    split
    · exact .spares hrefl
    · next t hget =>
      exact .spares (spares_inviteClientDid htidy hget fun h =>
        InviteTransactionClient.unpassed_expire h n)
  | client r =>
    dsimp only
    split
    · exact .spares hrefl
    · next t hget =>
      obtain ⟨hreq, hcalls⟩ := t.request_expire n
      exact .spares (spares_clientDid htidy hget hreq hcalls)
  | inviteServer r =>
    dsimp only
    split
    · exact .spares hrefl
    · next t hget => exact .inviteServerExpires hidle hget
  | server r =>
    dsimp only
    split
    · exact .spares hrefl
    · next t hget =>
      obtain ⟨hresp, hstatus, hcalls⟩ := t.response_expire n
      have hput := spares_putServer htidy hget hresp hstatus fun m hm => absurd hm (hcalls m)
      unfold serverDid
      rw [callback_expire]
      exact .spares hput
  | cancelServer r =>
    dsimp only
    split
    · exact .spares hrefl
    · next t hget =>
      obtain ⟨hresp, -, hcalls⟩ := t.response_expire n
      have hput := spares_putCancelServer htidy hget hresp fun m hm => absurd hm (hcalls m)
      unfold cancelServerDid
      rw [callback_expire]
      exact .spares hput
  | ackServer r =>
    dsimp only
    split
    · exact .spares hrefl
    · next t hget => exact .ackServerExpires hidle hget

theorem spares_resume (w : World) {c : Rest} (hc : ¬ c.IsAnswering) : Spares w (w.resume c) := by
  cases c with
  | inviteClient r rest =>
    refine spares_onInviteClient w _ fun t => ?_
    cases rest with
    | settle =>
      unfold InviteTransactionClient.resume
      dsimp only
      split
      · exact ⟨rfl, rfl, by simp⟩
      · unfold InviteTransactionClient.doTerminate
        split <;> exact ⟨rfl, rfl, by simp⟩
    | dropListener => exact ⟨rfl, rfl, by simp [InviteTransactionClient.resume]⟩
  | client r rest =>
    refine spares_onClient w _ fun t => ?_
    cases rest with
    | settle =>
      unfold TransactionClient.resume
      dsimp only
      split
      · exact ⟨rfl, by simp⟩
      · unfold TransactionClient.doTerminate
        split <;> exact ⟨rfl, by simp⟩
    | dropListener => exact ⟨rfl, by simp [TransactionClient.resume]⟩
  | inviteServer r rest => exact absurd trivial hc
  | fireDlgCall => exact spares_fire ..
  | fireDlgClosed => exact spares_fire ..
  | closeAfterBye => exact spares_ends w (by decide) _
  | sessionTimers m =>
    show Spares w (w.readSessionTimers m)
    unfold readSessionTimers
    split
    · exact .refl w
    · exact spares_of_dlg rfl rfl rfl rfl rfl (Int.le_refl _) (·.ackReq)
  | afterPrack => exact absurd trivial hc
  | afterResponderTimeout => exact absurd trivial hc

/-- **The list is complete.** -/
theorem works_step {w : World} (htidy : w.Tidy) (e : Event) : Works S w e (w.step S e) := by
  have hrefl : Spares w w := .refl w
  cases e with
  | recv m =>
    unfold step
    dsimp only
    split
    · next hidle =>
      unfold receive
      split
      · exact .spares hrefl
      · next a hl => exact works_deliver htidy hidle hl
    · exact .spares hrefl
  | timeout a n =>
    unfold step
    dsimp only
    split
    · next hidle => exact works_expire htidy a n hidle
    · exact .spares hrefl
  | responderTimeout n =>
    unfold step
    dsimp only
    split
    · next hidle => exact .responderTimeout hidle
    · exact .spares hrefl
  | api a =>
    unfold step
    dsimp only
    split
    · next huser => exact .asks huser (asks_call w a)
    · exact .spares hrefl
  | ret =>
    unfold step
    dsimp only
    split
    · exact .spares hrefl
    · exact .spares (spares_stack ..)
    · next c rest hstack =>
      by_cases hc : c.IsAnswering
      · exact .goesOn hstack hc
      · exact .spares ((spares_stack ..).trans (spares_resume _ hc))

end World
end SoftPhone
