import SoftPhone.Dialog.Sound

/-!
# What the client side leaves alone

The converse of `Serves`.  `Spares w w'` says that between `w` and `w'` nobody touched
what answers an INVITE: the references `invite_ts` and `ack_ts`, the INVITE and ACK
servers, the reliable responder.  The state may have changed, but not into one of the
states in which such a transaction is at work, and no request of the peer was taken.

Two weaker relations come with it.  `Unheard` only says that no request was taken and
that the remote sequence number did not go back.  `Tidy` is a property of one world:
what the other transactions hold and send again are requests, or responses that were
not passed to `respond` for an INVITE.
-/

namespace SoftPhone

open Machine

/-- Not a response that was passed to `respond` for an INVITE. -/
def SipMessage.Unpassed (m : SipMessage) : Prop :=
  m.isResponse = true → m.cseqMethod = .invite → m.passedFor = none

theorem SipMessage.unpassed_of_method {m : SipMessage} {method : Method}
    (h : m.requestMethod = some method) : m.Unpassed := by
  intro hresp
  unfold isResponse code? at hresp
  unfold requestMethod at h
  split at hresp
  · cases hresp
  · next hline =>
    rw [hline] at h
    cases h

theorem SipMessage.unpassed_of_isRequest {m : SipMessage} (h : m.isRequest = true) : m.Unpassed := by
  obtain ⟨method, hmethod⟩ := Option.isSome_iff_exists.mp h
  exact unpassed_of_method hmethod

theorem unpassed_createResponse (S : SipStack) (req : SipMessage) (code : ℤ)
    (contact : Option NameAddress) : (createResponse S req code contact).Unpassed :=
  fun _ _ => rfl

/-- The transactions that answer an INVITE. -/
def Agent.AnswersInvite : Agent → Prop
  | .inviteServer _ | .ackServer _ => True
  | _ => False

/-- What may be added to the log while nobody answers an INVITE. -/
def Obs.IsSpared : Obs → Prop
  | .sent a m => ¬ a.AnswersInvite ∧ m.Unpassed
  | .processed _ => False
  | .fired _ | .received _ _ => True

/-- The states in which a server transaction for an INVITE is at work or may come to
be. -/
def Status.IsServing (s : Status) : Prop :=
  s = .init ∨ s = .waiting ∨ s.IsInvited ∨ s.IsRefused ∨ s.IsAccepted

instance : DecidablePred Status.IsServing :=
  fun _ => inferInstanceAs (Decidable (_ ∨ _ ∨ _ ∨ _ ∨ _))

/-! ## Objects that a method was run on -/

/-- A property of every object survives a method that keeps it. -/
theorem forall_invoke {α : Type} {P : α → Prop} {h : Heap α}
    (hall : ∀ s b, h.get s = some b → P b) (r : Option ℕ) {f : α → α × List ProviderCall}
    (hf : ∀ a, P a → P (f a).1) : ∀ s b, (invoke h r f).1.get s = some b → P b := by
  cases r with
  | none => exact hall
  | some r => exact Heap.forall_modify (P := fun _ a => P a) hall hf

/-- What a method asked of the provider. -/
theorem mem_invoke {α : Type} {h : Heap α} {r : Option ℕ} {f : α → α × List ProviderCall}
    {c : ProviderCall} (hc : c ∈ (invoke h r f).2) :
    ∃ s a, r = some s ∧ h.get s = some a ∧ c ∈ (f a).2 := by
  cases r with
  | none => cases hc
  | some s =>
    cases ha : h.get s with
    | none => simp [invoke, ha] at hc
    | some a =>
      refine ⟨s, a, rfl, ha, ?_⟩
      simpa [invoke, ha] using hc

/-- An invite client sends its request and its ACK. -/
def InviteTransactionClient.Unpassed (t : InviteTransactionClient) : Prop :=
  t.request.Unpassed ∧ ∀ ack ∈ t.ack, ack.Unpassed

theorem unpassed_createNon2xxAckRequest (req resp : SipMessage) :
    (createNon2xxAckRequest req resp).Unpassed :=
  SipMessage.unpassed_of_method (show _ = some Method.ack from rfl)

namespace InviteTransactionClient

theorem unpassed_doTerminate {t : InviteTransactionClient} (h : t.Unpassed) :
    t.doTerminate.1.Unpassed ∧ ∀ m, ProviderCall.sendMessage m ∉ t.doTerminate.2 := by
  unfold doTerminate
  split
  · exact ⟨h, by simp⟩
  · exact ⟨h, by simp⟩

theorem unpassed_onReceivedMessage {t : InviteTransactionClient} (h : t.Unpassed)
    (conn : Option ConnectionId) (m : SipMessage) :
    (t.onReceivedMessage conn m).self.Unpassed ∧
      ∀ m', ProviderCall.sendMessage m' ∈ (t.onReceivedMessage conn m).calls → m'.Unpassed := by
  have hterminate := unpassed_doTerminate h
  have hack := unpassed_createNon2xxAckRequest t.request m
  unfold onReceivedMessage
  split
  · exact ⟨h, by simp⟩
  · split
    · split <;> exact ⟨h, by simp⟩
    · split
      · refine ⟨⟨h.1, fun ack ha => ?_⟩, fun m' hm' => ?_⟩
        · rw [← Option.some.inj ha]
          exact hack
        · simp only [List.mem_singleton, ProviderCall.sendMessage.injEq] at hm'
          rw [hm']
          exact hack
      · split
        · refine ⟨h, fun m' hm' => ?_⟩
          split at hm'
          · simp only [List.mem_map, Option.mem_toList, ProviderCall.sendMessage.injEq] at hm'
            obtain ⟨ack, ha, rfl⟩ := hm'
            exact h.2 ack ha
          · cases hm'
        · split
          · exact ⟨hterminate.1, fun m' hm' => absurd hm' (hterminate.2 m')⟩
          · exact ⟨h, by simp⟩

theorem unpassed_expire {t : InviteTransactionClient} (h : t.Unpassed) (n : TimerName) :
    (t.expire n).self.Unpassed ∧
      ∀ m, ProviderCall.sendMessage m ∈ (t.expire n).calls → m.Unpassed := by
  have hterminate (n : TimerName) : (t.haltTimer n).doTerminate.1.Unpassed ∧
      ∀ m, ProviderCall.sendMessage m ∉ (t.haltTimer n).doTerminate.2 := by
    refine unpassed_doTerminate ?_
    cases n <;> exact h
  cases n <;>
    grind [InviteTransactionClient.expire, InviteTransactionClient.timer,
      InviteTransactionClient.haltTimer, InviteTransactionClient.onTimeout, Timer.expire,
      InviteTransactionClient.Unpassed]

end InviteTransactionClient

namespace TransactionClient

theorem request_onReceivedMessage (t : TransactionClient) (m : SipMessage) :
    (t.onReceivedMessage m).self.request = t.request ∧
      ∀ m', ProviderCall.sendMessage m' ∉ (t.onReceivedMessage m).calls := by
  unfold onReceivedMessage
  split
  · exact ⟨rfl, by simp⟩
  · split
    · exact ⟨rfl, by simp⟩
    · split <;> exact ⟨rfl, by simp⟩

theorem request_expire (t : TransactionClient) (n : TimerName) :
    (t.expire n).self.request = t.request ∧
      ∀ m, ProviderCall.sendMessage m ∈ (t.expire n).calls → m = t.request := by
  have hterminate (t : TransactionClient) : t.doTerminate.1.request = t.request ∧
      ∀ m, ProviderCall.sendMessage m ∉ t.doTerminate.2 := by
    unfold doTerminate
    split <;> exact ⟨rfl, by simp⟩
  cases n <;>
    grind [TransactionClient.expire, TransactionClient.timer, TransactionClient.haltTimer,
      TransactionClient.onTimeout, Timer.expire]

end TransactionClient

namespace TransactionServer

/-- A generic server sends its response again. -/
theorem response_onReceivedMessage (t : TransactionServer) (m : SipMessage) :
    (t.onReceivedMessage m).self.response = t.response ∧
      (t.status ≠ .waiting → (t.onReceivedMessage m).self.status ≠ .waiting) ∧
      ∀ m', ProviderCall.sendMessage m' ∈ (t.onReceivedMessage m).calls → m' ∈ t.response := by
  grind [onReceivedMessage, begin]

theorem response_expire (t : TransactionServer) (n : TimerName) :
    (t.expire n).self.response = t.response ∧
      (t.status ≠ .waiting → (t.expire n).self.status ≠ .waiting) ∧
      ∀ m, ProviderCall.sendMessage m ∉ (t.expire n).calls := by
  cases n <;> grind [expire, onTimeout, Timer.expire, doTerminate]

end TransactionServer

namespace World

variable {S : SipStack}

/-- What the transactions hold that do not answer an INVITE. -/
structure Tidy (w : World) : Prop where
  ackReq : ∀ ack ∈ w.dlg.ackReq, ack.Unpassed
  inviteClients : ∀ r t, w.inviteClients.get r = some t → t.Unpassed
  clients : ∀ r t, w.clients.get r = some t → t.request.Unpassed
  servers : ∀ r t, w.servers.get r = some t → ∀ resp ∈ t.response, resp.Unpassed
  cancelServers : ∀ r t, w.cancelServers.get r = some t → ∀ resp ∈ t.response, resp.Unpassed

theorem Tidy.congr {w w' : World} (h : w.Tidy) (hack : w'.dlg.ackReq = w.dlg.ackReq)
    (hinvite : w'.inviteClients = w.inviteClients) (hclients : w'.clients = w.clients)
    (hservers : w'.servers = w.servers) (hcancel : w'.cancelServers = w.cancelServers) : w'.Tidy :=
  ⟨hack ▸ h.ackReq, hinvite ▸ h.inviteClients, hclients ▸ h.clients, hservers ▸ h.servers,
    hcancel ▸ h.cancelServers⟩

/-- No generic server waits for its request. -/
def NoneListens (w : World) : Prop := ∀ r t, w.servers.get r = some t → t.status ≠ .waiting

/-- Between `w` and `w'` no request of the peer was taken. -/
structure Unheard (w w' : World) : Prop where
  remoteCSeq : w.dlg.info.remoteCSeq ≤ w'.dlg.info.remoteCSeq
  log : ∃ l, w'.log = l ++ w.log ∧ ∀ o ∈ l, ∀ m, o ≠ .processed m

/-- Between `w` and `w'` nobody touched what answers an INVITE. -/
structure Spares (w w' : World) : Prop where
  inviteTs : w'.dlg.inviteTs = w.dlg.inviteTs
  ackTs : w'.dlg.ackTs = w.dlg.ackTs
  reliableResponder : w'.dlg.reliableResponder = w.dlg.reliableResponder
  inviteServers : w'.inviteServers = w.inviteServers
  ackServers : w'.ackServers = w.ackServers
  status : w'.status = w.status ∨ ¬ w'.status.IsServing
  inviteReq : w'.dlg.inviteReq = w.dlg.inviteReq ∨ ¬ w'.status.IsServing
  remoteCSeq : w.dlg.info.remoteCSeq ≤ w'.dlg.info.remoteCSeq
  listeners : ∀ id a, a.AnswersInvite → w'.provider.sipListeners id = some a →
    w.provider.sipListeners id = some a
  tidy : w.Tidy → w'.Tidy
  noneListens : w.NoneListens → w'.NoneListens
  cancelServers : ∀ r, w.cancelServers.get r = none → w'.cancelServers.get r = none
  log : ∃ l, w'.log = l ++ w.log ∧ ∀ o ∈ l, o.IsSpared

namespace Unheard

theorem refl (w : World) : Unheard w w := ⟨Int.le_refl _, [], rfl, by simp⟩

theorem trans {w w' w'' : World} (h : Unheard w w') (h' : Unheard w' w'') : Unheard w w'' :=
  ⟨Int.le_trans h.remoteCSeq h'.remoteCSeq, extension_trans h.log h'.log⟩

end Unheard

namespace Spares

theorem refl (w : World) : Spares w w :=
  ⟨rfl, rfl, rfl, rfl, rfl, .inl rfl, .inl rfl, Int.le_refl _, fun _ _ _ h => h, id, id,
    fun _ h => h, [], rfl, by simp⟩

theorem trans {w w' w'' : World} (h : Spares w w') (h' : Spares w' w'') : Spares w w'' where
  inviteTs := h'.inviteTs.trans h.inviteTs
  ackTs := h'.ackTs.trans h.ackTs
  reliableResponder := h'.reliableResponder.trans h.reliableResponder
  inviteServers := h'.inviteServers.trans h.inviteServers
  ackServers := h'.ackServers.trans h.ackServers
  status := by
    rcases h'.status with heq | hnot
    · rw [heq]
      exact h.status
    · exact .inr hnot
  inviteReq := by
    rcases h'.inviteReq with heq | hnot
    · rw [heq]
      rcases h'.status with hstatus | hnot
      · rw [hstatus]
        exact h.inviteReq
      · exact .inr hnot
    · exact .inr hnot
  remoteCSeq := Int.le_trans h.remoteCSeq h'.remoteCSeq
  listeners := fun id a ha hid => h.listeners id a ha (h'.listeners id a ha hid)
  tidy := fun hw => h'.tidy (h.tidy hw)
  noneListens := fun hw => h'.noneListens (h.noneListens hw)
  cancelServers := fun r hr => h'.cancelServers r (h.cancelServers r hr)
  log := extension_trans h.log h'.log

theorem unheard {w w' : World} (h : Spares w w') : Unheard w w' := by
  obtain ⟨l, hl, hspared⟩ := h.log
  refine ⟨h.remoteCSeq, l, hl, ?_⟩
  rintro o ho m rfl
  exact hspared _ ho

end Spares

/-! ## Small steps -/

theorem spares_of_dlg {w : World} {d : InviteDialog} (hstatus : d.status = w.dlg.status)
    (hts : d.inviteTs = w.dlg.inviteTs) (hack : d.ackTs = w.dlg.ackTs)
    (hrr : d.reliableResponder = w.dlg.reliableResponder) (hreq : d.inviteReq = w.dlg.inviteReq)
    (hcseq : w.dlg.info.remoteCSeq ≤ d.info.remoteCSeq)
    (hackReq : w.Tidy → ∀ ack ∈ d.ackReq, ack.Unpassed) :
    Spares w { w with dlg := d } :=
  ⟨hts, hack, hrr, rfl, rfl, .inl hstatus, .inl hreq, hcseq, fun _ _ _ h => h,
    fun h => ⟨hackReq h, h.inviteClients, h.clients, h.servers, h.cancelServers⟩, id, fun _ h => h, [],
    rfl, by simp⟩

/-- Calls of a transaction that does not answer an INVITE. -/
theorem spares_of_calls {w w' : World} {a : Agent} (ha : ¬ a.AnswersInvite)
    {cs : List ProviderCall} (hsent : ∀ m, ProviderCall.sendMessage m ∈ cs → m.Unpassed)
    (hprovider : w'.provider = w.provider.calls a cs) (hdlg : w'.dlg = w.dlg)
    (hinvite : w'.inviteServers = w.inviteServers) (hack : w'.ackServers = w.ackServers)
    (hlisten : w.NoneListens → w'.NoneListens)
    (hcancel : ∀ r, w.cancelServers.get r = none → w'.cancelServers.get r = none)
    (htidy : w.Tidy → w'.Tidy) : Spares w w' := by
  refine ⟨by rw [hdlg], by rw [hdlg], by rw [hdlg], hinvite, hack, .inl (by rw [status, hdlg]),
    .inl (by rw [hdlg]), Int.le_of_eq (by rw [hdlg]), ?_, htidy, hlisten, hcancel,
    SipProvider.sents a cs, ?_, ?_⟩
  · intro id b hb hid
    have hne : a ≠ b := by
      rintro rfl
      exact ha hb
    rw [hprovider] at hid
    exact SipProvider.listener_calls_of_ne hne cs hid
  · rw [log, hprovider, SipProvider.log_calls]
  · intro o ho
    obtain ⟨m, hm, rfl⟩ := SipProvider.mem_sents.mp ho
    exact ⟨ha, hsent m hm⟩

/-- Something is observed, or put on the stack. -/
theorem spares_observe (w : World) {o : Obs} (ho : o.IsSpared) : Spares w (w.observe o) :=
  ⟨rfl, rfl, rfl, rfl, rfl, .inl rfl, .inl rfl, Int.le_refl _, fun _ _ _ h => h,
    (·.congr rfl rfl rfl rfl rfl), id, fun _ h => h, [o], rfl, by simpa using ho⟩

theorem spares_fire (w : World) (c : DialogCallback) : Spares w (w.fire c) :=
  ⟨rfl, rfl, rfl, rfl, rfl, .inl rfl, .inl rfl, Int.le_refl _, fun _ _ _ h => h,
    (·.congr rfl rfl rfl rfl rfl), id, fun _ h => h, [.fired c], rfl,
    by simp [Obs.IsSpared]⟩

theorem spares_stack (w : World) (stack : List Frame) : Spares w { w with stack := stack } :=
  ⟨rfl, rfl, rfl, rfl, rfl, .inl rfl, .inl rfl, Int.le_refl _, fun _ _ _ h => h,
    (·.congr rfl rfl rfl rfl rfl), id, fun _ h => h, [], rfl, by simp⟩

theorem spares_suspend (w : World) (rest : Rest) : Spares w (w.suspend rest) :=
  spares_stack w _

/-- A closed state, a call that stands, a request of the user. -/
theorem spares_changeStatus (w : World) {s : Status} (hs : ¬ s.IsServing) :
    Spares w (w.changeStatus s) := by
  refine ⟨rfl, rfl, rfl, rfl, rfl, .inr hs, .inl rfl, Int.le_refl _, ?_, 
    (·.congr rfl rfl rfl rfl rfl), id, fun _ h => h,
    SipProvider.sents .dialog (w.statusCalls s), SipProvider.log_calls .., ?_⟩
  · intro id a ha hid
    exact SipProvider.listener_calls_of_ne (by rintro rfl; exact ha) _ hid
  · intro o ho
    obtain ⟨m, hm, rfl⟩ := SipProvider.mem_sents.mp ho
    unfold statusCalls at hm
    split at hm
    · cases hm
    · split at hm <;> split at hm <;> simp at hm

/-- The remote sequence number does not go back. -/
theorem remoteCSeq_updateInfo (d : InviteDialog) (isClient : Bool) (m : SipMessage) :
    d.info.remoteCSeq ≤ (d.updateInfo isClient m).info.remoteCSeq := by
  unfold InviteDialog.updateInfo
  dsimp only
  split
  · exact Int.le_refl _
  · cases isClient with
    | true => exact Int.le_of_eq (DialogInfo.update_client_remoteCSeq ..).symm
    | false =>
      rw [DialogInfo.update_server_remoteCSeq]
      omega

theorem spares_updateDialogInfo (w : World) (isClient : Bool) (m : SipMessage) :
    Spares w (w.updateDialogInfo isClient m) := by
  refine ⟨rfl, rfl, rfl, rfl, rfl, .inl rfl, .inl rfl, remoteCSeq_updateInfo .., ?_,
    (·.congr rfl rfl rfl rfl rfl), id, fun _ h => h,
    SipProvider.sents .dialog _, SipProvider.log_calls .., ?_⟩
  · intro id a ha hid
    exact SipProvider.listener_calls_of_ne (by rintro rfl; exact ha) _ hid
  · intro o ho
    obtain ⟨m, hm, rfl⟩ := SipProvider.mem_sents.mp ho
    split at hm <;> simp at hm

/-- A factory of requests in the dialog. -/
def MakesRequest (factory : String → DialogInfo → Option (SipMessage × DialogInfo)) : Prop :=
  ∀ branch info p, factory branch info = some p →
    p.1.isRequest = true ∧ p.2.remoteCSeq = info.remoteCSeq

theorem makesRequest_createDialogRequest (method : Method) (contentType body : Option String) :
    MakesRequest fun branch info => createDialogRequest branch info method contentType body := by
  intro branch info p hp
  refine ⟨by rw [SipMessage.isRequest, (createDialogRequest_method hp).1]; rfl, ?_⟩
  rw [(createDialogRequest_info hp).2.2]
  split <;> rfl

/-- Header fields that are added to a request. -/
theorem MakesRequest.map {factory : String → DialogInfo → Option (SipMessage × DialogInfo)}
    (h : MakesRequest factory) {f : DialogInfo → SipMessage × DialogInfo → SipMessage × DialogInfo}
    (hf : ∀ info p, (f info p).1.firstLine = p.1.firstLine ∧ (f info p).2 = p.2) :
    MakesRequest fun branch info => (factory branch info).map (f info) := by
  intro branch info p hp
  obtain ⟨q, hq, rfl⟩ := Option.map_eq_some_iff.mp hp
  obtain ⟨hreq, hcseq⟩ := h branch info q hq
  obtain ⟨hline, hinfo⟩ := hf info q
  refine ⟨?_, by rw [hinfo]; exact hcseq⟩
  rw [← hreq]
  unfold SipMessage.isRequest SipMessage.requestMethod
  rw [hline]

theorem makesRequest_createPrackRequest (resp : SipMessage) (contentType body : Option String) :
    MakesRequest fun branch info => createPrackRequest branch info resp contentType body := by
  unfold createPrackRequest
  split
  · intro branch info p hp
    cases hp
  · next rseq _ =>
    have hdialog := makesRequest_createDialogRequest .prack contentType body
    exact hdialog.map (f := fun _ p =>
      ({ p.1 with rack := some ⟨rseq, resp.cseq, resp.cseqMethod⟩ }, p.2)) fun info p => ⟨rfl, rfl⟩

/-- Making a request takes a branch and a sequence number. -/
theorem spares_create {w w' : World} {req : SipMessage}
    {factory : String → DialogInfo → Option (SipMessage × DialogInfo)}
    (hfactory : MakesRequest factory) (h : w.create S factory = some (req, w')) :
    Spares w w' ∧ req.Unpassed := by
  obtain ⟨p, hp, heq⟩ := Option.map_eq_some_iff.mp h
  cases heq
  obtain ⟨hreq, hcseq⟩ := hfactory _ _ _ hp
  refine ⟨?_, SipMessage.unpassed_of_isRequest hreq⟩
  exact ⟨rfl, rfl, rfl, rfl, rfl, .inl rfl, .inl rfl, Int.le_of_eq hcseq.symm, fun _ _ _ h => h,
    (·.congr rfl rfl rfl rfl rfl), id, fun _ h => h, [], rfl, by simp⟩

/-! ## Transactions that do not answer an INVITE -/

theorem spares_startClient (w : World) {req : SipMessage} (listener : Bool) (hreq : req.Unpassed) :
    Spares w (w.startClient S req listener) := by
  refine spares_of_calls (a := .client _) id ?_ rfl rfl rfl rfl id (fun _ h => h) fun h =>
    ⟨h.ackReq, h.inviteClients, Heap.forall_new (P := fun _ (t : TransactionClient) => t.request.Unpassed)
      h.clients hreq, h.servers, h.cancelServers⟩
  intro m hm
  simp only [TransactionClient.start, List.mem_cons, reduceCtorEq, List.not_mem_nil, or_false,
    ProviderCall.sendMessage.injEq, false_or] at hm
  rw [hm]
  exact hreq

theorem spares_startInviteClient (w : World) {req : SipMessage} (hreq : req.Unpassed) :
    Spares w (w.startInviteClient S req) := by
  refine spares_of_calls (a := .inviteClient _) id ?_ rfl rfl rfl rfl id (fun _ h => h) fun h =>
    ⟨h.ackReq, Heap.forall_new (P := fun _ (t : InviteTransactionClient) => t.Unpassed) h.inviteClients
        ⟨hreq, fun ack hack => by cases hack⟩, h.clients, h.servers, h.cancelServers⟩
  intro m hm
  simp only [InviteTransactionClient.start, List.mem_cons, reduceCtorEq, List.not_mem_nil, or_false,
    ProviderCall.sendMessage.injEq, false_or] at hm
  rw [hm]
  exact hreq

theorem spares_startAckClient (w : World) {ack : SipMessage} (hack : ack.Unpassed) :
    Spares w (w.startAckClient ack) := by
  refine spares_of_calls (a := .ackClient) id ?_ rfl rfl rfl rfl id (fun _ h => h)
    (·.congr rfl rfl rfl rfl rfl)
  intro m hm
  simp only [List.mem_cons, List.not_mem_nil, or_false, ProviderCall.sendMessage.injEq] at hm
  rw [hm]
  exact hack

theorem spares_startServer (w : World) (req : SipMessage) (listener : Bool) :
    Spares w (w.startServer req listener) := by
  refine spares_of_calls (a := .server _) id ?_ rfl rfl rfl rfl
    (fun h => Heap.forall_new (P := fun _ (t : TransactionServer) => t.status ≠ .waiting) h
      (by simp [TransactionServer.new])) (fun _ h => h) fun h =>
    ⟨h.ackReq, h.inviteClients, h.clients, Heap.forall_new
      (P := fun _ (t : TransactionServer) => ∀ resp ∈ t.response, resp.Unpassed) h.servers
      (fun resp hresp => by cases hresp), h.cancelServers⟩
  intro m hm
  simp [TransactionServer.new] at hm

/-- A method of a client that sends nothing and keeps the messages. -/
theorem spares_onInviteClient (w : World) (r : Option ℕ)
    {f : InviteTransactionClient → InviteTransactionClient × List ProviderCall}
    (hf : ∀ t, (f t).1.request = t.request ∧ (f t).1.ack = t.ack ∧
      ∀ m, ProviderCall.sendMessage m ∉ (f t).2) : Spares w (w.onInviteClient r f) := by
  refine spares_of_calls (a := .inviteClient _) id ?_ rfl rfl rfl rfl id (fun _ h => h) fun h =>
    ⟨h.ackReq, forall_invoke (P := fun (t : InviteTransactionClient) => t.Unpassed)
      h.inviteClients r fun t ht => by
        rw [InviteTransactionClient.Unpassed, (hf t).1, (hf t).2.1]; exact ht, h.clients, h.servers, h.cancelServers⟩
  intro m hm
  obtain ⟨-, t, -, -, hm⟩ := mem_invoke hm
  exact absurd hm ((hf t).2.2 m)

theorem spares_onClient (w : World) (r : Option ℕ)
    {f : TransactionClient → TransactionClient × List ProviderCall}
    (hf : ∀ t, (f t).1.request = t.request ∧ ∀ m, ProviderCall.sendMessage m ∉ (f t).2) :
    Spares w (w.onClient r f) := by
  refine spares_of_calls (a := .client _) id ?_ rfl rfl rfl rfl id (fun _ h => h) fun h =>
    ⟨h.ackReq, h.inviteClients, forall_invoke (P := fun (t : TransactionClient) => t.request.Unpassed)
      h.clients r fun t ht => by rw [(hf t).1]; exact ht, h.servers, h.cancelServers⟩
  intro m hm
  obtain ⟨-, t, -, -, hm⟩ := mem_invoke hm
  exact absurd hm ((hf t).2 m)

/-- What a generic server may be told: to terminate, or to send a response that was
not passed for an INVITE. -/
def KeepsUnpassed (f : TransactionServer → TransactionServer × List ProviderCall) : Prop :=
  ∀ t, (∀ resp ∈ (f t).1.response, resp ∈ t.response ∨ resp.Unpassed) ∧
    (t.status ≠ .waiting → (f t).1.status ≠ .waiting) ∧
    ∀ m, ProviderCall.sendMessage m ∈ (f t).2 → m.Unpassed

theorem keepsUnpassed_terminate : KeepsUnpassed (·.terminate) := by
  intro t
  simp only [TransactionServer.terminate, TransactionServer.doTerminate]
  split
  · exact ⟨fun resp h => .inl h, id, fun m hm => by simp at hm⟩
  · exact ⟨fun resp h => .inl h, fun _ => by simp, fun m hm => by simp at hm⟩

theorem keepsUnpassed_respondWith {resp : SipMessage} (hresp : resp.Unpassed) :
    KeepsUnpassed (·.respondWith resp) := by
  intro t
  have hsent : ({ resp with connectionId := t.connectionId } : SipMessage).Unpassed := hresp
  have hterminate (t : TransactionServer) : t.doTerminate.1.response = t.response ∧
      t.doTerminate.1.status = .terminated ∧
      ∀ m, ProviderCall.sendMessage m ∉ t.doTerminate.2 := by
    unfold TransactionServer.doTerminate
    split <;> simp_all
  grind [TransactionServer.respondWith, TransactionServer.complete]

theorem forall_response {h : Heap TransactionServer}
    (hall : ∀ r t, h.get r = some t → ∀ resp ∈ t.response, resp.Unpassed) (r : Option ℕ)
    {f : TransactionServer → TransactionServer × List ProviderCall} (hf : KeepsUnpassed f) :
    ∀ s t, (invoke h r f).1.get s = some t → ∀ resp ∈ t.response, resp.Unpassed := by
  refine forall_invoke (P := fun (t : TransactionServer) => ∀ resp ∈ t.response, resp.Unpassed)
    hall r fun t ht resp hresp => ?_
  rcases (hf t).1 resp hresp with h | h
  · exact ht resp h
  · exact h

theorem spares_onServer (w : World) (r : Option ℕ)
    {f : TransactionServer → TransactionServer × List ProviderCall} (hf : KeepsUnpassed f) :
    Spares w (w.onServer r f) := by
  refine spares_of_calls (a := .server _) id ?_ rfl rfl rfl rfl
    (fun h => forall_invoke (P := fun (t : TransactionServer) => t.status ≠ .waiting) h r
      fun t => (hf t).2.1) (fun _ h => h) fun h =>
    ⟨h.ackReq, h.inviteClients, h.clients, forall_response h.servers r hf, h.cancelServers⟩
  intro m hm
  obtain ⟨-, t, -, -, hm⟩ := mem_invoke hm
  exact (hf t).2.2 m hm

theorem spares_onCancelServer (w : World) (r : Option ℕ)
    {f : TransactionServer → TransactionServer × List ProviderCall} (hf : KeepsUnpassed f) :
    Spares w (w.onCancelServer r f) := by
  refine spares_of_calls (a := .cancelServer _) id ?_ rfl rfl rfl rfl id ?_ fun h =>
    ⟨h.ackReq, h.inviteClients, h.clients, h.servers, forall_response h.cancelServers r hf⟩
  · intro m hm
    obtain ⟨-, t, -, -, hm⟩ := mem_invoke hm
    exact (hf t).2.2 m hm
  · intro s hs
    rw [show (w.onCancelServer r f).cancelServers = (invoke w.cancelServers r f).1 from rfl,
      get_invoke, hs]
    split <;> rfl

theorem spares_answer (w : World) (req : SipMessage) {resp : SipMessage} (hresp : resp.Unpassed) :
    Spares w (w.answer req resp) :=
  (spares_startServer w req false).trans (spares_onServer _ _ (keepsUnpassed_respondWith hresp))

/-! ## Responses of other methods -/

/-- A response goes to a server for an INVITE only when its CSeq method is INVITE and
the INVITE is pending. -/
theorem spares_respond {w : World} {resp : SipMessage} (hresp : resp.Unpassed)
    (hidle : resp.cseqMethod ≠ .invite ∨ ¬ w.status.IsInvited) : Spares w (w.respond S resp) := by
  unfold respond
  extract_lets method
  split
  · exact spares_onServer _ _ (keepsUnpassed_respondWith hresp)
  · unfold inviteDialogRespond
    split
    · next hmethod =>
      unfold respondInvite
      rw [if_neg (hidle.resolve_left fun hne => hne hmethod)]
      exact .refl w
    · split
      · exact (spares_updateDialogInfo ..).trans
          (spares_onServer _ _ (keepsUnpassed_respondWith hresp))
      · exact .refl w
    · split
      · exact spares_onServer _ _ (keepsUnpassed_respondWith hresp)
      · exact .refl w
    · exact .refl w

/-! ## Requests of the peer, once they are taken -/

theorem spares_onReceivedInfo (w : World) (m : SipMessage) :
    Spares (w.observe (.processed m)) (w.onReceivedInfo S m) := by
  have hanswer := spares_answer (w.observe (.processed m)) m (unpassed_createResponse S m 200 none)
  unfold onReceivedInfo
  dsimp only
  split
  · exact hanswer.trans (spares_fire ..)
  · exact hanswer

theorem spares_setByeTs (w : World) (r : ℕ) : Spares w (w.setByeTs r) :=
  spares_of_dlg rfl rfl rfl rfl rfl (Int.le_refl _) (·.ackReq)

theorem spares_setUpdateTs (w : World) (r : ℕ) : Spares w (w.setUpdateTs r) :=
  spares_of_dlg rfl rfl rfl rfl rfl (Int.le_refl _) (·.ackReq)

theorem spares_onReceivedUpdate (w : World) (m : SipMessage) :
    Spares (w.observe (.processed m)) (w.onReceivedUpdate m) :=
  (((spares_updateDialogInfo ..).trans (spares_setUpdateTs ..)).trans (spares_startServer ..)).trans
    (spares_fire ..)

/-- A BYE is taken, or nothing happens. -/
theorem spares_onReceivedBye (w : World) (m : SipMessage) :
    w.onReceivedBye S m = w ∨ Spares (w.observe (.processed m)) (w.onReceivedBye S m) := by
  unfold onReceivedBye
  split
  · right
    extract_lets w₁ w₂ w₃
    have h₁ : Spares (w.observe (.processed m)) w₁ := spares_changeStatus _ (by decide)
    have h₂ : Spares w₁ w₂ := (spares_setByeTs ..).trans (spares_startServer ..)
    have hbyed : w₂.status = .byed := rfl
    have h₃ : Spares w₂ w₃ := by
      refine spares_respond (unpassed_createResponse S m 200 none) (.inr ?_)
      rw [hbyed]
      decide
    exact ((h₁.trans h₂).trans h₃).trans ((spares_suspend ..).trans (spares_fire ..))
  · exact .inl rfl

/-! ## Responses -/

theorem spares_onReceivedResponse {w : World} (htidy : w.Tidy) :
    Spares w w.onReceivedResponse := by
  unfold onReceivedResponse
  split
  · split
    · exact .refl w
    · next ack hreq => exact spares_startAckClient _ (htidy.ackReq ack hreq)
  · exact .refl w

/-! ## Callbacks of the client transactions -/

theorem spares_confirm1xx (w : World) (prack : SipMessage) : Spares w (w.confirm1xx S prack) := by
  unfold confirm1xx
  split
  · next hprack =>
    exact spares_startClient w _ (SipMessage.unpassed_of_method (by simpa [SipMessage.is] using hprack))
  · exact .refl w

theorem spares_confirm1xxOf (w : World) (resp : SipMessage) (contentType body : Option String) :
    Spares w (w.confirm1xxOf S resp contentType body) := by
  unfold confirm1xxOf
  split
  · exact .refl w
  · next prack w₁ hcreate =>
    have h₁ := (spares_create (makesRequest_createPrackRequest resp contentType body) hcreate).1
    exact h₁.trans (spares_confirm1xx w₁ prack)

theorem spares_onReliableResponse (w : World) (rseq : ℤ) (m : SipMessage) :
    Spares w (w.onReliableResponse S rseq m) := by
  unfold onReliableResponse
  extract_lets _ _ w₁
  have h₁ : Spares w w₁ := spares_of_dlg rfl rfl rfl rfl rfl (Int.le_refl _) (·.ackReq)
  split
  · split
    · exact h₁
    · next prack w₂ hcreate =>
      have h₂ := (spares_create (makesRequest_createPrackRequest m none none) hcreate).1
      exact ((h₁.trans h₂).trans (spares_confirm1xx w₂ prack)).trans (spares_fire ..)
  · exact h₁.trans (spares_fire ..)

theorem spares_onTransProvisionalResponse (w : World) (method : Method) (m : SipMessage) :
    Spares w (w.onTransProvisionalResponse S method m) := by
  unfold onTransProvisionalResponse
  split
  · extract_lets w₁
    have h₁ : Spares w w₁ := by
      unfold w₁
      split
      · exact spares_updateDialogInfo ..
      · exact .refl w
    split
    · split
      · exact h₁.trans (spares_onReliableResponse ..)
      · exact h₁
    · exact h₁.trans (spares_fire ..)
  · exact .refl w

/-- A state that ends the wait for an answer, and a callback. -/
theorem spares_ends (w : World) {s : Status} (hs : ¬ s.IsServing) (c : DialogCallback) :
    Spares w ((w.changeStatus s).fire c) :=
  (spares_changeStatus w hs).trans (spares_fire ..)

theorem spares_closes (w : World) (c : DialogCallback) :
    Spares w (((w.changeStatus .close).suspend .fireDlgClosed).fire c) :=
  ((spares_changeStatus w (by decide)).trans (spares_suspend ..)).trans (spares_fire ..)

theorem spares_failure (w : World) (method : Method) (m : SipMessage) :
    Spares w (w.inviteDialogOnTransFailureResponse method m) := by
  unfold inviteDialogOnTransFailureResponse
  split
  · unfold onInviteFailureResponse
    split
    · exact spares_ends w (by decide) _
    · split
      · exact spares_closes w _
      · exact .refl w
  · split
    · exact spares_fire ..
    · exact .refl w
  · split
    · exact spares_ends w (by decide) _
    · exact .refl w
  · exact .refl w

theorem spares_sendAck (w : World) {ack : SipMessage} (hack : ack.Unpassed) :
    Spares w (w.sendAck ack) := by
  have h₁ : Spares w { w with dlg.ackReq := some ack } :=
    spares_of_dlg rfl rfl rfl rfl rfl (Int.le_refl _) fun _ a ha => by
      rw [← Option.some.inj ha]; exact hack
  exact h₁.trans (spares_startAckClient _ hack)

theorem makesRequest_create2xxAckRequest (resp : SipMessage) (contentType body : Option String) :
    MakesRequest fun branch info => create2xxAckRequest branch info resp contentType body := by
  have hdialog := makesRequest_createDialogRequest .ack contentType body
  exact hdialog.map (f := fun _ p => ({ p.1 with cseq := resp.cseq, cseqMethod := .ack }, p.2))
    fun info p => ⟨rfl, rfl⟩

theorem spares_acknowledge {w w' : World} {m : SipMessage} (h : w.acknowledge S m = some w') :
    Spares w w' := by
  unfold acknowledge at h
  split at h
  · obtain ⟨p, hcreate, rfl⟩ := Option.map_eq_some_iff.mp h
    obtain ⟨h₁, hack⟩ := spares_create (makesRequest_create2xxAckRequest m none none) hcreate
    exact h₁.trans (spares_sendAck _ hack)
  · rw [← Option.some.inj h]
    exact spares_of_dlg rfl rfl rfl rfl rfl (Int.le_refl _) (·.ackReq)

theorem spares_fireSuccess (w : World) (reInviting : Bool) (m : SipMessage) :
    Spares w (w.fireSuccess reInviting m) := by
  unfold fireSuccess
  split
  · exact (spares_suspend ..).trans (spares_fire ..)
  · exact ((spares_suspend ..).trans (spares_suspend ..)).trans (spares_fire ..)

theorem spares_onInviteSuccessResponse (w : World) (m : SipMessage) :
    Spares w (w.onInviteSuccessResponse S m) := by
  unfold onInviteSuccessResponse
  split
  · extract_lets reInviting w₁
    have h₁ : Spares w w₁ :=
      (spares_changeStatus w (by decide)).trans (spares_updateDialogInfo ..)
    split
    · exact h₁
    · next w₂ hw₂ => exact (h₁.trans (spares_acknowledge hw₂)).trans (spares_fireSuccess ..)
  · exact .refl w

theorem spares_success (w : World) (method : Method) (m : SipMessage) :
    Spares w (w.inviteDialogOnTransSuccessResponse S method m) := by
  unfold inviteDialogOnTransSuccessResponse
  split
  · exact spares_onInviteSuccessResponse w m
  · split
    · exact (spares_updateDialogInfo ..).trans (spares_fire ..)
    · exact .refl w
  · split
    · exact spares_closes w _
    · exact .refl w
  · exact .refl w

theorem spares_timeout (w : World) (method : Method) :
    Spares w (w.inviteDialogOnTransTimeout method) := by
  unfold inviteDialogOnTransTimeout
  split
  · split
    · exact spares_closes w _
    · exact .refl w
  · split
    · exact spares_ends w (by decide) _
    · exact .refl w
  · exact .refl w

/-- A request that is sent again with credentials. -/
theorem spares_authenticate (w : World) {req : SipMessage} (hreq : req.Unpassed) (m : SipMessage)
    (ch : Challenge) : Spares w (w.authenticate S req m ch) := by
  unfold authenticate
  extract_lets _ w₁ req₁ _ w₂
  have h₁ : Spares w w₁ := spares_of_dlg rfl rfl rfl rfl rfl (Int.le_refl _) (·.ackReq)
  have h₂ : Spares w₁ w₂ := ⟨rfl, rfl, rfl, rfl, rfl, .inl rfl, .inl rfl, Int.le_refl _,
    fun _ _ _ h => h, (·.congr rfl rfl rfl rfl rfl), id, fun _ h => h, [], rfl, by simp⟩
  have hreq₁ : req₁.Unpassed := by
    unfold req₁ authorized
    dsimp only
    split <;> exact hreq
  split
  · exact h₁
  · split
    · exact h₁.trans h₂
    · split
      · exact (h₁.trans h₂).trans (spares_startInviteClient _ hreq₁)
      · exact (h₁.trans h₂).trans (spares_startClient _ _ hreq₁)

theorem spares_onClientCallback (w : World) {req : SipMessage} (hreq : req.Unpassed)
    (c : ClientCallback) : Spares w (w.onClientCallback S req c) := by
  cases c with
  | onTransProvisionalResponse m => exact spares_onTransProvisionalResponse ..
  | onTransSuccessResponse m =>
    show Spares w (w.onTransSuccessResponse S req m)
    unfold onTransSuccessResponse
    extract_lets method _ w₁
    have h₁ : Spares w w₁ := spares_of_dlg rfl rfl rfl rfl rfl (Int.le_refl _) (·.ackReq)
    split
    · split
      · exact h₁.trans (spares_success ..)
      · exact h₁.trans (spares_fire ..)
    · exact spares_success ..
  | onTransFailureResponse m =>
    show Spares w (w.onTransFailureResponse S req m)
    unfold onTransFailureResponse
    extract_lets method
    split
    · split
      · exact spares_authenticate w hreq m _
      · split
        · exact spares_failure ..
        · exact spares_fire ..
    · exact spares_failure ..
  | onTransTimeout => exact spares_timeout ..

end World
end SoftPhone
