import SoftPhone.Dialog.Spares
import SoftPhone.Provider.Population

/-!
# What names a dialog

A dialog is known to its peer by its Call-ID and its tags, and it reaches the peer over its
route set: its `Identity`.  The provider knows it by the identifier made of the first three.

`Steady w w'` says that between `w` and `w'` nobody touched the state of the dialog, its
identity or its registration.  Everything that transactions do is steady, because they use
identifiers of their own (`Plain`).
-/

namespace SoftPhone

open Machine

/-- Call-ID, tags and route set. -/
structure Identity where
  callId : Option String
  localTag : Option String
  remoteTag : Option String
  route : Option (List NameAddress)
  deriving DecidableEq, Repr

/-- The identity in the dialog information. -/
def DialogInfo.identity (d : DialogInfo) : Identity := ⟨d.callId, d.localTag, d.remoteTag, d.route⟩

/-- An identifier that does not name a dialog. -/
def SipId.IsPlain : SipId → Prop
  | .transaction _ _ _ _ _ | .method _ => True
  | .dialog _ _ _ => False

/-- A transaction with a plain identifier uses plain identifiers. -/
theorem Stands.plain {s s' : Standing} {cs : List ProviderCall} (h : Stands s cs s')
    (hs : s.id.IsPlain) :
    s'.id.IsPlain ∧ ∀ v ∈ registrations cs, v.key.IsPlain := by
  have hs' : s'.id.IsPlain := by
    rcases h.id with hsame | ⟨m, hm⟩
    · rw [hsame]
      exact hs
    · rw [hm]
      trivial
  refine ⟨hs', fun v hv => ?_⟩
  rcases h.keys v hv with hkey | hkey
  · rw [hkey]
    exact hs
  · rw [hkey]
    exact hs'

namespace World

variable {S : SipStack}

/-- No transaction has the identifier of a dialog. -/
structure Plain (w : World) : Prop where
  inviteClients : ∀ r t, w.inviteClients.get r = some t → t.transactionId.IsPlain
  clients : ∀ r t, w.clients.get r = some t → t.transactionId.IsPlain
  inviteServers : ∀ r t, w.inviteServers.get r = some t → t.transactionId.IsPlain
  servers : ∀ r t, w.servers.get r = some t → t.transactionId.IsPlain
  cancelServers : ∀ r t, w.cancelServers.get r = some t → t.transactionId.IsPlain
  ackServers : ∀ r t, w.ackServers.get r = some t → t.transactionId.IsPlain

/-- Between `w` and `w'` the dialog stayed as it is, in the table of the provider too. -/
structure Steady (w w' : World) : Prop where
  status : w'.status = w.status
  identity : w'.dlg.info.identity = w.dlg.info.identity
  dialogId : w'.dlg.dialogId = w.dlg.dialogId
  plain : w.Plain → w'.Plain
  listeners : w.Plain → ∀ id, ¬ id.IsPlain →
    w'.provider.sipListeners id = w.provider.sipListeners id
  dialog : ∀ id, w'.provider.sipListeners id = some .dialog →
    w.provider.sipListeners id = some .dialog

namespace Steady

theorem refl (w : World) : Steady w w := ⟨rfl, rfl, rfl, id, fun _ _ _ => rfl, fun _ h => h⟩

theorem trans {w w' w'' : World} (h : Steady w w') (h' : Steady w' w'') : Steady w w'' where
  status := h'.status.trans h.status
  identity := h'.identity.trans h.identity
  dialogId := h'.dialogId.trans h.dialogId
  plain := fun hw => h'.plain (h.plain hw)
  listeners := fun hw id hid =>
    (h'.listeners (h.plain hw) id hid).trans (h.listeners hw id hid)
  dialog := fun id hid => h.dialog id (h'.dialog id hid)

end Steady

/-! ## Small steps -/

theorem Plain.congr {w w' : World} (h : w.Plain) (hinvite : w'.inviteClients = w.inviteClients)
    (hclients : w'.clients = w.clients) (hinviteServers : w'.inviteServers = w.inviteServers)
    (hservers : w'.servers = w.servers) (hcancel : w'.cancelServers = w.cancelServers)
    (hack : w'.ackServers = w.ackServers) : w'.Plain :=
  ⟨hinvite ▸ h.inviteClients, hclients ▸ h.clients, hinviteServers ▸ h.inviteServers,
    hservers ▸ h.servers, hcancel ▸ h.cancelServers, hack ▸ h.ackServers⟩

/-- Fields that are not part of the identity. -/
theorem steady_of_dlg {w : World} {d : InviteDialog} (hstatus : d.status = w.dlg.status)
    (hidentity : d.info.identity = w.dlg.info.identity) (hid : d.dialogId = w.dlg.dialogId) :
    Steady w { w with dlg := d } :=
  ⟨hstatus, hidentity, hid, (·.congr rfl rfl rfl rfl rfl rfl), fun _ _ _ => rfl, fun _ h => h⟩

theorem steady_observe (w : World) (o : Obs) : Steady w (w.observe o) :=
  ⟨rfl, rfl, rfl, (·.congr rfl rfl rfl rfl rfl rfl), fun _ _ _ => rfl, fun _ h => h⟩

theorem steady_fire (w : World) (c : DialogCallback) : Steady w (w.fire c) :=
  ⟨rfl, rfl, rfl, (·.congr rfl rfl rfl rfl rfl rfl), fun _ _ _ => rfl, fun _ h => h⟩

theorem steady_stack (w : World) (stack : List Frame) : Steady w { w with stack := stack } :=
  ⟨rfl, rfl, rfl, (·.congr rfl rfl rfl rfl rfl rfl), fun _ _ _ => rfl, fun _ h => h⟩

theorem steady_suspend (w : World) (rest : Rest) : Steady w (w.suspend rest) :=
  steady_stack w _

/-- Calls of a transaction that uses plain identifiers. -/
theorem steady_of_calls {w w' : World} {a : Agent} (ha : a ≠ .dialog) {cs : List ProviderCall}
    (hcs : w.Plain → ∀ v ∈ registrations cs, v.key.IsPlain)
    (hprovider : w'.provider = w.provider.calls a cs) (hdlg : w'.dlg = w.dlg)
    (hplain : w.Plain → w'.Plain) : Steady w w' := by
  refine ⟨by rw [status, hdlg], by rw [hdlg], by rw [hdlg], hplain, ?_, ?_⟩
  · intro hw id hid
    rw [hprovider, SipProvider.sipListeners_calls]
    refine writes_of_forall_ne _ _ fun v hv hkey => hid ?_
    rw [← hkey]
    exact hcs hw v hv
  · intro id hentry
    rw [hprovider] at hentry
    exact SipProvider.listener_calls_of_ne ha cs hentry

/-- A method that is run on an object of a heap. -/
theorem plain_invoke {α : Type} {view : α → Standing} {h : Heap α} (r : Option ℕ)
    {f : α → α × List ProviderCall} (hf : ∀ a, Stands (view a) (f a).2 (view (f a).1))
    (hall : ∀ s a, h.get s = some a → (view a).id.IsPlain) :
    (∀ s b, (invoke h r f).1.get s = some b → (view b).id.IsPlain) ∧
      ∀ v ∈ registrations (invoke h r f).2, v.key.IsPlain := by
  refine ⟨forall_invoke (P := fun a => (view a).id.IsPlain) hall r fun a ha => ((hf a).plain ha).1,
    ?_⟩
  cases r with
  | none => intro v hv; cases hv
  | some s =>
    unfold invoke
    dsimp only
    cases hget : h.get s with
    | none => intro v hv; cases hv
    | some a => exact ((hf a).plain (hall s a hget)).2

theorem steady_onInviteClient (w : World) (r : Option ℕ)
    {f : InviteTransactionClient → InviteTransactionClient × List ProviderCall}
    (hf : ∀ t, Stands t.standing (f t).2 (f t).1.standing) : Steady w (w.onInviteClient r f) := by
  have hinvoke (hw : w.Plain) := plain_invoke r hf hw.inviteClients
  exact steady_of_calls (a := .inviteClient _) (by simp) (fun hw => (hinvoke hw).2) rfl rfl
    fun hw => { hw with inviteClients := (hinvoke hw).1 }

theorem steady_onClient (w : World) (r : Option ℕ)
    {f : TransactionClient → TransactionClient × List ProviderCall}
    (hf : ∀ t, Stands t.standing (f t).2 (f t).1.standing) : Steady w (w.onClient r f) := by
  have hinvoke (hw : w.Plain) := plain_invoke r hf hw.clients
  exact steady_of_calls (a := .client _) (by simp) (fun hw => (hinvoke hw).2) rfl rfl
    fun hw => { hw with clients := (hinvoke hw).1 }

theorem steady_onInviteServer (w : World) (r : Option ℕ)
    {f : InviteTransactionServer → InviteTransactionServer × List ProviderCall}
    (hf : ∀ t, Stands t.standing (f t).2 (f t).1.standing) : Steady w (w.onInviteServer r f) := by
  have hinvoke (hw : w.Plain) := plain_invoke r hf hw.inviteServers
  exact steady_of_calls (a := .inviteServer _) (by simp) (fun hw => (hinvoke hw).2) rfl rfl
    fun hw => { hw with inviteServers := (hinvoke hw).1 }

theorem steady_onServer (w : World) (r : Option ℕ)
    {f : TransactionServer → TransactionServer × List ProviderCall}
    (hf : ∀ t, Stands t.standing (f t).2 (f t).1.standing) : Steady w (w.onServer r f) := by
  have hinvoke (hw : w.Plain) := plain_invoke r hf hw.servers
  exact steady_of_calls (a := .server _) (by simp) (fun hw => (hinvoke hw).2) rfl rfl
    fun hw => { hw with servers := (hinvoke hw).1 }

theorem steady_onCancelServer (w : World) (r : Option ℕ)
    {f : TransactionServer → TransactionServer × List ProviderCall}
    (hf : ∀ t, Stands t.standing (f t).2 (f t).1.standing) : Steady w (w.onCancelServer r f) := by
  have hinvoke (hw : w.Plain) := plain_invoke r hf hw.cancelServers
  exact steady_of_calls (a := .cancelServer _) (by simp) (fun hw => (hinvoke hw).2) rfl rfl
    fun hw => { hw with cancelServers := (hinvoke hw).1 }

theorem steady_onAckServer (w : World) (r : Option ℕ)
    {f : AckTransactionServer → AckTransactionServer × List ProviderCall}
    (hf : ∀ t, Stands t.standing (f t).2 (f t).1.standing) : Steady w (w.onAckServer r f) := by
  have hinvoke (hw : w.Plain) := plain_invoke r hf hw.ackServers
  exact steady_of_calls (a := .ackServer _) (by simp) (fun hw => (hinvoke hw).2) rfl rfl
    fun hw => { hw with ackServers := (hinvoke hw).1 }

/-! ## New transactions -/

/-- The identifier of a client transaction. -/
theorem isPlain_transactionClient (m : SipMessage) : (SipId.transactionClient m).IsPlain := trivial

/-- The identifier of a server transaction. -/
theorem isPlain_transactionServer (m : SipMessage) : (SipId.transactionServer m).IsPlain := trivial

theorem steady_startInviteClient (w : World) (req : SipMessage) :
    Steady w (w.startInviteClient S req) := by
  have hnew := ((InviteTransactionClient.new req true).stands_start
    (S.connection w.provider.sends)).plain (isPlain_transactionClient req)
  exact steady_of_calls (a := .inviteClient _) (by simp) (fun _ => hnew.2) rfl rfl fun hw =>
    { hw with
      inviteClients := Heap.forall_new (P := fun _ (t : InviteTransactionClient) =>
        t.transactionId.IsPlain) hw.inviteClients hnew.1 }

theorem steady_startClient (w : World) (req : SipMessage) (listener : Bool) :
    Steady w (w.startClient S req listener) := by
  have hnew := ((TransactionClient.new req listener).stands_start
    (S.connection w.provider.sends)).plain (isPlain_transactionClient req)
  exact steady_of_calls (a := .client _) (by simp) (fun _ => hnew.2) rfl rfl fun hw =>
    { hw with
      clients := Heap.forall_new (P := fun _ (t : TransactionClient) => t.transactionId.IsPlain)
        hw.clients hnew.1 }

theorem steady_startAckClient (w : World) (ack : SipMessage) : Steady w (w.startAckClient ack) :=
  steady_of_calls (a := .ackClient) (by simp) (by simp [ProviderCall.write?]) rfl rfl
    (·.congr rfl rfl rfl rfl rfl rfl)

theorem steady_startInviteServer (w : World) (invite : SipMessage) :
    Steady w (w.startInviteServer S invite) := by
  have hnew := (InviteTransactionServer.stands_new S invite true).plain
    (isPlain_transactionServer invite)
  exact steady_of_calls (a := .inviteServer _) (by simp) (fun _ => hnew.2) rfl rfl fun hw =>
    { hw with
      inviteServers := Heap.forall_new (P := fun _ (t : InviteTransactionServer) =>
        t.transactionId.IsPlain) hw.inviteServers hnew.1 }

theorem steady_startServer (w : World) (req : SipMessage) (listener : Bool) :
    Steady w (w.startServer req listener) := by
  have hnew := (TransactionServer.stands_new req listener).plain (isPlain_transactionServer req)
  exact steady_of_calls (a := .server _) (by simp) (fun _ => hnew.2) rfl rfl fun hw =>
    { hw with
      servers := Heap.forall_new (P := fun _ (t : TransactionServer) => t.transactionId.IsPlain)
        hw.servers hnew.1 }

theorem steady_startCancelServer (w : World) (r : ℕ) (req : SipMessage) :
    Steady w (w.startCancelServer r req) := by
  have hnew := (TransactionServer.newCancel req true).stands_listen.plain trivial
  exact steady_of_calls (a := .cancelServer _) (by simp) (fun _ => hnew.2) rfl rfl fun hw =>
    { hw with
      cancelServers := Heap.forall_put (P := fun _ (t : TransactionServer) =>
        t.transactionId.IsPlain) hw.cancelServers hnew.1 }

theorem steady_startAckServer (w : World) (conn : Option ConnectionId) (invite resp : SipMessage) :
    Steady w (w.startAckServer conn invite resp) := by
  have hnew := (AckTransactionServer.new conn invite resp true).stands_respond.plain
    (isPlain_transactionServer invite)
  exact steady_of_calls (a := .ackServer _) (by simp) (fun _ => hnew.2) rfl rfl fun hw =>
    { hw with
      ackServers := Heap.forall_new (P := fun _ (t : AckTransactionServer) =>
        t.transactionId.IsPlain) hw.ackServers hnew.1 }

theorem steady_answer (w : World) (req resp : SipMessage) : Steady w (w.answer req resp) :=
  (steady_startServer ..).trans (steady_onServer _ _ fun t => t.stands_respondWith resp)

/-! ## What a transaction did -/

theorem steady_putInviteClient {w : World} {r : ℕ} {t : InviteTransactionClient}
    {o : Outcome InviteTransactionClient ClientCallback ClientRest}
    (hget : w.inviteClients.get r = some t)
    (ho : Stands t.standing o.calls o.self.standing) : Steady w (w.putInviteClient r o) := by
  have hplain (hw : w.Plain) := ho.plain (hw.inviteClients r t hget)
  have hput : Steady w { w with
      inviteClients := w.inviteClients.put r o.self
      provider := w.provider.calls (.inviteClient r) o.calls } :=
    steady_of_calls (a := .inviteClient r) (by simp) (fun hw => (hplain hw).2) rfl rfl fun hw =>
      { hw with
        inviteClients := Heap.forall_put (P := fun _ (t : InviteTransactionClient) =>
          t.transactionId.IsPlain) hw.inviteClients (hplain hw).1 }
  exact hput.trans (steady_stack ..)

theorem steady_putClient {w : World} {r : ℕ} {t : TransactionClient}
    {o : Outcome TransactionClient ClientCallback ClientRest} (hget : w.clients.get r = some t)
    (ho : Stands t.standing o.calls o.self.standing) : Steady w (w.putClient r o) := by
  have hplain (hw : w.Plain) := ho.plain (hw.clients r t hget)
  have hput : Steady w { w with
      clients := w.clients.put r o.self
      provider := w.provider.calls (.client r) o.calls } :=
    steady_of_calls (a := .client r) (by simp) (fun hw => (hplain hw).2) rfl rfl fun hw =>
      { hw with
        clients := Heap.forall_put (P := fun _ (t : TransactionClient) =>
          t.transactionId.IsPlain) hw.clients (hplain hw).1 }
  exact hput.trans (steady_stack ..)

theorem steady_putInviteServer {w : World} {r : ℕ} {t : InviteTransactionServer}
    {o : Outcome InviteTransactionServer ServerCallback ServerRest}
    (hget : w.inviteServers.get r = some t)
    (ho : Stands t.standing o.calls o.self.standing) : Steady w (w.putInviteServer r o) := by
  have hplain (hw : w.Plain) := ho.plain (hw.inviteServers r t hget)
  have hput : Steady w { w with
      inviteServers := w.inviteServers.put r o.self
      provider := w.provider.calls (.inviteServer r) o.calls } :=
    steady_of_calls (a := .inviteServer r) (by simp) (fun hw => (hplain hw).2) rfl rfl fun hw =>
      { hw with
        inviteServers := Heap.forall_put (P := fun _ (t : InviteTransactionServer) =>
          t.transactionId.IsPlain) hw.inviteServers (hplain hw).1 }
  exact hput.trans (steady_stack ..)

theorem steady_putServer {w : World} {r : ℕ} {t : TransactionServer}
    {o : Outcome TransactionServer ServerCallback ServerRest} (hget : w.servers.get r = some t)
    (ho : Stands t.standing o.calls o.self.standing) : Steady w (w.putServer r o) := by
  have hplain (hw : w.Plain) := ho.plain (hw.servers r t hget)
  exact steady_of_calls (a := .server r) (by simp) (fun hw => (hplain hw).2) rfl rfl fun hw =>
    { hw with
      servers := Heap.forall_put (P := fun _ (t : TransactionServer) =>
        t.transactionId.IsPlain) hw.servers (hplain hw).1 }

theorem steady_putCancelServer {w : World} {r : ℕ} {t : TransactionServer}
    {o : Outcome TransactionServer ServerCallback ServerRest}
    (hget : w.cancelServers.get r = some t)
    (ho : Stands t.standing o.calls o.self.standing) : Steady w (w.putCancelServer r o) := by
  have hplain (hw : w.Plain) := ho.plain (hw.cancelServers r t hget)
  exact steady_of_calls (a := .cancelServer r) (by simp) (fun hw => (hplain hw).2) rfl rfl fun hw =>
    { hw with
      cancelServers := Heap.forall_put (P := fun _ (t : TransactionServer) =>
        t.transactionId.IsPlain) hw.cancelServers (hplain hw).1 }

theorem steady_putAckServer {w : World} {r : ℕ} {t : AckTransactionServer}
    {o : Outcome AckTransactionServer AckServerCallback ServerRest}
    (hget : w.ackServers.get r = some t)
    (ho : Stands t.standing o.calls o.self.standing) : Steady w (w.putAckServer r o) := by
  have hplain (hw : w.Plain) := ho.plain (hw.ackServers r t hget)
  exact steady_of_calls (a := .ackServer r) (by simp) (fun hw => (hplain hw).2) rfl rfl fun hw =>
    { hw with
      ackServers := Heap.forall_put (P := fun _ (t : AckTransactionServer) =>
        t.transactionId.IsPlain) hw.ackServers (hplain hw).1 }

/-! ## Requests made in the dialog -/

/-- A factory that leaves the identity of the dialog alone. -/
def KeepsIdentity (factory : String → DialogInfo → Option (SipMessage × DialogInfo)) : Prop :=
  ∀ branch info p, factory branch info = some p → p.2.identity = info.identity

theorem keepsIdentity_createDialogRequest (method : Method) (contentType body : Option String) :
    KeepsIdentity fun branch info => createDialogRequest branch info method contentType body := by
  intro branch info p hp
  rw [(createDialogRequest_info hp).2.2]
  split <;> rfl

/-- Header fields that are added to a request. -/
theorem KeepsIdentity.map {factory : String → DialogInfo → Option (SipMessage × DialogInfo)}
    (h : KeepsIdentity factory) {f : DialogInfo → SipMessage × DialogInfo → SipMessage × DialogInfo}
    (hf : ∀ info p, (f info p).2 = p.2) :
    KeepsIdentity fun branch info => (factory branch info).map (f info) := by
  intro branch info p hp
  obtain ⟨q, hq, rfl⟩ := Option.map_eq_some_iff.mp hp
  rw [hf info q]
  exact h branch info q hq

theorem keepsIdentity_createPrackRequest (resp : SipMessage) (contentType body : Option String) :
    KeepsIdentity fun branch info => createPrackRequest branch info resp contentType body := by
  unfold createPrackRequest
  split
  · intro branch info p hp
    cases hp
  · exact (keepsIdentity_createDialogRequest .prack contentType body).map fun _ _ => rfl

theorem keepsIdentity_create2xxAckRequest (resp : SipMessage) (contentType body : Option String) :
    KeepsIdentity fun branch info => create2xxAckRequest branch info resp contentType body :=
  (keepsIdentity_createDialogRequest .ack contentType body).map
    (f := fun _ p => ({ p.1 with cseq := resp.cseq, cseqMethod := .ack }, p.2)) fun _ _ => rfl

theorem keepsIdentity_createByeRequest : KeepsIdentity createByeRequest :=
  (keepsIdentity_createDialogRequest .bye none none).map
    (f := fun _ p => ({ p.1 with expires := none, contact := none }, p.2)) fun _ _ => rfl

theorem keepsIdentity_createReferRequest (referTo : NameAddress)
    (referredBy : Option NameAddress) :
    KeepsIdentity fun branch info => createReferRequest branch info referTo referredBy :=
  (keepsIdentity_createDialogRequest .refer none none).map
    (f := fun info p =>
      ({ p.1 with referTo := some referTo, referredBy := referredBy <|> info.localName }, p.2))
    fun _ _ => rfl

theorem keepsIdentity_createNotifyRequest (event sipfragment : String) :
    KeepsIdentity fun branch info => createNotifyRequest branch info event sipfragment :=
  (keepsIdentity_createDialogRequest .notify (some "message/sipfrag;version=2.0")
    (some sipfragment)).map
    (f := fun _ p => ({ p.1 with expires := none, event := some event }, p.2)) fun _ _ => rfl

theorem steady_create {w w' : World} {req : SipMessage}
    {factory : String → DialogInfo → Option (SipMessage × DialogInfo)}
    (hfactory : KeepsIdentity factory) (h : w.create S factory = some (req, w')) : Steady w w' := by
  obtain ⟨p, hp, heq⟩ := Option.map_eq_some_iff.mp h
  cases heq
  exact ⟨rfl, hfactory _ _ _ hp, rfl, (·.congr rfl rfl rfl rfl rfl rfl), fun _ _ _ => rfl,
    fun _ h => h⟩

end World
end SoftPhone
