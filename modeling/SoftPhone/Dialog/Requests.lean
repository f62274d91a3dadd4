import SoftPhone.Dialog.Spares

/-!
# The requests that a dialog sends

A request that the dialog sends, ACKs apart, is the request of a client transaction; so
the two heaps of client transactions hold all of them, and what matters of a step is
whether a transaction was started in it.

`Still w w'` says that none was: the client transactions keep their requests, the counters
of the dialog and of the provider do not go back, and a dialog that waits for an answer
has been waiting for it before.  `Calm w w'` says that the authentication attempts were
left alone and that no reliable response was delivered.  `Silent` is both, and everything
that answers the peer is silent.

`Starts` says that one transaction was started, for a request of one of four origins.
-/

namespace SoftPhone

open Machine

/-- Where a request comes from. -/
inductive Origin where
  /-- It is made in the dialog. -/
  | made
  /-- It is made from nothing, by `invite(target,...)`. -/
  | opened
  /-- It is the message `m`, or `m` with header fields added. -/
  | given (m : SipMessage)
  /-- It is the challenged request `req` with credentials. -/
  | retried (req : SipMessage)
  deriving DecidableEq, Repr

/-- The sequence number of a request, where `c` is the one that the dialog holds. -/
def Origin.cseq (c : ℤ) : Origin → ℤ
  | .made => c + 1
  | .opened => pickInitialCSeq
  | .given m => m.cseq
  | .retried req => req.cseq + 1

/-- The request counts: it is neither an ACK nor a CANCEL. -/
def SipMessage.Counts (m : SipMessage) : Prop :=
  m.requestMethod ≠ some .ack ∧ m.requestMethod ≠ some .cancel

instance : DecidablePred SipMessage.Counts := fun _ => inferInstanceAs (Decidable (_ ∧ _))

/-- A request of this origin counts. -/
def Origin.Counts : Origin → Prop
  | .made | .opened => True
  | .given m | .retried m => m.Counts

/-- The branch of a request of this origin: that of the message given, or what `pickBranch`
returned after the first `n` and before the `k`-th request. -/
def Origin.Branches (S : SipStack) (n k : ℕ) (o : Origin) (req : SipMessage) : Prop :=
  match o with
  | .given m => req.branch = m.branch
  | .made | .opened | .retried _ => ∃ i, n ≤ i ∧ i < k ∧ req.branch = some (S.pickBranch i)

theorem Origin.Branches.mono {S : SipStack} {n n' k k' : ℕ} {o : Origin} {req : SipMessage}
    (h : o.Branches S n k req) (hn : n' ≤ n) (hk : k ≤ k') : o.Branches S n' k' req := by
  cases o with
  | given m => exact h
  | made | opened | retried =>
    obtain ⟨i, hi, hlt, hb⟩ := h
    exact ⟨i, by omega, by omega, hb⟩

/-- A reliable response is passed to the listener. -/
def Obs.IsDelivery : Obs → Prop
  | .fired (.onDlgInviteReliableProvisionalResponse _) => True
  | _ => False

namespace World

/-- The dialog knows both names, so that it can make a request. -/
def Named (w : World) : Prop := w.dlg.info.remoteName.isSome ∧ w.dlg.info.localName.isSome

instance (w : World) : Decidable w.Named := inferInstanceAs (Decidable (_ ∧ _))

/-- Between `w` and `w'` no client transaction was started. -/
structure Still (w w' : World) : Prop where
  inviteClients : w.inviteClients.Extends (·.request) w'.inviteClients []
  clients : w.clients.Extends (·.request) w'.clients []
  localCSeq : w.dlg.info.localCSeq ≤ w'.dlg.info.localCSeq
  branches : w.provider.branches ≤ w'.provider.branches
  inviting : w'.status.IsInviting → w.status.IsInviting ∧ w'.dlg.inviteReq = w.dlg.inviteReq ∧
    w'.dlg.inviteTc = w.dlg.inviteTc

/-- Between `w` and `w'` no attempt was counted and no reliable response was delivered. -/
structure Calm (w w' : World) : Prop where
  attempts : w'.dlg.attempts = w.dlg.attempts
  log : ∃ l, w'.log = l ++ w.log ∧ ∀ o ∈ l, ¬ o.IsDelivery

/-- Between `w` and `w'` the client side did nothing. -/
structure Silent (w w' : World) : Prop extends Still w w', Calm w w'

/-- Between `w` and `w'` one client transaction was started, for the request `req`. -/
structure Launches (req : SipMessage) (w w' : World) : Prop where
  heaps :
    (w.inviteClients.Extends (·.request) w'.inviteClients [req] ∧
      w.clients.Extends (·.request) w'.clients []) ∨
    (w.inviteClients.Extends (·.request) w'.inviteClients [] ∧
      w.clients.Extends (·.request) w'.clients [req])
  localCSeq : w.dlg.info.localCSeq ≤ w'.dlg.info.localCSeq
  branches : w.provider.branches ≤ w'.provider.branches
  inviting : w'.status.IsInviting →
    (w.status.IsInviting ∧ w'.dlg.inviteReq = w.dlg.inviteReq ∧
      w'.dlg.inviteTc = w.dlg.inviteTc) ∨
    (w'.dlg.inviteReq = some req ∧ ∃ r t, w'.dlg.inviteTc = some r ∧
      w'.inviteClients.get r = some t ∧ t.request = req)

/-- The request `p.2` that is started between `w` and `w'` is of the origin `p.1`; the
dialog held the sequence number `c`. -/
structure Starts (S : SipStack) (c : ℤ) (p : Origin × SipMessage) (w w' : World) : Prop
    extends Launches p.2 w w' where
  cseq : p.2.cseq = p.1.cseq c
  counted : p.1 = .made → p.2.cseq ≤ w'.dlg.info.localCSeq
  counts : p.2.Counts ↔ p.1.Counts
  branch : p.1.Branches S w.provider.branches w'.provider.branches p.2

variable {S : SipStack}

/-! ## Composition -/

theorem Still.refl (w : World) : Still w w :=
  ⟨.refl _ _, .refl _ _, Int.le_refl _, Nat.le_refl _, fun h => ⟨h, rfl, rfl⟩⟩

theorem Still.trans {w w' w'' : World} (h : Still w w') (h' : Still w' w'') : Still w w'' where
  inviteClients := h.inviteClients.trans h'.inviteClients
  clients := h.clients.trans h'.clients
  localCSeq := Int.le_trans h.localCSeq h'.localCSeq
  branches := Nat.le_trans h.branches h'.branches
  inviting := fun hw => by
    obtain ⟨hw', hreq', htc'⟩ := h'.inviting hw
    obtain ⟨hw, hreq, htc⟩ := h.inviting hw'
    exact ⟨hw, hreq'.trans hreq, htc'.trans htc⟩

theorem Calm.refl (w : World) : Calm w w := ⟨rfl, [], rfl, by simp⟩

theorem Calm.trans {w w' w'' : World} (h : Calm w w') (h' : Calm w' w'') : Calm w w'' :=
  ⟨h'.attempts.trans h.attempts, extension_trans h.log h'.log⟩

theorem Silent.refl (w : World) : Silent w w := ⟨.refl w, .refl w⟩

theorem Silent.trans {w w' w'' : World} (h : Silent w w') (h' : Silent w' w'') : Silent w w'' :=
  ⟨h.toStill.trans h'.toStill, h.toCalm.trans h'.toCalm⟩

/-- What happens before the start of a transaction. -/
theorem Still.launches {w w' w'' : World} {req : SipMessage} (h : Still w w')
    (h' : Launches req w' w'') : Launches req w w'' where
  heaps := by
    rcases h'.heaps with ⟨hinvite, hclients⟩ | ⟨hinvite, hclients⟩
    · exact .inl ⟨h.inviteClients.trans hinvite, h.clients.trans hclients⟩
    · exact .inr ⟨h.inviteClients.trans hinvite, h.clients.trans hclients⟩
  localCSeq := Int.le_trans h.localCSeq h'.localCSeq
  branches := Nat.le_trans h.branches h'.branches
  inviting := fun hw => by
    rcases h'.inviting hw with ⟨hw', hreq', htc'⟩ | hnew
    · obtain ⟨hw, hreq, htc⟩ := h.inviting hw'
      exact .inl ⟨hw, hreq'.trans hreq, htc'.trans htc⟩
    · exact .inr hnew

/-- What happens after the start of a transaction. -/
theorem Launches.still {w w' w'' : World} {req : SipMessage} (h : Launches req w w')
    (h' : Still w' w'') : Launches req w w'' where
  heaps := by
    rcases h.heaps with ⟨hinvite, hclients⟩ | ⟨hinvite, hclients⟩
    · exact .inl ⟨hinvite.trans h'.inviteClients, hclients.trans h'.clients⟩
    · exact .inr ⟨hinvite.trans h'.inviteClients, hclients.trans h'.clients⟩
  localCSeq := Int.le_trans h.localCSeq h'.localCSeq
  branches := Nat.le_trans h.branches h'.branches
  inviting := fun hw => by
    obtain ⟨hw', hreq', htc'⟩ := h'.inviting hw
    rcases h.inviting hw' with ⟨hw, hreq, htc⟩ | ⟨hreq, r, t, htc, hget, ht⟩
    · exact .inl ⟨hw, hreq'.trans hreq, htc'.trans htc⟩
    · obtain ⟨t', hget', ht'⟩ := h'.inviteClients.get hget
      exact .inr ⟨hreq'.trans hreq, r, t', htc'.trans htc, hget', ht'.trans ht⟩

theorem Still.starts {w w' w'' : World} {c : ℤ} {p : Origin × SipMessage} (h : Still w w')
    (h' : Starts S c p w' w'') : Starts S c p w w'' :=
  ⟨h.launches h'.toLaunches, h'.cseq, h'.counted, h'.counts,
    h'.branch.mono h.branches (Nat.le_refl _)⟩

theorem Starts.still {w w' w'' : World} {c : ℤ} {p : Origin × SipMessage}
    (h : Starts S c p w w') (h' : Still w' w'') : Starts S c p w w'' :=
  ⟨h.toLaunches.still h', h.cseq, fun hmade => Int.le_trans (h.counted hmade) h'.localCSeq,
    h.counts, h.branch.mono (Nat.le_refl _) h'.branches⟩

/-! ## Small steps that are silent -/

theorem silent_of_dlg {w : World} {d : InviteDialog}
    (hcseq : w.dlg.info.localCSeq ≤ d.info.localCSeq) (hattempts : d.attempts = w.dlg.attempts)
    (hinviting : d.status.IsInviting → w.status.IsInviting ∧ d.inviteReq = w.dlg.inviteReq ∧
      d.inviteTc = w.dlg.inviteTc) : Silent w { w with dlg := d } :=
  ⟨⟨.refl _ _, .refl _ _, hcseq, Nat.le_refl _, hinviting⟩, hattempts, [], rfl, by simp⟩

/-- A change of fields that the client side does not use. -/
theorem silent_of_fields {w : World} {d : InviteDialog} (hstatus : d.status = w.dlg.status)
    (hinfo : d.info = w.dlg.info) (hattempts : d.attempts = w.dlg.attempts)
    (hreq : d.inviteReq = w.dlg.inviteReq) (htc : d.inviteTc = w.dlg.inviteTc) :
    Silent w { w with dlg := d } :=
  silent_of_dlg (Int.le_of_eq (by rw [hinfo])) hattempts fun h =>
    ⟨by rw [hstatus] at h; exact h, hreq, htc⟩

theorem not_isDelivery_of_sents {a : Agent} {cs : List ProviderCall} :
    ∀ o ∈ SipProvider.sents a cs, ¬ o.IsDelivery := by
  intro o ho
  obtain ⟨m, -, rfl⟩ := SipProvider.mem_sents.mp ho
  exact id

theorem branches_calls (p : SipProvider) (a : Agent) (cs : List ProviderCall) :
    (p.calls a cs).branches = p.branches := by
  unfold SipProvider.calls
  induction cs generalizing p with
  | nil => rfl
  | cons c cs ih =>
    rw [List.foldl_cons, ih]
    cases c <;> rfl

/-- Calls of the provider, and changes of transactions that keep the requests of the
clients. -/
theorem silent_of_calls {w w' : World} {a : Agent} {cs : List ProviderCall}
    (hprovider : w'.provider = w.provider.calls a cs) (hdlg : w'.dlg = w.dlg)
    (hinvite : w.inviteClients.Extends (·.request) w'.inviteClients [])
    (hclients : w.clients.Extends (·.request) w'.clients []) : Silent w w' := by
  refine ⟨⟨hinvite, hclients, Int.le_of_eq (by rw [hdlg]), Nat.le_of_eq ?_, fun h => ?_⟩,
    by rw [hdlg], SipProvider.sents a cs, ?_, not_isDelivery_of_sents⟩
  · rw [hprovider, branches_calls]
  · rw [status, hdlg] at h
    exact ⟨h, by rw [hdlg], by rw [hdlg]⟩
  · rw [log, hprovider, SipProvider.log_calls]

theorem silent_onInviteServer (w : World) (r : Option ℕ)
    (f : InviteTransactionServer → InviteTransactionServer × List ProviderCall) :
    Silent w (w.onInviteServer r f) :=
  silent_of_calls (a := .inviteServer _) rfl rfl (.refl _ _) (.refl _ _)

theorem silent_onServer (w : World) (r : Option ℕ)
    (f : TransactionServer → TransactionServer × List ProviderCall) : Silent w (w.onServer r f) :=
  silent_of_calls (a := .server _) rfl rfl (.refl _ _) (.refl _ _)

theorem silent_onCancelServer (w : World) (r : Option ℕ)
    (f : TransactionServer → TransactionServer × List ProviderCall) :
    Silent w (w.onCancelServer r f) :=
  silent_of_calls (a := .cancelServer _) rfl rfl (.refl _ _) (.refl _ _)

theorem silent_onAckServer (w : World) (r : Option ℕ)
    (f : AckTransactionServer → AckTransactionServer × List ProviderCall) :
    Silent w (w.onAckServer r f) :=
  silent_of_calls (a := .ackServer _) rfl rfl (.refl _ _) (.refl _ _)

theorem silent_startServer (w : World) (req : SipMessage) (listener : Bool) :
    Silent w (w.startServer req listener) :=
  silent_of_calls (a := .server _) rfl rfl (.refl _ _) (.refl _ _)

theorem silent_startInviteServer (w : World) (invite : SipMessage) :
    Silent w (w.startInviteServer S invite) :=
  silent_of_calls (a := .inviteServer _) rfl rfl (.refl _ _) (.refl _ _)

theorem silent_startCancelServer (w : World) (r : ℕ) (req : SipMessage) :
    Silent w (w.startCancelServer r req) :=
  silent_of_calls (a := .cancelServer _) rfl rfl (.refl _ _) (.refl _ _)

theorem silent_startAckServer (w : World) (conn : Option ConnectionId) (invite resp : SipMessage) :
    Silent w (w.startAckServer conn invite resp) :=
  silent_of_calls (a := .ackServer _) rfl rfl (.refl _ _) (.refl _ _)

theorem silent_startAckClient (w : World) (ack : SipMessage) : Silent w (w.startAckClient ack) :=
  silent_of_calls (a := .ackClient) rfl rfl (.refl _ _) (.refl _ _)

/-- A method of a client that keeps its request. -/
theorem silent_onInviteClient (w : World) (r : Option ℕ)
    {f : InviteTransactionClient → InviteTransactionClient × List ProviderCall}
    (hf : ∀ t, (f t).1.request = t.request) : Silent w (w.onInviteClient r f) := by
  refine silent_of_calls (a := .inviteClient (r.getD 0)) rfl rfl ?_ (.refl _ _)
  cases r with
  | none => exact .refl _ _
  | some r => exact Heap.extends_modify _ r hf

theorem silent_onClient (w : World) (r : Option ℕ)
    {f : TransactionClient → TransactionClient × List ProviderCall}
    (hf : ∀ t, (f t).1.request = t.request) : Silent w (w.onClient r f) := by
  refine silent_of_calls (a := .client (r.getD 0)) rfl rfl (.refl _ _) ?_
  cases r with
  | none => exact .refl _ _
  | some r => exact Heap.extends_modify _ r hf

theorem silent_observe (w : World) {o : Obs} (ho : ¬ o.IsDelivery) : Silent w (w.observe o) :=
  ⟨⟨.refl _ _, .refl _ _, Int.le_refl _, Nat.le_refl _, fun h => ⟨h, rfl, rfl⟩⟩, rfl, [o],
    rfl, by simpa using ho⟩

theorem silent_fire (w : World) {c : DialogCallback} (hc : ¬ (Obs.fired c).IsDelivery) :
    Silent w (w.fire c) :=
  ⟨⟨.refl _ _, .refl _ _, Int.le_refl _, Nat.le_refl _, fun h => ⟨h, rfl, rfl⟩⟩, rfl,
    [.fired c], rfl, by simpa using hc⟩

theorem silent_stack (w : World) (stack : List Frame) : Silent w { w with stack := stack } :=
  ⟨⟨.refl _ _, .refl _ _, Int.le_refl _, Nat.le_refl _, fun h => ⟨h, rfl, rfl⟩⟩, rfl, [],
    rfl, by simp⟩

theorem silent_suspend (w : World) (rest : Rest) : Silent w (w.suspend rest) :=
  silent_stack w _

/-- A state in which the dialog does not wait for an answer. -/
theorem silent_changeStatus (w : World) {s : Status} (hs : ¬ s.IsInviting) :
    Silent w (w.changeStatus s) := by
  refine ⟨⟨.refl _ _, .refl _ _, Int.le_refl _, Nat.le_of_eq ?_, fun h => absurd h hs⟩, rfl,
    SipProvider.sents .dialog (w.statusCalls s), SipProvider.log_calls .., not_isDelivery_of_sents⟩
  exact (branches_calls ..).symm

/-- `update` does not take the local sequence number back. -/
theorem localCSeq_update (d : DialogInfo) (isClient : Bool) (m : SipMessage) :
    d.localCSeq ≤ (d.update isClient m).localCSeq := by
  have hcontact (d : DialogInfo) : (d.updateContact isClient m).localCSeq = d.localCSeq := by
    unfold DialogInfo.updateContact
    split
    · rfl
    · split <;> rfl
  have hclient (d : DialogInfo) : (d.updateRouteClient m).localCSeq = d.localCSeq := by
    unfold DialogInfo.updateRouteClient
    dsimp only
    split <;> split <;> rfl
  have hserver (d : DialogInfo) : (d.updateRouteServer m).localCSeq = d.localCSeq := by
    unfold DialogInfo.updateRouteServer
    dsimp only
    split <;> split <;> rfl
  have hsecure (d : DialogInfo) : (d.updateSecure m).localCSeq = d.localCSeq := by
    unfold DialogInfo.updateSecure
    split <;> rfl
  cases isClient with
  | true =>
    simp only [DialogInfo.update, hsecure, hclient, hcontact, if_true,
      DialogInfo.updateNamesClient]
    split <;> omega
  | false =>
    simp only [DialogInfo.update, hsecure, hserver, hcontact, Bool.false_eq_true, if_false,
      DialogInfo.updateNamesServer]
    split
    · next hnone =>
      rw [hnone]
      decide
    · exact Int.le_refl _

theorem silent_updateDialogInfo (w : World) (isClient : Bool) (m : SipMessage) :
    Silent w (w.updateDialogInfo isClient m) := by
  refine ⟨⟨.refl _ _, .refl _ _, ?_, Nat.le_of_eq (branches_calls ..).symm,
    fun h => ⟨h, rfl, rfl⟩⟩, rfl, SipProvider.sents .dialog _, SipProvider.log_calls ..,
    not_isDelivery_of_sents⟩
  show _ ≤ (w.dlg.updateInfo isClient m).info.localCSeq
  unfold InviteDialog.updateInfo
  dsimp only
  split
  · exact Int.le_refl _
  · exact localCSeq_update ..

theorem silent_setLocalContact (w : World) (contact : NameAddress) :
    Silent w (w.setLocalContact contact) :=
  silent_of_dlg (Int.le_refl _) rfl fun h => ⟨h, rfl, rfl⟩

theorem silent_setInviteReq {w : World} (hw : ¬ w.status.IsInviting) (invite : SipMessage) :
    Silent w (w.setInviteReq invite) :=
  silent_of_dlg (Int.le_refl _) rfl fun h => absurd h hw

theorem silent_setInviteTs (w : World) (r : ℕ) : Silent w (w.setInviteTs r) :=
  silent_of_fields rfl rfl rfl rfl rfl

theorem silent_setCancelTs (w : World) (r : ℕ) : Silent w (w.setCancelTs r) :=
  silent_of_fields rfl rfl rfl rfl rfl

theorem silent_setByeTs (w : World) (r : ℕ) : Silent w (w.setByeTs r) :=
  silent_of_fields rfl rfl rfl rfl rfl

theorem silent_setUpdateTs (w : World) (r : ℕ) : Silent w (w.setUpdateTs r) :=
  silent_of_fields rfl rfl rfl rfl rfl

theorem silent_setResponder (w : World) (rr : ReliableProvisionalResponder) :
    Silent w (w.setResponder rr) :=
  silent_of_fields rfl rfl rfl rfl rfl

/-! ## Responses that the dialog sends -/

theorem silent_answer (w : World) (req resp : SipMessage) : Silent w (w.answer req resp) :=
  (silent_startServer w req false).trans (silent_onServer ..)

theorem silent_sendNextResponse (w : World) : Silent w w.sendNextResponse := by
  unfold sendNextResponse
  split
  · exact .refl w
  · split
    · exact .refl w
    · exact (silent_setResponder ..).trans (silent_onInviteServer ..)

theorem silent_respondReliably (w : World) (resp : SipMessage) :
    Silent w (w.respondReliably resp) := by
  unfold respondReliably
  split
  · exact .refl w
  · dsimp only
    split
    · exact (silent_setResponder ..).trans (silent_sendNextResponse _)
    · exact silent_setResponder ..

theorem silent_afterPrack (w : World) : Silent w w.afterPrack := by
  unfold afterPrack
  split
  · exact .refl w
  · split
    · exact silent_sendNextResponse w
    · exact .refl w

theorem silent_processPrack (w : World) (prack : SipMessage) : Silent w (w.processPrack S prack) := by
  unfold processPrack
  split
  · exact .refl w
  · split
    · exact .refl w
    · split
      · extract_lets w₁ w₂ w₃
        have h₃ : Silent w w₃ := ((silent_observe w (o := .processed prack) id).trans
          (silent_setResponder ..)).trans (silent_answer ..)
        split
        · exact h₃.trans ((silent_suspend ..).trans (silent_fire _ id))
        · exact h₃.trans (silent_afterPrack _)
      · exact .refl w

theorem silent_processTimeout (w : World) (n : TimerName) : Silent w (w.processTimeout n) := by
  unfold processTimeout
  split
  · exact .refl w
  · split
    · split
      · dsimp only
        split
        · exact silent_setResponder ..
        · exact (silent_setResponder ..).trans (silent_onInviteServer ..)
      · exact .refl w
    · split
      · split
        · exact silent_setResponder ..
        · dsimp only
          split
          · exact (silent_setResponder ..).trans ((silent_suspend ..).trans (silent_fire _ id))
          · exact (silent_setResponder ..).trans (silent_sendNextResponse _)
      · exact .refl w
    · exact .refl w

theorem silent_respondProvisional (w : World) (resp : SipMessage) :
    Silent w (w.respondProvisional S resp) := by
  unfold respondProvisional
  extract_lets w₁
  have h₁ : Silent w w₁ := by
    unfold w₁
    split
    · exact silent_updateDialogInfo ..
    · exact .refl w
  split
  · exact h₁.trans (silent_respondReliably ..)
  · exact h₁.trans (silent_onInviteServer ..)

theorem localCSeq_sessionTimers (info : DialogInfo) (invite resp : SipMessage) :
    (sessionTimers S info invite resp).1.localCSeq = info.localCSeq := by
  unfold sessionTimers
  split
  · rfl
  · split <;> rfl

theorem silent_startDialogAckServer (w : World) (conn : Option ConnectionId) (invite : SipMessage)
    {p : DialogInfo × SipMessage} (hcseq : p.1.localCSeq = w.dlg.info.localCSeq) :
    Silent w (w.startDialogAckServer conn invite p) := by
  have h₁ : Silent w { w with dlg.info := p.1, dlg.ackTs := some w.ackServers.next } :=
    silent_of_dlg (Int.le_of_eq hcseq.symm) rfl fun h => ⟨h, rfl, rfl⟩
  exact h₁.trans (silent_startAckServer ..)

theorem silent_respondSuccess (w : World) (resp : SipMessage) :
    Silent w (w.respondSuccess S resp) := by
  unfold respondSuccess
  extract_lets w₁ conn w₂
  have h₁ : Silent w w₁ := by
    refine silent_changeStatus w ?_
    split <;> decide
  have h₂ : Silent w w₂ :=
    (h₁.trans (silent_onInviteServer ..)).trans (silent_of_fields rfl rfl rfl rfl rfl)
  split
  · exact h₂
  · next invite _ =>
    exact h₂.trans (silent_startDialogAckServer _ conn invite (localCSeq_sessionTimers ..))

theorem silent_respondFailure (w : World) (resp : SipMessage) : Silent w (w.respondFailure resp) := by
  unfold respondFailure
  refine (silent_changeStatus w ?_).trans (silent_onInviteServer ..)
  split <;> decide

theorem silent_respondInvite (w : World) (resp : SipMessage) : Silent w (w.respondInvite S resp) := by
  unfold respondInvite
  split
  · extract_lets resp₁ w₁
    have h₁ : Silent w w₁ := by
      unfold w₁
      split
      · exact silent_updateDialogInfo ..
      · exact .refl w
    split
    · exact silent_respondProvisional ..
    · split
      · exact h₁.trans (silent_respondSuccess ..)
      · exact h₁.trans (silent_respondFailure ..)
  · exact .refl w

/-- **Whatever is passed to `respond`, the client side does nothing.** -/
theorem silent_respond (w : World) (resp : SipMessage) : Silent w (w.respond S resp) := by
  unfold respond
  extract_lets method
  split
  · exact silent_onServer ..
  · unfold inviteDialogRespond
    split
    · exact silent_respondInvite ..
    · split
      · exact (silent_updateDialogInfo ..).trans (silent_onServer ..)
      · exact .refl w
    · split
      · exact silent_onServer ..
      · exact .refl w
    · exact .refl w

/-! ## Requests that the dialog receives -/

theorem silent_onReceivedInvite (w : World) (m : SipMessage) :
    Silent w (w.onReceivedInvite S m) := by
  unfold onReceivedInvite
  extract_lets r w₁ w₂ w₃ w₄ w₅
  have hstatus : ¬ w₂.status.IsInviting := by
    show ¬ Status.IsInviting (if w₁.status = .init then .invited else .reInvited)
    split <;> decide
  have h₂ : Silent w w₂ := (silent_observe w (o := .processed m) id).trans (silent_changeStatus _ hstatus)
  have h₃ : Silent w w₃ := (h₂.trans (silent_setInviteReq hstatus m)).trans (silent_updateDialogInfo ..)
  have h₄ : Silent w w₄ := (h₃.trans (silent_setInviteTs ..)).trans (silent_startInviteServer ..)
  split
  · exact h₄.trans (silent_respond ..)
  · have h₅ : Silent w w₅ := (h₄.trans (silent_setCancelTs ..)).trans (silent_startCancelServer ..)
    split <;> exact h₅.trans (silent_fire _ id)

theorem silent_onReceivedAck (w : World) (m : SipMessage) : Silent w (w.onReceivedAck m) := by
  unfold onReceivedAck
  split
  · exact ((((silent_changeStatus w (by decide)).trans (silent_onAckServer ..)).trans
      (silent_onCancelServer ..)).trans (silent_suspend ..)).trans (silent_fire _ id)
  · exact .refl w

theorem silent_onReceivedBye (w : World) (m : SipMessage) : Silent w (w.onReceivedBye S m) := by
  unfold onReceivedBye
  split
  · exact ((((((silent_observe w (o := .processed m) id).trans
      (silent_changeStatus _ (by decide))).trans (silent_setByeTs ..)).trans
      (silent_startServer ..)).trans (silent_respond ..)).trans (silent_suspend ..)).trans
      (silent_fire _ id)
  · exact .refl w

theorem silent_onReceivedInfo (w : World) (m : SipMessage) : Silent w (w.onReceivedInfo S m) := by
  unfold onReceivedInfo
  extract_lets w₁
  have h₁ : Silent w w₁ := (silent_observe w (o := .processed m) id).trans (silent_answer ..)
  split
  · exact h₁.trans (silent_fire _ id)
  · exact h₁

theorem silent_onReceivedUpdate (w : World) (m : SipMessage) : Silent w (w.onReceivedUpdate m) :=
  ((((silent_observe w (o := .processed m) id).trans (silent_updateDialogInfo ..)).trans
    (silent_setUpdateTs ..)).trans (silent_startServer ..)).trans (silent_fire _ id)

theorem silent_onReceivedRequest (w : World) (m : SipMessage) :
    Silent w (w.onReceivedRequest S m) := by
  unfold onReceivedRequest
  split
  · exact .refl w
  · split
    · exact silent_answer ..
    · split
      · exact silent_onReceivedInvite ..
      · exact silent_onReceivedAck ..
      · exact silent_onReceivedBye ..
      · exact silent_onReceivedInfo ..
      · exact silent_processPrack ..
      · exact silent_onReceivedUpdate ..
      · exact silent_answer ..

theorem silent_onReceivedAltRequest (w : World) (m : SipMessage) :
    Silent w (w.onReceivedAltRequest S m) := by
  unfold onReceivedAltRequest
  extract_lets w₁ _ w₂ w₃
  have h₁ : Silent w w₁ := silent_observe w (o := .processed m) id
  have htable (table : SipId → Option ℕ) : Silent w₁ { w₁ with dlg.transactions := table } :=
    silent_of_fields rfl rfl rfl rfl rfl
  have h₂ : Silent w w₂ := (h₁.trans (htable _)).trans (silent_startServer ..)
  split
  · split
    · exact h₂.trans (silent_fire _ id)
    · exact h₂
  · have h₃ : Silent w w₃ := h₂.trans (silent_respond ..)
    split
    · exact h₃.trans (silent_fire _ id)
    · exact h₃
  · exact h₂.trans (silent_fire _ id)

theorem silent_onReceivedMessage (w : World) (m : SipMessage) :
    Silent w (w.onReceivedMessage S m) := by
  have hbasic : Silent w (w.inviteDialogOnReceivedMessage S m) := by
    unfold inviteDialogOnReceivedMessage
    split
    · exact silent_onReceivedRequest ..
    · unfold onReceivedResponse
      split
      · split
        · exact .refl w
        · exact silent_startAckClient ..
      · exact .refl w
  unfold onReceivedMessage
  split
  · split
    · exact hbasic
    · exact silent_onReceivedAltRequest ..
  · exact hbasic

/-! ## Callbacks of the server transactions -/

theorem silent_onTransRequestInvite (w : World) (m : SipMessage) :
    Silent w (w.onTransRequestInvite S m) := by
  unfold onTransRequestInvite
  split
  · extract_lets w₁ w₂
    have h₁ : Silent w w₁ :=
      (silent_observe w (o := .processed m) id).trans (silent_changeStatus _ (by decide))
    have hstatus : ¬ w₁.status.IsInviting := show ¬ Status.IsInviting .invited by decide
    have h₂ : Silent w w₂ :=
      (h₁.trans (silent_setInviteReq hstatus m)).trans (silent_updateDialogInfo ..)
    split
    · exact h₂.trans (silent_respond ..)
    · exact h₂.trans (silent_fire _ id)
  · exact .refl w

theorem silent_onTransRequest (w : World) (ts : Agent) (m : SipMessage) :
    Silent w (w.onTransRequest S ts m) := by
  unfold onTransRequest
  split
  · exact silent_onTransRequestInvite ..
  · extract_lets resp w₁
    have h₁ : Silent w w₁ := by
      unfold w₁
      split
      · exact silent_onInviteServer ..
      · exact silent_onCancelServer ..
      · exact silent_onServer ..
      · exact .refl w
    refine h₁.trans ?_
    unfold onTransRequestCancel
    split
    · split
      · exact .refl _
      · exact (silent_respond ..).trans (silent_fire _ id)
    · exact .refl _
  · exact .refl w

theorem silent_onServerCallback (w : World) (ts : Agent) (c : ServerCallback) :
    Silent w (w.onServerCallback S ts c) := by
  cases c with
  | onTransRequest m => exact silent_onTransRequest ..
  | onTransFailureAck m =>
    show Silent w w.onTransFailureAck
    unfold onTransFailureAck
    split
    · extract_lets w₁
      have h₁ : Silent w w₁ := silent_onCancelServer ..
      split
      · exact h₁.trans (silent_changeStatus _ (by decide))
      · exact (h₁.trans (silent_changeStatus _ (by decide))).trans (silent_fire _ id)
    · exact .refl w

theorem silent_onTransAckTimeout (w : World) : Silent w w.onTransAckTimeout := by
  unfold onTransAckTimeout
  split
  · exact (silent_changeStatus _ (by decide)).trans (silent_fire _ id)
  · exact .refl w

/-! ## After a callback -/

theorem request_resume (t : TransactionClient) (rest : ClientRest) :
    (t.resume rest).1.request = t.request := by
  cases rest with
  | settle =>
    unfold TransactionClient.resume
    dsimp only
    split
    · rfl
    · unfold TransactionClient.doTerminate
      split <;> rfl
  | dropListener => rfl

theorem request_resumeInvite (t : InviteTransactionClient) (rest : ClientRest) :
    (t.resume rest).1.request = t.request := by
  cases rest with
  | settle =>
    unfold InviteTransactionClient.resume
    dsimp only
    split
    · rfl
    · unfold InviteTransactionClient.doTerminate
      split <;> rfl
  | dropListener => rfl

theorem silent_resume (w : World) (c : Rest) : Silent w (w.resume c) := by
  cases c with
  | inviteClient r rest => exact silent_onInviteClient w _ fun t => request_resumeInvite t rest
  | client r rest => exact silent_onClient w _ fun t => request_resume t rest
  | inviteServer r rest => exact silent_onInviteServer ..
  | fireDlgCall => exact silent_fire _ id
  | fireDlgClosed => exact silent_fire _ id
  | closeAfterBye => exact (silent_changeStatus _ (by decide)).trans (silent_fire _ id)
  | sessionTimers m =>
    show Silent w (w.readSessionTimers m)
    unfold readSessionTimers
    split
    · exact .refl w
    · exact silent_of_dlg (Int.le_refl _) rfl fun h => ⟨h, rfl, rfl⟩
  | afterPrack => exact silent_afterPrack w
  | afterResponderTimeout => exact silent_sendNextResponse w

end World
end SoftPhone
