import SoftPhone.Dialog.Asked

/-!
# Which event sends a request

`origin` reads off the state and the next event whether a request is sent and where it
comes from, and `counter` which local sequence number the dialog holds at that moment.

A step is the callback of a client transaction (`clientCallback`), a call of the user, or
silent (`part_step`).  A callback is silent as well, with two exceptions: a reliable
response that the dialog passes to its listener, for which it may send a PRACK, and a
challenge.  Put together this gives `starts_step`: an event starts no client transaction,
or one of its origin.
-/

namespace SoftPhone

open Machine

/-- The credentials for a challenge can be computed without a null pointer. -/
def SipStack.CanAnswer (S : SipStack) (ch : Challenge) : Prop :=
  ch.realm ≠ none ∧ S.username ≠ none ∧ ch.nonce ≠ none

instance (S : SipStack) (ch : Challenge) : Decidable (S.CanAnswer ch) :=
  inferInstanceAs (Decidable (_ ∧ _ ∧ _))

namespace World

variable (S : SipStack)

/-- What an early dialog learns from a provisional response. -/
def early (w : World) (m : SipMessage) : World :=
  if S.earlyDialog then w.updateDialogInfo true m else w

/-- The dialog passes the provisional response to its listener as a reliable one; with
automatic PRACK it must be able to make one. -/
def Delivers (w : World) (method : Method) (m : SipMessage) : Prop :=
  method = .invite ∧ w.FreshReliable m ∧ (S.autoPrack = true → (w.early S m).Named)

instance (w : World) (method : Method) (m : SipMessage) : Decidable (w.Delivers S method m) :=
  inferInstanceAs (Decidable (_ ∧ _ ∧ _))

/-- The failure response is answered with the request again. -/
def Retries (w : World) (m : SipMessage) : Prop :=
  S.extended = true ∧ ∃ ch ∈ w.challenge m, S.CanAnswer ch

instance (w : World) (m : SipMessage) : Decidable (w.Retries S m) :=
  inferInstanceAs (Decidable (_ ∧ _))

/-- The client transaction that the event makes call the dialog back, its request and the
callback. -/
def clientCallback (w : World) : Event → Option (Agent × SipMessage × ClientCallback)
  | .recv m =>
    if w.stack = [] then
      match w.provider.getListener m with
      | some (.inviteClient r) => (w.inviteClients.get r).bind fun t =>
          (t.onReceivedMessage (S.connection w.provider.sends) m).callback.map fun c =>
            (.inviteClient r, t.request, c)
      | some (.client r) => (w.clients.get r).bind fun t =>
          (t.onReceivedMessage m).callback.map fun c => (.client r, t.request, c)
      | _ => none
    else none
  | .timeout (.inviteClient r) n =>
    if w.stack = [] then
      (w.inviteClients.get r).bind fun t =>
        (t.expire n).callback.map fun c => (.inviteClient r, t.request, c)
    else none
  | .timeout (.client r) n =>
    if w.stack = [] then
      (w.clients.get r).bind fun t =>
        (t.expire n).callback.map fun c => (.client r, t.request, c)
    else none
  | _ => none

/-- The origin of the request that the next event sends. -/
def origin (w : World) (e : Event) : Option Origin :=
  match w.clientCallback S e, e with
  | some (_, req, .onTransFailureResponse m), _ =>
    if w.Retries S m then some (.retried req) else none
  | some (_, req, .onTransProvisionalResponse m), _ =>
    if S.autoPrack ∧ w.Delivers S req.getTransactionMethod m then some .made else none
  | none, .api a => if w.AtUser then w.asked S a else none
  | _, _ => none

/-- The local sequence number that a request of the next event is counted from. -/
def counter (w : World) (e : Event) : ℤ :=
  match w.clientCallback S e with
  | some (_, _, .onTransProvisionalResponse m) => (w.early S m).dlg.info.localCSeq
  | _ => w.dlg.info.localCSeq

variable {S}

/-! ## What a client transaction does -/

theorem silent_putInviteClient {w : World} {r : ℕ} {t : InviteTransactionClient}
    (hget : w.inviteClients.get r = some t)
    {o : Outcome InviteTransactionClient ClientCallback ClientRest}
    (hreq : o.self.request = t.request) : Silent w (w.putInviteClient r o) := by
  have hput : Silent w { w with
      inviteClients := w.inviteClients.put r o.self
      provider := w.provider.calls (.inviteClient r) o.calls } :=
    silent_of_calls (a := .inviteClient r) rfl rfl (Heap.extends_put hget hreq) (.refl _ _)
  exact hput.trans (silent_stack _ _)

theorem silent_putClient {w : World} {r : ℕ} {t : TransactionClient}
    (hget : w.clients.get r = some t) {o : Outcome TransactionClient ClientCallback ClientRest}
    (hreq : o.self.request = t.request) : Silent w (w.putClient r o) := by
  have hput : Silent w { w with
      clients := w.clients.put r o.self
      provider := w.provider.calls (.client r) o.calls } :=
    silent_of_calls (a := .client r) rfl rfl (.refl _ _) (Heap.extends_put hget hreq)
  exact hput.trans (silent_stack _ _)

theorem silent_putInviteServer (w : World) (r : ℕ)
    (o : Outcome InviteTransactionServer ServerCallback ServerRest) :
    Silent w (w.putInviteServer r o) := by
  have hput : Silent w { w with
      inviteServers := w.inviteServers.put r o.self
      provider := w.provider.calls (.inviteServer r) o.calls } :=
    silent_of_calls (a := .inviteServer r) rfl rfl (.refl _ _) (.refl _ _)
  exact hput.trans (silent_stack _ _)

theorem silent_inviteServerDid (w : World) (r : ℕ)
    (o : Outcome InviteTransactionServer ServerCallback ServerRest) :
    Silent w (w.inviteServerDid S r o) := by
  unfold inviteServerDid
  split
  · exact silent_putInviteServer ..
  · exact (silent_putInviteServer ..).trans (silent_onServerCallback ..)

theorem silent_serverDid (w : World) (r : ℕ)
    (o : Outcome TransactionServer ServerCallback ServerRest) : Silent w (w.serverDid S r o) := by
  have hput : Silent w (w.putServer r o) :=
    silent_of_calls (a := .server r) rfl rfl (.refl _ _) (.refl _ _)
  unfold serverDid
  split
  · exact hput
  · exact hput.trans (silent_onServerCallback ..)

theorem silent_cancelServerDid (w : World) (r : ℕ)
    (o : Outcome TransactionServer ServerCallback ServerRest) :
    Silent w (w.cancelServerDid S r o) := by
  have hput : Silent w (w.putCancelServer r o) :=
    silent_of_calls (a := .cancelServer r) rfl rfl (.refl _ _) (.refl _ _)
  unfold cancelServerDid
  split
  · exact hput
  · exact hput.trans (silent_onServerCallback ..)

theorem silent_ackServerDid (w : World) (r : ℕ)
    (o : Outcome AckTransactionServer AckServerCallback ServerRest) :
    Silent w (w.ackServerDid r o) := by
  have hput : Silent w (w.putAckServer r o) :=
    silent_of_calls (a := .ackServer r) rfl rfl (.refl _ _) (.refl _ _)
  unfold ackServerDid
  split
  · exact hput
  · exact hput.trans (silent_onTransAckTimeout _)

/-! ## The parts of a step -/

/-- What is between `w` and `w'` when a client transaction for `req` does something: the
work of the transaction, and its callback, if any. -/
def Did (S : SipStack) (w : World) (req : SipMessage) (c : Option ClientCallback) (w' : World) :
    Prop :=
  match c with
  | none => Silent w w'
  | some c => ∃ w₁, Silent w w₁ ∧ w₁.dlg = w.dlg ∧ w' = w₁.onClientCallback S req c

theorem did_inviteClientDid {w w₁ : World} (h : Silent w w₁) (hdlg : w₁.dlg = w.dlg) {r : ℕ}
    {t : InviteTransactionClient} (hget : w₁.inviteClients.get r = some t)
    {o : Outcome InviteTransactionClient ClientCallback ClientRest}
    (hreq : o.self.request = t.request) :
    Did S w t.request o.callback (w₁.inviteClientDid S r o) := by
  have hput := h.trans (silent_putInviteClient hget hreq)
  unfold inviteClientDid
  cases hc : o.callback with
  | none => exact hput
  | some c => exact ⟨_, hput, hdlg, by rw [hreq]⟩

theorem did_clientDid {w w₁ : World} (h : Silent w w₁) (hdlg : w₁.dlg = w.dlg) {r : ℕ}
    {t : TransactionClient} (hget : w₁.clients.get r = some t)
    {o : Outcome TransactionClient ClientCallback ClientRest}
    (hreq : o.self.request = t.request) :
    Did S w t.request o.callback (w₁.clientDid S r o) := by
  have hput := h.trans (silent_putClient hget hreq)
  unfold clientDid
  cases hc : o.callback with
  | none => exact hput
  | some c => exact ⟨_, hput, hdlg, by rw [hreq]⟩

/-- The parts of a step. -/
inductive Part (S : SipStack) (w : World) (e : Event) (w' : World) : Prop where
  | silent (hc : w.clientCallback S e = none) (h : Silent w w')
  | called {a : Api} (he : e = .api a) (huser : w.AtUser) (h : w' = w.call S a)
  | callback {w₁ : World} {a : Agent} {req : SipMessage} {c : ClientCallback}
      (hc : w.clientCallback S e = some (a, req, c)) (h : Silent w w₁) (hdlg : w₁.dlg = w.dlg)
      (hw' : w' = w₁.onClientCallback S req c)

theorem Part.of_did {w w' : World} {e : Event} {a : Agent} {req : SipMessage}
    {c : Option ClientCallback}
    (hc : w.clientCallback S e = c.map fun c => (a, req, c)) (h : Did S w req c w') :
    Part S w e w' := by
  cases c with
  | none => exact .silent hc h
  | some c =>
    obtain ⟨w₁, hsilent, hdlg, hw'⟩ := h
    exact .callback hc hsilent hdlg hw'

theorem part_receive {w : World} {m : SipMessage} (hidle : w.stack = []) :
    Part S w (.recv m) (w.receive S m) := by
  unfold receive
  cases hl : w.provider.getListener m with
  | none => exact .silent (by simp [clientCallback, hidle, hl]) (.refl w)
  | some a =>
    have h₁ : Silent w (w.observe (.received a m)) := silent_observe w id
    dsimp only
    unfold deliver
    cases a with
    | dialog => exact .silent (by simp [clientCallback, hl]) (h₁.trans (silent_onReceivedMessage ..))
    | ackClient => exact .silent (by simp [clientCallback, hl]) h₁
    | inviteClient r =>
      cases hget : w.inviteClients.get r with
      | none =>
        dsimp only
        rw [show (w.observe (.received (.inviteClient r) m)).inviteClients.get r = none from hget]
        exact .silent (by simp [clientCallback, hl, hget]) h₁
      | some t =>
        dsimp only
        rw [show (w.observe (.received (.inviteClient r) m)).inviteClients.get r = some t from hget]
        exact .of_did (a := .inviteClient r) (by simp [clientCallback, hidle, hl, hget]; rfl)
          (did_inviteClientDid h₁ rfl hget (t.step_onReceivedMessage _ m).request_eq)
    | client r =>
      cases hget : w.clients.get r with
      | none =>
        dsimp only
        rw [show (w.observe (.received (.client r) m)).clients.get r = none from hget]
        exact .silent (by simp [clientCallback, hl, hget]) h₁
      | some t =>
        dsimp only
        rw [show (w.observe (.received (.client r) m)).clients.get r = some t from hget]
        exact .of_did (a := .client r) (by simp [clientCallback, hidle, hl, hget])
          (did_clientDid h₁ rfl hget (t.step_onReceivedMessage m).request_eq)
    | inviteServer r =>
      refine .silent (by simp [clientCallback, hl]) ?_
      dsimp only
      split
      · exact h₁
      · exact h₁.trans (silent_inviteServerDid ..)
    | server r =>
      refine .silent (by simp [clientCallback, hl]) ?_
      dsimp only
      split
      · exact h₁
      · exact h₁.trans (silent_serverDid ..)
    | cancelServer r =>
      refine .silent (by simp [clientCallback, hl]) ?_
      dsimp only
      split
      · exact h₁
      · exact h₁.trans (silent_cancelServerDid ..)
    | ackServer r =>
      refine .silent (by simp [clientCallback, hl]) ?_
      dsimp only
      split
      · exact h₁
      · exact h₁.trans (silent_ackServerDid ..)

theorem part_expire {w : World} (hidle : w.stack = []) (a : Agent) (n : TimerName) :
    Part S w (.timeout a n) (w.expire S a n) := by
  unfold expire
  cases a with
  | dialog => exact .silent rfl (.refl w)
  | ackClient => exact .silent rfl (.refl w)
  | inviteClient r =>
    cases hget : w.inviteClients.get r with
    | none =>
      dsimp only
      rw [hget]
      exact .silent (by simp [clientCallback, hget]) (.refl w)
    | some t =>
      dsimp only
      rw [hget]
      exact .of_did (a := .inviteClient r) (by simp [clientCallback, hidle, hget])
        (did_inviteClientDid (.refl w) rfl hget (t.step_expire n).request_eq)
  | client r =>
    cases hget : w.clients.get r with
    | none =>
      dsimp only
      rw [hget]
      exact .silent (by simp [clientCallback, hget]) (.refl w)
    | some t =>
      dsimp only
      rw [hget]
      exact .of_did (a := .client r) (by simp [clientCallback, hidle, hget])
        (did_clientDid (.refl w) rfl hget (t.step_expire n).request_eq)
  | inviteServer r =>
    refine .silent rfl ?_
    dsimp only
    split
    · exact .refl w
    · exact silent_inviteServerDid ..
  | server r =>
    refine .silent rfl ?_
    dsimp only
    split
    · exact .refl w
    · exact silent_serverDid ..
  | cancelServer r =>
    refine .silent rfl ?_
    dsimp only
    split
    · exact .refl w
    · exact silent_cancelServerDid ..
  | ackServer r =>
    refine .silent rfl ?_
    dsimp only
    split
    · exact .refl w
    · exact silent_ackServerDid ..

/-- A step is a callback of a client transaction, a call of the user, or silent. -/
theorem part_step (w : World) (e : Event) : Part S w e (w.step S e) := by
  cases e with
  | recv m =>
    show Part S w _ (if w.stack = [] then _ else _)
    split
    · next hidle => exact part_receive hidle
    · next hbusy => exact .silent (if_neg hbusy) (.refl w)
  | timeout a n =>
    show Part S w _ (if w.stack = [] then _ else _)
    split
    · next hidle => exact part_expire hidle a n
    · next hbusy =>
      refine .silent ?_ (.refl w)
      cases a with
      | inviteClient r => exact if_neg hbusy
      | client r => exact if_neg hbusy
      | _ => rfl
  | responderTimeout n =>
    show Part S w _ (if w.stack = [] then _ else _)
    split
    · exact .silent rfl (silent_processTimeout w n)
    · exact .silent rfl (.refl w)
  | api a =>
    show Part S w _ (if w.AtUser then _ else _)
    split
    · next huser => exact .called rfl huser rfl
    · exact .silent rfl (.refl w)
  | ret =>
    refine .silent rfl ?_
    unfold step
    dsimp only
    split
    · exact .refl w
    · exact silent_stack ..
    · exact (silent_stack w _).trans (silent_resume ..)

/-! ## The callbacks -/

/-- The reliable responses that the listener got, newest first. -/
def deliveries (log : List Obs) : List SipMessage :=
  log.filterMap fun
    | .fired (.onDlgInviteReliableProvisionalResponse m) => some m
    | _ => none

theorem deliveries_append {l : List Obs} (hl : ∀ o ∈ l, ¬ o.IsDelivery) (log : List Obs) :
    deliveries (l ++ log) = deliveries log := by
  have hnil : deliveries l = [] := by
    refine List.filterMap_eq_nil_iff.mpr fun o ho => ?_
    have hnot := hl o ho
    cases o with
    | fired c =>
      cases c with
      | onDlgInviteReliableProvisionalResponse m => exact absurd trivial hnot
      | _ => rfl
    | _ => rfl
  unfold deliveries at hnil ⊢
  rw [List.filterMap_append, hnil, List.nil_append]

theorem Calm.deliveries {w w' : World} (h : Calm w w') :
    World.deliveries w'.log = World.deliveries w.log := by
  obtain ⟨l, hl, hnot⟩ := h.log
  rw [hl, deliveries_append hnot]

theorem silent_early (w : World) (m : SipMessage) : Silent w (w.early S m) := by
  unfold early
  split
  · exact silent_updateDialogInfo ..
  · exact .refl w

theorem lastRSeq_early (w : World) (m : SipMessage) :
    (w.early S m).dlg.info.lastRSeq = w.dlg.info.lastRSeq := by
  unfold early
  split
  · exact lastRSeq_updateDialogInfo ..
  · rfl

/-- A dialog that knows both names can make a PRACK. -/
theorem create_prack_ne_none {w : World} (hw : w.Named) {m : SipMessage} {rseq : ℤ}
    (hrseq : m.rseq = some rseq) (contentType body : Option String) :
    (w.create S fun branch info => createPrackRequest branch info m contentType body) ≠ none := by
  obtain ⟨toName, hto⟩ := Option.isSome_iff_exists.mp hw.1
  obtain ⟨fromName, hfrom⟩ := Option.isSome_iff_exists.mp hw.2
  simp [create, createPrackRequest, hrseq, createDialogRequest, hto, hfrom]

/-- What happens when the dialog passes a reliable response to its listener: with automatic
PRACK a transaction is started for the PRACK. -/
structure Delivering (S : SipStack) (w : World) (m : SipMessage) (w' : World) : Prop where
  attempts : w'.dlg.attempts = w.dlg.attempts
  deliveries : deliveries w'.log = m :: deliveries w.log
  still : S.autoPrack = false → Still w w'
  pracks : S.autoPrack = true → ∃ prack rseq, m.rseq = some rseq ∧ prack.is .prack = true ∧
    prack.rack = some ⟨rseq, m.cseq, m.cseqMethod⟩ ∧
    Starts S (w.early S m).dlg.info.localCSeq (.made, prack) w w'

theorem delivering_onReliableResponse {w : World} {rseq : ℤ} {m : SipMessage}
    (hrseq : m.rseq = some rseq) (hnamed : S.autoPrack = true → (w.early S m).Named) :
    Delivering S w m ((w.early S m).onReliableResponse S rseq m) := by
  have hearly := silent_early (S := S) w m
  set w₁ := w.early S m
  have hset : Silent w₁ { w₁ with dlg.info.lastRSeq := rseq } :=
    silent_of_dlg (Int.le_refl _) rfl fun h => ⟨h, rfl, rfl⟩
  have hfire (w : World) : Still w (w.fire (.onDlgInviteReliableProvisionalResponse m)) :=
    ⟨.refl _ _, .refl _ _, Int.le_refl _, Nat.le_refl _, fun h => ⟨h, rfl, rfl⟩⟩
  have hdelivers {w' : World} (h : Calm w w') :
      World.deliveries (w'.fire (.onDlgInviteReliableProvisionalResponse m)).log =
        m :: World.deliveries w.log := by
    rw [← h.deliveries]
    rfl
  unfold onReliableResponse
  extract_lets _ _ w₂
  have h₂ : Silent w w₂ := hearly.trans hset
  split
  · next hauto =>
    have hnot : S.autoPrack ≠ false := by
      rw [hauto]
      exact Bool.noConfusion
    split
    · next hnone =>
      have hnamed₂ : w₂.Named := hnamed hauto
      exact absurd hnone (create_prack_ne_none hnamed₂ hrseq none none)
    · next prack w₃ hcreate =>
      obtain ⟨hprack, k, hk, hrack⟩ := createPrackRequest_of_create hcreate
      obtain ⟨hl, hc⟩ := launches_startClient (S := S) w₃ prack false
      obtain ⟨-, hstarts⟩ := starts_of_create (numbers_createPrackRequest m none none) hcreate rfl
        rfl rfl hl
      have hcalm := (h₂.toCalm.trans (still_create (numbers_createPrackRequest m none none)
        hcreate).toCalm).trans hc
      unfold confirm1xx
      rw [if_pos hprack]
      exact ⟨hcalm.attempts, hdelivers hcalm, fun h => absurd h hnot, fun _ =>
        ⟨prack, k, hk, hprack, hrack, (h₂.toStill.starts hstarts).still (hfire _)⟩⟩
  · next hauto =>
    exact ⟨h₂.attempts, hdelivers h₂.toCalm, fun _ => h₂.toStill.trans (hfire _),
      fun h => absurd h hauto⟩

theorem onTransProvisionalResponse_spec (w : World) (method : Method) (m : SipMessage) :
    if w.Delivers S method m then Delivering S w m (w.onTransProvisionalResponse S method m)
    else Silent w (w.onTransProvisionalResponse S method m) := by
  have hearly := silent_early (S := S) w m
  split
  · next hdelivers =>
    obtain ⟨hmethod, ⟨hreq, rseq, hrseq, hfresh⟩, hnamed⟩ := hdelivers
    have hfresh' : (w.early S m).dlg.info.lastRSeq < 0 ∨ (w.early S m).dlg.info.lastRSeq < rseq := by
      rw [lastRSeq_early]
      exact hfresh
    unfold onTransProvisionalResponse
    rw [if_pos hmethod, show m.requires otag100rel = true from hreq, show m.rseq = some rseq from hrseq]
    show Delivering S w m (if (w.early S m).dlg.info.lastRSeq < 0 ∨
      (w.early S m).dlg.info.lastRSeq < rseq then _ else _)
    rw [if_pos hfresh']
    exact delivering_onReliableResponse hrseq hnamed
  · next hnot =>
    unfold onTransProvisionalResponse
    split
    · next hmethod =>
      have hother : Silent w ((w.early S m).fire (.onDlgInviteProvisionalResponse m)) :=
        hearly.trans (silent_fire _ id)
      cases hreq : m.requires otag100rel with
      | false => exact hother
      | true =>
        cases hrseq : m.rseq with
        | none => exact hother
        | some rseq =>
          show Silent w (if (w.early S m).dlg.info.lastRSeq < 0 ∨
              (w.early S m).dlg.info.lastRSeq < rseq then
            (w.early S m).onReliableResponse S rseq m else w.early S m)
          split
          · next hfresh =>
            rw [lastRSeq_early] at hfresh
            have hname : ¬ (S.autoPrack = true → (w.early S m).Named) := fun hnamed =>
              hnot ⟨hmethod, ⟨hreq, rseq, hrseq, hfresh⟩, hnamed⟩
            obtain ⟨hauto, hunnamed⟩ := Classical.not_imp.mp hname
            unfold onReliableResponse
            extract_lets _ _ w₂
            have h₂ : Silent w w₂ :=
              hearly.trans (silent_of_dlg (Int.le_refl _) rfl fun h => ⟨h, rfl, rfl⟩)
            rw [if_pos hauto]
            split
            · exact h₂
            · next hcreate =>
              exact absurd (starts_of_create (numbers_createPrackRequest m none none) hcreate rfl
                rfl rfl (launches_startClient (S := S) _ _ false).1).1 hunnamed
          · exact hearly
    · exact .refl w

theorem silent_failure (w : World) (method : Method) (m : SipMessage) :
    Silent w (w.inviteDialogOnTransFailureResponse method m) := by
  unfold inviteDialogOnTransFailureResponse
  split
  · unfold onInviteFailureResponse
    split
    · exact (silent_changeStatus w (by decide)).trans (silent_fire _ id)
    · split
      · refine ((silent_changeStatus w (by decide)).trans (silent_suspend ..)).trans (silent_fire _ ?_)
        split <;> exact id
      · exact .refl w
  · split
    · exact silent_fire _ id
    · exact .refl w
  · split
    · exact (silent_changeStatus w (by decide)).trans (silent_fire _ id)
    · exact .refl w
  · exact .refl w

theorem silent_closes (w : World) {c : DialogCallback} (hc : ¬ (Obs.fired c).IsDelivery) :
    Silent w (((w.changeStatus .close).suspend .fireDlgClosed).fire c) :=
  ((silent_changeStatus w (by decide)).trans (silent_suspend ..)).trans (silent_fire _ hc)

theorem silent_acknowledge {w w' : World} {m : SipMessage} (h : w.acknowledge S m = some w') :
    Silent w w' := by
  unfold acknowledge at h
  split at h
  · obtain ⟨p, hcreate, rfl⟩ := Option.map_eq_some_iff.mp h
    have hkept : Silent p.2 { p.2 with dlg.ackReq := some p.1 } :=
      silent_of_fields rfl rfl rfl rfl rfl
    exact ((silent_create2xxAck hcreate).trans hkept).trans (silent_startAckClient ..)
  · rw [← Option.some.inj h]
    exact silent_of_fields rfl rfl rfl rfl rfl

theorem silent_success (w : World) (method : Method) (m : SipMessage) :
    Silent w (w.inviteDialogOnTransSuccessResponse S method m) := by
  unfold inviteDialogOnTransSuccessResponse
  split
  · unfold onInviteSuccessResponse
    split
    · extract_lets reInviting w₁
      have h₁ : Silent w w₁ :=
        (silent_changeStatus w (by decide)).trans (silent_updateDialogInfo ..)
      split
      · exact h₁
      · next w₂ hw₂ =>
        refine (h₁.trans (silent_acknowledge hw₂)).trans ?_
        unfold fireSuccess
        split
        · exact (silent_suspend ..).trans (silent_fire _ id)
        · exact ((silent_suspend ..).trans (silent_suspend ..)).trans (silent_fire _ id)
    · exact .refl w
  · split
    · exact (silent_updateDialogInfo ..).trans (silent_fire _ id)
    · exact .refl w
  · split
    · exact silent_closes w id
    · exact .refl w
  · exact .refl w

theorem silent_timeout (w : World) (method : Method) :
    Silent w (w.inviteDialogOnTransTimeout method) := by
  unfold inviteDialogOnTransTimeout
  split
  · split
    · exact silent_closes w id
    · exact .refl w
  · split
    · exact (silent_changeStatus w (by decide)).trans (silent_fire _ id)
    · exact .refl w
  · exact .refl w

theorem silent_onAltResponse (w : World) (method : Method) (m : SipMessage) :
    Silent w (w.onAltResponse method m) := by
  refine silent_fire w ?_
  split <;> exact id

/-- What happens when a challenge is taken: an attempt is counted, and the request is sent
again unless there is a null pointer. -/
structure Authenticating (S : SipStack) (req : SipMessage) (ch : Challenge) (w w' : World) :
    Prop where
  attempts : w'.dlg.attempts = w.dlg.attempts + 1
  deliveries : deliveries w'.log = deliveries w.log
  still : ¬ S.CanAnswer ch → Still w w'
  starts : S.CanAnswer ch → ∃ req', Starts S w.dlg.info.localCSeq (.retried req, req') w w'

theorem authenticating_authenticate (w : World) (req m : SipMessage) (ch : Challenge) :
    Authenticating S req ch w (w.authenticate S req m ch) := by
  have hcount : Still w { w with dlg.attempts := w.dlg.attempts + 1 } :=
    ⟨.refl _ _, .refl _ _, Int.le_refl _, Nat.le_refl _, fun h => ⟨h, rfl, rfl⟩⟩
  unfold authenticate
  extract_lets _ w₁ req₁ _ w₂
  have h₂ : Still w w₂ :=
    hcount.trans ⟨.refl _ _, .refl _ _, Int.le_refl _, Nat.le_succ _, fun h => ⟨h, rfl, rfl⟩⟩
  have hmethod : req₁.requestMethod = req.requestMethod := by
    unfold req₁ authorized
    dsimp only
    split <;> rfl
  have hcseq : req₁.cseq = req.cseq + 1 := by
    unfold req₁ authorized
    dsimp only
    split <;> rfl
  have hbranch : req₁.branch = some (S.pickBranch w.provider.branches) := by
    unfold req₁ authorized
    dsimp only
    split <;> rfl
  have hstarts {w' : World} (hl : Launches req₁ w₂ w') :
      Starts S w.dlg.info.localCSeq (.retried req, req₁) w w' := by
    refine ⟨h₂.launches hl, hcseq, fun h => (nomatch h), ?_, w.provider.branches, Nat.le_refl _,
      hl.branches, hbranch⟩
    show req₁.Counts ↔ req.Counts
    rw [SipMessage.Counts, SipMessage.Counts, hmethod]
  split
  · next hrealm => exact ⟨rfl, rfl, fun _ => hcount, fun hcan => absurd hrealm hcan.1⟩
  · next hrealm =>
    split
    · next hnull =>
      exact ⟨rfl, rfl, fun _ => h₂, fun hcan => absurd hnull (not_or_intro hcan.2.1 hcan.2.2)⟩
    · next hnull =>
      obtain ⟨huser, hnonce⟩ := not_or.mp hnull
      have hcan : S.CanAnswer ch := ⟨hrealm, huser, hnonce⟩
      split
      · obtain ⟨hl, hc⟩ := launches_startInviteClient (S := S) w₂ req₁
        exact ⟨hc.attempts, hc.deliveries, fun h => absurd hcan h, fun _ => ⟨req₁, hstarts hl⟩⟩
      · obtain ⟨hl, hc⟩ := launches_startClient (S := S) w₂ req₁ true
        exact ⟨hc.attempts, hc.deliveries, fun h => absurd hcan h, fun _ => ⟨req₁, hstarts hl⟩⟩

theorem onTransFailureResponse_spec (w : World) (req m : SipMessage) :
    match (if S.extended then w.challenge m else none) with
    | some ch => Authenticating S req ch w (w.onTransFailureResponse S req m)
    | none => Silent w (w.onTransFailureResponse S req m) := by
  unfold onTransFailureResponse
  extract_lets method
  cases S.extended with
  | false => exact silent_failure ..
  | true =>
    cases hch : w.challenge m with
    | some ch =>
      simp only [if_true]
      exact authenticating_authenticate ..
    | none =>
      simp only [if_true]
      split
      · exact silent_failure ..
      · exact silent_onAltResponse ..

/-- A success takes the attempts back. -/
structure Succeeding (S : SipStack) (w w' : World) : Prop extends Still w w' where
  attempts : w'.dlg.attempts = if S.extended then 0 else w.dlg.attempts
  deliveries : deliveries w'.log = deliveries w.log

theorem onTransSuccessResponse_spec (w : World) (req m : SipMessage) :
    Succeeding S w (w.onTransSuccessResponse S req m) := by
  unfold onTransSuccessResponse
  extract_lets method _ w₁
  have h₁ : Still w w₁ :=
    ⟨.refl _ _, .refl _ _, Int.le_refl _, Nat.le_refl _, fun h => ⟨h, rfl, rfl⟩⟩
  split
  · next hS =>
    have h₂ {w' : World} (h : Silent w₁ w') : Succeeding S w w' :=
      ⟨h₁.trans h.toStill, by rw [h.attempts, if_pos hS], h.toCalm.deliveries⟩
    split
    · exact h₂ (silent_success ..)
    · exact h₂ (silent_onAltResponse ..)
  · next hS =>
    have h := silent_success (S := S) w method m
    exact ⟨h.toStill, by rw [h.attempts, if_neg hS], h.toCalm.deliveries⟩

/-! ## One event -/

theorem early_congr {w w₁ : World} (hdlg : w₁.dlg = w.dlg) (m : SipMessage) :
    (w₁.early S m).dlg = (w.early S m).dlg := by
  unfold early
  split
  · show w₁.dlg.updateInfo true m = w.dlg.updateInfo true m
    rw [hdlg]
  · exact hdlg

theorem delivers_congr {w w₁ : World} (hdlg : w₁.dlg = w.dlg) (method : Method) (m : SipMessage) :
    w₁.Delivers S method m ↔ w.Delivers S method m := by
  unfold Delivers FreshReliable Named
  rw [early_congr hdlg, hdlg]

/-- An event without a callback of a client transaction. -/
theorem calm_step {w : World} {e : Event} (hc : w.clientCallback S e = none) :
    Calm w (w.step S e) := by
  cases part_step (S := S) w e with
  | silent _ h => exact h.toCalm
  | called he huser h =>
    rw [h]
    rcases asked_call (S := S) w _ with hsilent | ⟨p, -, -, hcalm⟩
    · exact hsilent.toCalm
    · exact hcalm
  | callback hc' =>
    rw [hc] at hc'
    cases hc'

/-- The event makes a client transaction call the dialog back. -/
theorem step_of_callback {w : World} {e : Event} {a : Agent} {req : SipMessage} {c : ClientCallback}
    (hc : w.clientCallback S e = some (a, req, c)) :
    ∃ w₁, Silent w w₁ ∧ w₁.dlg = w.dlg ∧ w.step S e = w₁.onClientCallback S req c := by
  cases part_step (S := S) w e with
  | silent hc' =>
    rw [hc] at hc'
    cases hc'
  | called he =>
    rw [he] at hc
    cases hc
  | callback hc' h hdlg hw' =>
    rw [hc] at hc'
    cases hc'
    exact ⟨_, h, hdlg, hw'⟩

theorem step_provisional {w : World} {e : Event} {a : Agent} {req m : SipMessage}
    (hc : w.clientCallback S e = some (a, req, .onTransProvisionalResponse m)) :
    if w.Delivers S req.getTransactionMethod m then Delivering S w m (w.step S e)
    else Silent w (w.step S e) := by
  obtain ⟨w₁, h₁, hdlg, hw'⟩ := step_of_callback hc
  have hspec := onTransProvisionalResponse_spec (S := S) w₁ req.getTransactionMethod m
  rw [hw']
  simp only [delivers_congr hdlg] at hspec
  split
  · next hdelivers =>
    rw [if_pos hdelivers] at hspec
    refine ⟨hspec.attempts.trans h₁.attempts, hspec.deliveries.trans (by rw [h₁.toCalm.deliveries]),
      fun hauto => h₁.toStill.trans (hspec.still hauto), fun hauto => ?_⟩
    obtain ⟨prack, rseq, hrseq, hprack, hrack, hstarts⟩ := hspec.pracks hauto
    rw [early_congr hdlg] at hstarts
    exact ⟨prack, rseq, hrseq, hprack, hrack, h₁.toStill.starts hstarts⟩
  · next hnot =>
    rw [if_neg hnot] at hspec
    exact h₁.trans hspec

theorem step_success {w : World} {e : Event} {a : Agent} {req m : SipMessage}
    (hc : w.clientCallback S e = some (a, req, .onTransSuccessResponse m)) :
    Succeeding S w (w.step S e) := by
  obtain ⟨w₁, h₁, hdlg, hw'⟩ := step_of_callback hc
  have hspec := onTransSuccessResponse_spec (S := S) w₁ req m
  rw [hw']
  exact ⟨h₁.toStill.trans hspec.toStill, by rw [← hdlg]; exact hspec.attempts,
    hspec.deliveries.trans h₁.toCalm.deliveries⟩

theorem step_failure {w : World} {e : Event} {a : Agent} {req m : SipMessage}
    (hc : w.clientCallback S e = some (a, req, .onTransFailureResponse m)) :
    match (if S.extended then w.challenge m else none) with
    | some ch => Authenticating S req ch w (w.step S e)
    | none => Silent w (w.step S e) := by
  obtain ⟨w₁, h₁, hdlg, hw'⟩ := step_of_callback hc
  have hspec := onTransFailureResponse_spec (S := S) w₁ req m
  rw [hw']
  rw [show w₁.challenge m = w.challenge m by unfold challenge; rw [hdlg]] at hspec
  split
  · next ch hch =>
    rw [hch] at hspec
    refine ⟨hspec.attempts.trans (by rw [hdlg]), hspec.deliveries.trans h₁.toCalm.deliveries,
      fun h => h₁.toStill.trans (hspec.still h), fun h => ?_⟩
    obtain ⟨req', hstarts⟩ := hspec.starts h
    rw [hdlg] at hstarts
    exact ⟨req', h₁.toStill.starts hstarts⟩
  · next hch =>
    rw [hch] at hspec
    exact h₁.trans hspec

theorem step_timeout {w : World} {e : Event} {a : Agent} {req : SipMessage}
    (hc : w.clientCallback S e = some (a, req, .onTransTimeout)) : Silent w (w.step S e) := by
  obtain ⟨w₁, h₁, -, hw'⟩ := step_of_callback hc
  rw [hw']
  exact h₁.trans (silent_timeout ..)

/-- **An event starts no client transaction, or one for a request of its origin.** -/
theorem starts_step (w : World) (e : Event) :
    Still w (w.step S e) ∨
      ∃ p, w.origin S e = some p.1 ∧ Starts S (w.counter S e) p w (w.step S e) := by
  cases part_step (S := S) w e with
  | silent _ h => exact .inl h.toStill
  | @called a he huser h =>
    rw [h]
    subst he
    rcases asked_call (S := S) w a with hsilent | ⟨p, hp, hstarts, -⟩
    · exact .inl hsilent.toStill
    · exact .inr ⟨p, (if_pos huser).trans hp, hstarts⟩
  | @callback _ a req c hc =>
    cases c with
    | onTransProvisionalResponse m =>
      have hspec := step_provisional hc
      split at hspec
      · next hdelivers =>
        cases hauto : S.autoPrack with
        | false => exact .inl (hspec.still hauto)
        | true =>
          obtain ⟨prack, -, -, -, -, hstarts⟩ := hspec.pracks hauto
          refine .inr ⟨(.made, prack), ?_, ?_⟩
          · simp only [origin, hc, hauto, hdelivers, and_self, if_true]
          · simp only [counter, hc]
            exact hstarts
      · exact .inl hspec.toStill
    | onTransSuccessResponse m => exact .inl (step_success hc).toStill
    | onTransFailureResponse m =>
      have hspec := step_failure hc
      split at hspec
      · next ch hch =>
        by_cases hcan : S.CanAnswer ch
        · obtain ⟨req', hstarts⟩ := hspec.starts hcan
          obtain ⟨hS, hch⟩ : S.extended = true ∧ w.challenge m = some ch := by
            split at hch
            · next hS => exact ⟨hS, hch⟩
            · cases hch
          have hretries : w.Retries S m := ⟨hS, ch, hch, hcan⟩
          refine .inr ⟨(.retried req, req'), ?_, ?_⟩
          · simp only [origin, hc, hretries, if_true]
          · simp only [counter, hc]
            exact hstarts
        · exact .inl (hspec.still hcan)
      · exact .inl hspec.toStill
    | onTransTimeout => exact .inl (step_timeout hc).toStill

/-- A new dialog has sent nothing. -/
theorem Start.silent {w : World} (h : Start S w) : Silent (World.init S) w := by
  cases h with
  | init => exact .refl _
  | ofInvite invite => exact silent_onReceivedMessage ..

end World
end SoftPhone
