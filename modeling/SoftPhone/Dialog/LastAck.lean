import SoftPhone.Dialog.Acknowledged

/-!
# Every ACK matches its 2xx

An ACK that the dialog sends for a 2xx, be it the first copy or a late one, should
carry the CSeq of that 2xx.

The dialog keeps one ACK, `ack_req`, and in D_CALL it answers every late response with
it, whatever the response is for.  The kept ACK is the one that was sent last
(`ackKept_run`), so a late copy gets a matching ACK exactly when it is a copy of the
2xx that was acknowledged last; a copy that is older, or one that comes before the
user has confirmed the 2xx, does not (`ack_of_other_invite`).  An ACK that the user
makes himself is sent as it is.

`ack_matches_iff` says this for every reachable state and every event.
-/

namespace SoftPhone

open Machine

/-- The CSeq of the ACK that was sent last. -/
def lastAck (log : List Obs) : Option ℤ :=
  log.findSome? fun
    | .sent .ackClient a => some a.cseq
    | _ => none

@[simp] theorem lastAck_cons (a : SipMessage) (log : List Obs) :
    lastAck (.sent .ackClient a :: log) = some a.cseq := rfl

/-- Whatever is no ACK does not count. -/
theorem lastAck_append {l : List Obs} (hl : ∀ o ∈ l, o.isAck = false) (log : List Obs) :
    lastAck (l ++ log) = lastAck log := by
  unfold lastAck
  rw [List.findSome?_append]
  have hnone : l.findSome? (fun
      | .sent .ackClient a => some a.cseq
      | _ => none) = none := by
    rw [List.findSome?_eq_none_iff]
    intro o ho
    have hack := hl o ho
    cases o with
    | sent a m =>
      cases a with
      | ackClient => cases hack
      | _ => rfl
    | _ => rfl
  rw [hnone, Option.none_or]

namespace World

variable {S : SipStack}

/-- Between `w` and `w'` the dialog sends no ACK and keeps the one it has. -/
structure Unacked (w w' : World) : Prop where
  ackReq : w'.dlg.ackReq = w.dlg.ackReq
  log : ∃ l, w'.log = l ++ w.log ∧ ∀ o ∈ l, o.isAck = false

namespace Unacked

variable {w w' w'' : World}

theorem refl (w : World) : Unacked w w := ⟨rfl, [], rfl, by simp⟩

theorem trans (h : Unacked w w') (h' : Unacked w' w'') : Unacked w w'' :=
  ⟨h'.ackReq.trans h.ackReq, extension_trans h.log h'.log⟩

/-- Calls of anybody but an `AckTransactionClient`. -/
theorem of_calls {a : Agent} {cs : List ProviderCall} (ha : a ≠ .ackClient)
    (hprovider : w'.provider = w.provider.calls a cs)
    (hack : w'.dlg.ackReq = w.dlg.ackReq) : Unacked w w' := by
  refine ⟨hack, SipProvider.sents a cs, ?_, ?_⟩
  · rw [World.log, hprovider, SipProvider.log_calls]
  · intro o ho
    obtain ⟨m, -, rfl⟩ := SipProvider.mem_sents.mp ho
    cases a <;> first | rfl | exact absurd rfl ha

theorem of_moves (h : Moves w w') : Unacked w w' := by
  obtain ⟨l, hl, hneutral⟩ := h.log
  refine ⟨h.ackReq, l, hl, fun o ho => ?_⟩
  have hserver := hneutral o ho
  cases o with
  | sent a m => cases a <;> first | rfl | exact absurd hserver id
  | received a m => rfl
  | processed m => rfl
  | fired c => rfl

theorem changeStatus (w : World) (s : Status) : Unacked w (w.changeStatus s) :=
  of_moves (moves_changeStatus w s)

theorem fire (w : World) (c : DialogCallback) : Unacked w (w.fire c) :=
  ⟨rfl, [.fired c], rfl, by simp [Obs.isAck]⟩

theorem suspend (w : World) (rest : Rest) : Unacked w (w.suspend rest) := ⟨rfl, [], rfl, by simp⟩

theorem pop (w : World) (rest : List Frame) : Unacked w { w with stack := rest } :=
  ⟨rfl, [], rfl, by simp⟩

theorem withoutOffer (w : World) : Unacked w w.withoutOffer := ⟨rfl, [], rfl, by simp⟩

theorem setInv2xxResp (w : World) (m : SipMessage) : Unacked w (w.setInv2xxResp m) :=
  ⟨rfl, [], rfl, by simp⟩

theorem startClient (w : World) (req : SipMessage) (listener : Bool) :
    Unacked w (w.startClient S req listener) :=
  of_calls (a := .client _) (by simp) rfl rfl

theorem putInviteClient (w : World) (r : ℕ)
    (o : Outcome InviteTransactionClient ClientCallback ClientRest) :
    Unacked w (w.putInviteClient r o) :=
  of_calls (a := .inviteClient r) (by simp) rfl rfl

theorem putClient (w : World) (r : ℕ)
    (o : Outcome TransactionClient ClientCallback ClientRest) : Unacked w (w.putClient r o) :=
  of_calls (a := .client r) (by simp) rfl rfl

theorem onInviteClient (w : World) (r : Option ℕ)
    (f : InviteTransactionClient → InviteTransactionClient × List ProviderCall) :
    Unacked w (w.onInviteClient r f) :=
  of_calls (a := .inviteClient _) (by simp) rfl rfl

theorem onClient (w : World) (r : Option ℕ)
    (f : TransactionClient → TransactionClient × List ProviderCall) :
    Unacked w (w.onClient r f) :=
  of_calls (a := .client _) (by simp) rfl rfl

theorem sendInvite (w : World) (req : SipMessage) : Unacked w (w.sendInvite S req) := by
  have hinfo : Serves w ((w.setInviteReq req).updateDialogInfo true req) :=
    (serves_setInviteReq ..).trans (serves_updateDialogInfo ..)
  have hstart : Unacked ((w.setInviteReq req).updateDialogInfo true req) (w.sendInvite S req) :=
    of_calls (a := .inviteClient _) (by simp) rfl rfl
  exact (of_moves hinfo.toMoves).trans hstart

theorem fireSuccess (w : World) (reInviting : Bool) (m : SipMessage) :
    Unacked w (w.fireSuccess reInviting m) := by
  have hsession := suspend w (.sessionTimers m)
  unfold World.fireSuccess
  split
  · exact hsession.trans (fire ..)
  · exact (hsession.trans (suspend ..)).trans (fire ..)

theorem of_serves_or (h : Serves w w' ∨ Serves w.withoutOffer w') : Unacked w w' :=
  h.elim (fun h => of_moves h.toMoves) fun h => (withoutOffer w).trans (of_moves h.toMoves)

theorem terminate (w : World) : Unacked w w.terminate := by
  unfold World.terminate
  split
  · exact refl w
  · extract_lets w₁ w₂ w₃ w₄ w₅ w₆ w₇
    have h₂ : Unacked w w₂ := (changeStatus ..).trans (onInviteClient ..)
    have h₃ : Unacked w w₃ := h₂.trans (of_moves (serves_onInviteServer ..).toMoves)
    have h₄ : Unacked w w₄ := h₃.trans (of_moves (serves_onCancelServer ..).toMoves)
    have h₅ : Unacked w w₅ := h₄.trans (of_moves (serves_onServer ..).toMoves)
    have h₆ : Unacked w w₆ := h₅.trans (of_moves (serves_onAckServer ..).toMoves)
    have h₇ : Unacked w w₇ := h₆.trans (of_moves (serves_onServer ..).toMoves)
    have h₈ : Unacked w₇ { w₇ with dlg := w₇.dlg.forget } := ⟨rfl, [], rfl, by simp⟩
    exact (h₇.trans h₈).trans (fire ..)

end Unacked

/-! ## The reasons for an ACK -/

/-- The event `e` makes the dialog send the ACK `a`. -/
inductive AckFor (w : World) (a : SipMessage) : Event → Prop where
  /-- A 2xx comes to the invite client. -/
  | success {m : SipMessage} (hack : a.cseq = m.cseq) : AckFor w a (.recv m)
  /-- A response comes late. -/
  | late {m : SipMessage} (hidle : w.stack = []) (hl : w.provider.getListener m = some .dialog)
      (hw : w.status = .call) (hack : w.dlg.ackReq = some a) : AckFor w a (.recv m)
  /-- The user answers the offer in the kept 2xx. -/
  | confirms {contact : Option NameAddress} {sdp : String} {resp : SipMessage}
      (hresp : w.dlg.inv2xxResp = some resp) (hack : a.cseq = resp.cseq) :
      AckFor w a (.api (.confirm2xxWithAnswer contact sdp))
  | confirmsWith {ack : Request .ack} (huser : w.AtUser) (hack : a = ack.1) :
      AckFor w a (.api (.confirm2xxWithAck ack))

/-- The dialog sends the ACK `a`, and no other one, and keeps it. -/
structure Acked (w : World) (a : SipMessage) (w' : World) : Prop where
  ackReq : w'.dlg.ackReq = some a
  log : ∃ l l', w'.log = l ++ .sent .ackClient a :: l' ++ w.log ∧
    (∀ o ∈ l, o.isAck = false) ∧ ∀ o ∈ l', o.isAck = false

theorem Acked.of_start {w w₁ v w' : World} {a : SipMessage} (h : Unacked w w₁)
    (hlog : v.log = .sent .ackClient a :: w₁.log) (hack : v.dlg.ackReq = some a)
    (h' : Unacked v w') : Acked w a w' := by
  obtain ⟨l', hl', hno'⟩ := h.log
  obtain ⟨l, hl, hno⟩ := h'.log
  refine ⟨h'.ackReq.trans hack, l, l', ?_, hno, hno'⟩
  rw [hl, hlog, hl', List.append_assoc, List.cons_append]

theorem Acked.after {w w₁ w' : World} {a : SipMessage} (h : Unacked w w₁)
    (h' : Acked w₁ a w') : Acked w a w' := by
  obtain ⟨l₁, hl₁, hno₁⟩ := h.log
  obtain ⟨l, l', hl, hno, hno'⟩ := h'.log
  refine ⟨h'.ackReq, l, l' ++ l₁, ?_, hno, ?_⟩
  · rw [hl, hl₁]
    simp
  · intro o ho
    rcases List.mem_append.mp ho with ho | ho
    · exact hno' o ho
    · exact hno₁ o ho

theorem acked_confirm2xx {w w₁ : World} (h : Unacked w w₁) (ack : SipMessage) :
    Acked w ack (w₁.confirm2xx ack) := by
  refine .of_start h (v := w₁.confirm2xx ack) ?_ ?_ (.refl _)
  · unfold confirm2xx
    dsimp only
    split <;> rfl
  · unfold confirm2xx
    dsimp only
    split <;> rfl

/-- A callback of a client transaction. -/
theorem acks_notifies {w w' : World} {method : Method} {c : ClientCallback}
    (h : Notifies S w method c w') :
    Unacked w w' ∨ method = .invite ∧ ∃ m a, c.message = some m ∧ a.cseq = m.cseq ∧
      Acked w a w' := by
  cases h with
  | serves h => exact .inl (.of_moves h.toMoves)
  | pracks _ _ _ h =>
    exact .inl (((Unacked.of_moves h.toMoves).trans (.startClient ..)).trans (.fire ..))
  | fails => exact .inl ((Unacked.changeStatus ..).trans (.fire ..))
  | closes => exact .inl (((Unacked.changeStatus ..).trans (.suspend ..)).trans (.fire ..))
  | byeTimeout => exact .inl ((Unacked.changeStatus ..).trans (.fire ..))
  | @acks m ack w₁ hm _ _ _ hmoves _ hack =>
    exact .inr ⟨hm, m, ack, rfl, hack.2,
      .of_start (.of_moves hmoves) (v := w₁.sendAck ack) rfl rfl (.fireSuccess ..)⟩
  | keeps _ _ _ _ hmoves =>
    exact .inl (((Unacked.of_moves hmoves).trans (.setInv2xxResp ..)).trans (.fireSuccess ..))

theorem unacked_served {w w' : World} (h : Served w w') : Unacked w w' := by
  cases h with
  | serves h => exact .of_moves h.toMoves
  | invited _ h => exact .of_moves h
  | cancelled _ h => exact .of_moves h
  | acked _ h => exact .of_moves h
  | closes _ h => exact (Unacked.of_moves h).trans (.fire ..)

/-- A call of the user. -/
theorem acks_called {w w' : World} {a : Api} (huser : w.AtUser) (h : Called S w a w') :
    Unacked w w' ∨ ∃ ack, AckFor w ack (.api a) ∧ Acked w ack w' := by
  cases h with
  | serves h => exact .inl (.of_moves h.toMoves)
  | listens _ h => exact .inl (.of_moves h)
  | withoutOffer h => exact .inl (.of_serves_or (.inr h))
  | invites _ h =>
    exact .inl (((Unacked.of_serves_or h).trans (.changeStatus ..)).trans (.sendInvite ..))
  | reInvites _ h =>
    exact .inl (((Unacked.of_serves_or h).trans (.changeStatus ..)).trans (.sendInvite ..))
  | answers h => exact .inl (.of_moves h.moves)
  | @confirms contact sdp w₁ resp ack h hresp hack =>
    exact .inr ⟨ack, .confirms hresp hack.2, acked_confirm2xx (.of_moves h.toMoves) ack⟩
  | @confirmsWith ack =>
    exact .inr ⟨ack.1, .confirmsWith huser rfl, acked_confirm2xx (.refl w) ack.1⟩
  | pracks h => exact .inl ((Unacked.of_moves h.toMoves).trans (.startClient ..))
  | byes _ h =>
    exact .inl (((Unacked.of_moves h.toMoves).trans (.changeStatus ..)).trans (.startClient ..))
  | cancels => exact .inl (.startClient ..)
  | abandons => exact .inl (.onInviteClient ..)
  | requests h => exact .inl ((Unacked.of_moves h.toMoves).trans (.startClient ..))
  | terminates => exact .inl (.terminate w)

theorem unacked_resume {w : World} {c : Rest} {rest : List Frame} (hc : ¬ c.IsServing) :
    Unacked w ({ w with stack := rest }.resume c) := by
  have hpop : Unacked w { w with stack := rest } := .pop ..
  cases c with
  | inviteClient r k => exact hpop.trans (.onInviteClient ..)
  | client r k => exact hpop.trans (.onClient ..)
  | inviteServer r k => exact absurd trivial hc
  | sessionTimers m => exact absurd trivial hc
  | afterPrack => exact absurd trivial hc
  | afterResponderTimeout => exact absurd trivial hc
  | fireDlgCall => exact hpop.trans (.fire ..)
  | fireDlgClosed => exact hpop.trans (.fire ..)
  | closeAfterBye => exact (hpop.trans (.changeStatus ..)).trans (.fire ..)

/-- A message that comes to the dialog. -/
theorem acks_receives {w w' : World} {m : SipMessage} (h : Receives S w m w') :
    Unacked w w' ∨ w.status = .call ∧ ∃ a, w.dlg.ackReq = some a ∧ Acked w a w' := by
  cases h with
  | serves hs => exact .inl (.of_moves hs.toMoves)
  | invite _ _ _ hm => exact .inl (.of_moves hm)
  | ack _ hm => exact .inl (((Unacked.of_moves hm).trans (.suspend ..)).trans (.fire ..))
  | bye _ hm => exact .inl (((Unacked.of_moves hm).trans (.suspend ..)).trans (.fire ..))
  | @late ack _ hw hack =>
    exact .inr ⟨hw, ack, hack, .of_start (.refl w) (v := w.startAckClient ack) rfl hack (.refl _)⟩

/-- **Every ACK has its reason.** -/
theorem acks_happens {w w' : World} {e : Event} (h : Sound w) (he : Happens S w e w') :
    Unacked w w' ∨ ∃ a, AckFor w a e ∧ Acked w a w' := by
  cases he with
  | serves hs => exact .inl (.of_moves hs.toMoves)
  | returns => exact .inl (.pop ..)
  | @receives m w' hidle hl hr =>
    have hreceived : Unacked w (w.observe (.received .dialog m)) :=
      .of_moves (serves_received ..).toMoves
    rcases acks_receives hr with hno | ⟨hw, a, hack, hacked⟩
    · exact .inl (hreceived.trans hno)
    · exact .inr ⟨a, .late hidle hl hw hack, .after hreceived hacked⟩
  | inviteClient _ h₁ => exact .inl ((Unacked.of_moves h₁.toMoves).trans (.putInviteClient ..))
  | @inviteClientCalls _ w₁ _ r t o c _ h₁ _ _ _ _ hm hn =>
    have hput : Unacked w (w₁.putInviteClient r o) :=
      (Unacked.of_moves h₁.toMoves).trans (.putInviteClient ..)
    rcases acks_notifies hn with hno | ⟨-, m, a, hmessage, hack, hacked⟩
    · exact .inl (hput.trans hno)
    · obtain ⟨rfl, -⟩ := hm m hmessage
      exact .inr ⟨a, .success hack, .after hput hacked⟩
  | client _ h₁ => exact .inl ((Unacked.of_moves h₁.toMoves).trans (.putClient ..))
  | @clientCalls _ w₁ _ r t o c _ h₁ hget hdid hc hn =>
    have hput : Unacked w (w₁.putClient r o) :=
      (Unacked.of_moves h₁.toMoves).trans (.putClient ..)
    rcases acks_notifies hn with hno | ⟨hmethod, -⟩
    · exact .inl (hput.trans hno)
    · exact absurd hmethod ((h.of_serves h₁).method_ne_invite hget hdid hc)
  | served _ hs => exact .inl (unacked_served hs)
  | called huser hc => exact acks_called huser hc
  | resumes _ hc => exact .inl (unacked_resume hc)
  | goesOn _ _ hs => exact .inl ((Unacked.pop ..).trans (.of_moves hs.toMoves))

/-! ## The kept ACK -/

/-- The kept ACK is the one that was sent last. -/
def AckKept (w : World) : Prop :=
  w.dlg.ackReq.map (·.cseq) = lastAck w.log

theorem Unacked.ackKept {w w' : World} (h : Unacked w w') (hw : AckKept w) : AckKept w' := by
  obtain ⟨l, hl, hno⟩ := h.log
  unfold AckKept
  rw [h.ackReq, hl, lastAck_append hno]
  exact hw

theorem Acked.ackKept {w w' : World} {a : SipMessage} (h : Acked w a w') : AckKept w' := by
  obtain ⟨l, l', hl, hno, -⟩ := h.log
  unfold AckKept
  rw [h.ackReq, hl, List.append_assoc, lastAck_append hno]
  rfl

theorem ackKept_step (hS : S.extended = false) {w : World} (h : Sound w) (hw : AckKept w)
    (e : Event) : AckKept (w.step S e) := by
  rcases acks_happens h (happens_step hS w e) with hno | ⟨a, -, hacked⟩
  · exact hno.ackKept hw
  · exact hacked.ackKept

theorem Start.ackKept (hS : S.extended = false) {w : World} (h : Start S w) : AckKept w := by
  have hinit : AckKept (World.init S) := rfl
  cases h with
  | init => exact hinit
  | ofInvite invite =>
    rcases acks_receives (receives_onReceivedMessage hS (World.init S) invite.1) with hno | ⟨hw, -⟩
    · exact hno.ackKept hinit
    · cases hw

theorem ackKept_run (hS : S.extended = false) {w : World} (hw : Start S w) (es : List Event) :
    Sound (run (step S) w es) ∧ AckKept (run (step S) w es) := by
  refine run_invariant (I := fun w => Sound w ∧ AckKept w) ?_ es ⟨hw.sound hS, hw.ackKept hS⟩
  rintro w e ⟨hsound, hkept⟩
  exact ⟨hsound.happens (happens_step hS w e), ackKept_step hS hsound hkept e⟩

/-! ## Matching -/

/-- Each ACK that the dialog sends in the event `e` matches: the 2xx for an INVITE that
comes, or the one that the user answers. -/
def Matches (S : SipStack) (w : World) (e : Event) : Prop :=
  ∀ l, (w.step S e).log = l ++ w.log → ∀ a, .sent .ackClient a ∈ l →
    match e with
    | .recv m => m.Is2xx → m.getTransactionMethod = .invite → a.cseq = m.cseq
    | _ => ∃ resp ∈ w.dlg.inv2xxResp, a.cseq = resp.cseq

/-- A 2xx for an INVITE that comes late is a copy of the one that was acknowledged last,
and an ACK that the user makes has the CSeq of the 2xx that is kept. -/
def Timely (w : World) : Event → Prop
  | .recv m => m.Is2xx → m.getTransactionMethod = .invite → w.stack = [] →
      w.provider.getListener m = some .dialog → w.status = .call →
      ∀ cseq ∈ lastAck w.log, cseq = m.cseq
  | .api (.confirm2xxWithAck ack) => w.AtUser → ∃ resp ∈ w.dlg.inv2xxResp, ack.1.cseq = resp.cseq
  | _ => True

/-- What the log gains is known. -/
theorem Unacked.not_mem {w w' : World} (h : Unacked w w') {l : List Obs}
    (hl : w'.log = l ++ w.log) {a : SipMessage} (ha : .sent .ackClient a ∈ l) : False := by
  obtain ⟨l₀, hl₀, hno⟩ := h.log
  have hsame : l = l₀ := List.append_cancel_right (hl.symm.trans hl₀)
  have hack := hno _ (hsame ▸ ha)
  cases hack

theorem Acked.eq_of_mem {w w' : World} {a : SipMessage} (h : Acked w a w') {l : List Obs}
    (hl : w'.log = l ++ w.log) {b : SipMessage} (hb : .sent .ackClient b ∈ l) : b = a := by
  obtain ⟨l₁, l₂, hl₀, hno₁, hno₂⟩ := h.log
  have hsame : l = l₁ ++ .sent .ackClient a :: l₂ := List.append_cancel_right (hl.symm.trans hl₀)
  rw [hsame, List.mem_append, List.mem_cons] at hb
  rcases hb with hb | hb | hb
  · cases hno₁ _ hb
  · exact (Obs.sent.inj hb).2
  · cases hno₂ _ hb

/-- An ACK for the reason `h` matches, if the event is timely. -/
theorem matches_of_timely (hS : S.extended = false) {w : World} (hsound : Sound w)
    (hkept : AckKept w) {e : Event} (h : w.Timely e) : Matches S w e := by
  intro l hl a ha
  rcases acks_happens hsound (happens_step hS w e) with hno | ⟨b, hfor, hacked⟩
  · exact (hno.not_mem hl ha).elim
  · obtain rfl := hacked.eq_of_mem hl ha
    cases hfor with
    | success hack => exact fun _ _ => hack
    | late hidle hlistener hw hack =>
      intro h2xx hinvite
      have hlast : lastAck w.log = some a.cseq := by
        rw [← hkept, hack]
        rfl
      exact h h2xx hinvite hidle hlistener hw _ hlast
    | confirms hresp hack => exact ⟨_, hresp, hack⟩
    | confirmsWith huser hack => exact hack ▸ h huser

/-- A late response in D_CALL is answered with the kept ACK. -/
theorem step_late (hS : S.extended = false) {w : World} {m a : SipMessage}
    (hresp : m.isResponse = true) (hidle : w.stack = [])
    (hl : w.provider.getListener m = some .dialog) (hw : w.status = .call)
    (hack : w.dlg.ackReq = some a) :
    (w.step S (.recv m)).log = [.sent .ackClient a, .received .dialog m] ++ w.log := by
  have hrequest : m.isRequest = false := by
    unfold SipMessage.isRequest SipMessage.requestMethod
    unfold SipMessage.isResponse SipMessage.code? at hresp
    cases hline : m.firstLine with
    | request method uri =>
      rw [hline] at hresp
      cases hresp
    | status code => rfl
  have hstep : w.step S (.recv m) = (w.observe (.received .dialog m)).onReceivedResponse := by
    show (if w.stack = [] then w.receive S m else w) = _
    rw [if_pos hidle, receive, hl]
    show (w.observe (.received .dialog m)).onReceivedMessage S m = _
    simp only [onReceivedMessage, hS, inviteDialogOnReceivedMessage, hrequest]
    rfl
  rw [hstep, onReceivedResponse, if_pos (show (w.observe _).status = .call from hw)]
  rw [show (w.observe (.received .dialog m)).dlg.ackReq = some a from hack]
  rfl

theorem timely_of_matches (hS : S.extended = false) {w : World} (hkept : AckKept w) {e : Event}
    (h : Matches S w e) : w.Timely e := by
  cases e with
  | recv m =>
    intro h2xx hinvite hidle hl hw cseq hcseq
    rw [← hkept] at hcseq
    obtain ⟨a, hack, rfl⟩ := Option.map_eq_some_iff.mp hcseq
    exact h _ (step_late hS h2xx.1 hidle hl hw hack) a (List.mem_cons_self ..) h2xx hinvite
  | api b =>
    cases b with
    | confirm2xxWithAck ack =>
      intro huser
      have hstep : w.step S (.api (.confirm2xxWithAck ack)) = w.confirm2xx ack.1 := if_pos huser
      have hlog : (w.confirm2xx ack.1).log = [.sent .ackClient ack.1] ++ w.log := by
        unfold confirm2xx
        dsimp only
        split <;> rfl
      exact h _ ((congrArg World.log hstep).trans hlog) ack.1 (List.mem_cons_self ..)
    | _ => exact trivial
  | timeout a n => exact trivial
  | responderTimeout n => exact trivial
  | ret => exact trivial

/-- **An ACK matches its 2xx exactly when the 2xx is timely**: in every reachable state,
whatever the event. -/
theorem ack_matches_iff (hS : S.extended = false) {w : World} (hw : Start S w)
    (es : List Event) (e : Event) :
    Matches S (run (step S) w es) e ↔ (run (step S) w es).Timely e := by
  obtain ⟨hsound, hkept⟩ := ackKept_run hS hw es
  exact ⟨timely_of_matches hS hkept, matches_of_timely hS hsound hkept⟩

/-- The ACK that the first copy of bob's 2xx is answered with. -/
theorem ack_matches_iff_call :
    Matches {} (run (step {}) (World.init {}) (sampleCall.take 1))
        (.recv (sampleResponse sampleInvite 200)) ↔
      (run (step {}) (World.init {}) (sampleCall.take 1)).Timely
        (.recv (sampleResponse sampleInvite 200)) :=
  ack_matches_iff rfl .init _ _

/-- Alice sends a re-INVITE, and bob answers it with a 2xx. -/
def sampleReInvite : List Event :=
  sampleCall ++ [.api (.reInvite none "sdp"),
    .recv (sampleResponse (sampleRequest .invite 2 (some "tag") "1") 200), .ret, .ret, .ret]

/-- **A late 2xx can get the ACK of another INVITE**: a copy of the 2xx for the first
INVITE comes after the re-INVITE. -/
theorem ack_of_other_invite :
    ¬ ∀ (S : SipStack), S.extended = false → ∀ w, Start S w → ∀ (es : List Event) e,
      Matches S (run (step S) w es) e := by
  intro h
  have hmatches := h {} rfl _ .init sampleReInvite (.recv (sampleResponse sampleInvite 200))
  have hlast : lastAck (run (step {}) (World.init {}) sampleReInvite).log = some 2 := by
    decide +kernel
  have hcseq := timely_of_matches rfl (ackKept_run rfl .init sampleReInvite).2 hmatches
    (by decide +kernel) rfl (by decide +kernel) (by decide +kernel) (by decide +kernel) 2 hlast
  exact absurd hcseq (by decide +kernel)

end World
end SoftPhone
