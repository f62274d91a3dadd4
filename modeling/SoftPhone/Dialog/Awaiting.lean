import SoftPhone.Dialog.Asking
import SoftPhone.Dialog.Attended

/-!
# A dialog that waits for an ACK

In D_REFUSED and D_ReREFUSED the dialog waits for its INVITE server to get the ACK, in
D_ACCEPTED and D_ReACCEPTED for the ACK itself, or for its ACK server to give up.
`Awaiting` says that this server is at work, with the dialog as its listener.

The server of a refused INVITE is pending or COMPLETED.  It leaves these states when the ACK
comes, and then it tells the dialog, or at Timer H, and then it tells nobody; `Undropped`
excludes that.

The proof goes through `Works`, one lemma for each handler.
-/

namespace SoftPhone

open Machine

/-- The states in which the dialog waits for an ACK. -/
def Status.IsAwaiting (s : Status) : Prop := s.IsRefused ∨ s.IsAccepted

instance : DecidablePred Status.IsAwaiting := fun _ => inferInstanceAs (Decidable (_ ∨ _))

/-- The server waits for the ACK of a failure response, or for such a response. -/
def InviteTransactionServer.AwaitsAck (t : InviteTransactionServer) : Prop :=
  (t.status.isPending = true ∨ t.status = .completed) ∧ t.listener = true

/-- The server waits for the ACK of its 2xx. -/
def AckTransactionServer.AwaitsAck (t : AckTransactionServer) : Prop :=
  t.status = .proceeding ∧ t.listener = true

namespace InviteTransactionServer

variable {t t' : InviteTransactionServer}

theorem AwaitsAck.not_waiting (h : t.AwaitsAck) : t.status ≠ .waiting := by
  intro hw
  have hstatus := h.1
  rw [hw] at hstatus
  rcases hstatus with hstatus | hstatus <;> cases hstatus

theorem AwaitsAck.not_confirmed (h : t.AwaitsAck) : t.status ≠ .confirmed := by
  intro hc
  have hstatus := h.1
  rw [hc] at hstatus
  rcases hstatus with hstatus | hstatus <;> cases hstatus

/-- Only a 2xx ends such a server. -/
theorem AwaitsAck.responds (h : t.AwaitsAck) {resp : SipMessage} {cs : List ProviderCall}
    (hcode : ¬ (200 ≤ resp.code ∧ resp.code < 300)) (hr : t.Responds resp t' cs) :
    t'.AwaitsAck := by
  have hstatus : t'.status.isPending = true ∨ t'.status = .completed := by
    rw [hr.status]
    unfold responded
    split
    · next hpending =>
      split
      · exact .inl rfl
      · split
        · exact .inr rfl
        · exact .inl hpending
    · next hpending => exact .inr (h.1.resolve_left hpending)
  refine ⟨hstatus, (hr.listener fun hterm => ?_).trans h.2⟩
  rw [hterm] at hstatus
  rcases hstatus with hstatus | hstatus <;> cases hstatus

/-- A message leaves it waiting, or it tells its listener of the ACK. -/
theorem AwaitsAck.onReceivedMessage (h : t.AwaitsAck) (S : SipStack) (m : SipMessage) :
    (t.onReceivedMessage S m).self.AwaitsAck ∨
      (t.onReceivedMessage S m).callback = some (.onTransFailureAck m) := by
  unfold InviteTransactionServer.onReceivedMessage
  split
  · split
    · next hw => exact absurd hw h.not_waiting
    · split <;> exact .inl h
  · split
    · exact .inr (if_pos h.2)
    · exact .inl h

theorem AwaitsAck.onTimeout (h : t.AwaitsAck) {n : TimerName}
    (hn : n = .ending → t.status ≠ .completed) : (t.onTimeout n).self.AwaitsAck := by
  cases n with
  | retransmission =>
    unfold InviteTransactionServer.onTimeout
    dsimp only
    split <;> exact h
  | ending =>
    have hstay : t.onTimeout .ending = { self := t } := if_neg (hn rfl)
    rw [hstay]
    exact h
  | clearing =>
    have hstay : t.onTimeout .clearing = { self := t } := if_neg h.not_confirmed
    rw [hstay]
    exact h
  | transaction => exact h

/-- A timer leaves it waiting, if it is not Timer H. -/
theorem AwaitsAck.expire (h : t.AwaitsAck) {n : TimerName}
    (hn : n = .ending → ¬ (t.status = .completed ∧ t.endTo.Delivers)) :
    (t.expire n).self.AwaitsAck := by
  have hhalt : (t.haltTimer n).AwaitsAck ∧ (t.haltTimer n).status = t.status := by
    cases n <;> exact ⟨h, rfl⟩
  unfold InviteTransactionServer.expire
  split
  · next timer htimer =>
    rcases timer.expire_cases t (t.haltTimer n) ((t.haltTimer n).onTimeout n) with
      ⟨hdelivers, heq⟩ | heq | heq
    · rw [heq]
      refine hhalt.1.onTimeout fun hending hc => ?_
      subst hending
      cases htimer
      exact hn rfl ⟨hc, hdelivers⟩
    · rw [heq]
      exact h
    · rw [heq]
      exact hhalt.1
  · exact h

end InviteTransactionServer

/-- A timer leaves the server waiting, or it tells its listener of the timeout. -/
theorem AckTransactionServer.AwaitsAck.expire {t : AckTransactionServer} (h : t.AwaitsAck)
    (n : TimerName) : (t.expire n).self.AwaitsAck ∨
      (t.expire n).callback = some AckServerCallback.onTransAckTimeout := by
  have hhalt : (t.haltTimer n).AwaitsAck := by
    cases n <;> exact h
  have htimeout : ((t.haltTimer n).onTimeout n).self.AwaitsAck ∨
      ((t.haltTimer n).onTimeout n).callback = some AckServerCallback.onTransAckTimeout := by
    cases n with
    | ending => exact .inl h
    | clearing => exact .inl h
    | retransmission =>
      left
      unfold AckTransactionServer.onTimeout
      dsimp only
      split <;> exact hhalt
    | transaction =>
      unfold AckTransactionServer.onTimeout
      dsimp only
      split
      · exact .inr (if_pos h.2)
      · exact .inl hhalt
  unfold AckTransactionServer.expire
  split
  · next timer _ =>
    rcases timer.expire_cases t (t.haltTimer n) ((t.haltTimer n).onTimeout n) with
      ⟨-, heq⟩ | heq | heq
    · rw [heq]
      exact htimeout
    · rw [heq]
      exact .inl h
    · rw [heq]
      exact .inl hhalt
  · exact .inl h

namespace World

variable {S : SipStack}

/-- While the dialog waits for an ACK, so does its server, and its listener is the
dialog. -/
structure Awaiting (w : World) : Prop where
  refused : w.status.IsRefused → ∃ r t, w.dlg.inviteTs = some r ∧
    w.inviteServers.get r = some t ∧ t.AwaitsAck
  accepted : w.status.IsAccepted → ∃ k t, w.dlg.ackTs = some k ∧
    w.ackServers.get k = some t ∧ t.AwaitsAck

namespace Awaiting

variable {w w' : World}

/-! ### Small steps -/

/-- The dialog does not wait for an ACK. -/
theorem of_not (hw : ¬ w.status.IsAwaiting) : Awaiting w :=
  ⟨fun h => absurd (.inl h) hw, fun h => absurd (.inr h) hw⟩

theorem of_status {s : Status} (hw : w.status = s) (hs : ¬ s.IsAwaiting) :
    Awaiting w :=
  of_not (hw ▸ hs)

theorem not_isAwaiting_of_invited {s : Status} (hs : s.IsInvited) : ¬ s.IsAwaiting := by
  rcases hs with rfl | rfl <;> decide

/-- The pending INVITE has no answer yet. -/
theorem of_invited (hw : w.status.IsInvited) : Awaiting w := of_not (not_isAwaiting_of_invited hw)

/-- Nobody touches the servers. -/
theorem of_eq (h : Awaiting w) (hservers : w'.inviteServers = w.inviteServers)
    (hacks : w'.ackServers = w.ackServers) (hts : w'.dlg.inviteTs = w.dlg.inviteTs)
    (hack : w'.dlg.ackTs = w.dlg.ackTs) (hstatus : w'.status = w.status) : Awaiting w' := by
  refine ⟨fun hw => ?_, fun hw => ?_⟩
  · rw [hservers, hts]
    exact h.refused (hstatus ▸ hw)
  · rw [hacks, hack]
    exact h.accepted (hstatus ▸ hw)

theorem of_spares (h : Awaiting w) (hs : Spares w w') : Awaiting w' := by
  by_cases hw : w'.status.IsAwaiting
  · have hserving : w'.status.IsServing := hw.elim
      (fun hrefused => .inr (.inr (.inr (.inl hrefused))))
      (fun haccepted => .inr (.inr (.inr (.inr haccepted))))
    exact h.of_eq hs.inviteServers hs.ackServers hs.inviteTs hs.ackTs
      (hs.status.resolve_right fun hnot => hnot hserving)
  · exact of_not hw

/-- An invite server changes; if the dialog waits for it, it goes on waiting. -/
theorem setInviteServer (h : Awaiting w) {r : ℕ} {t t' : InviteTransactionServer}
    (hget : w.inviteServers.get r = some t) (cs : List ProviderCall)
    (hkeep : w.status.IsRefused → w.dlg.inviteTs = some r → t.AwaitsAck → t'.AwaitsAck) :
    Awaiting (w.setInviteServer r t' cs) := by
  refine ⟨fun hw => ?_, h.accepted⟩
  obtain ⟨s, u, hts, hu⟩ := h.refused hw
  obtain ⟨u', hu'⟩ := Heap.exists_get_put hget (fun hsr => hkeep hw (hsr ▸ hts)) ⟨u, hu⟩
  exact ⟨s, u', hts, hu'⟩

/-- The same for an ACK server. -/
theorem setAckServer (h : Awaiting w) {k : ℕ} {t t' : AckTransactionServer}
    (hget : w.ackServers.get k = some t) (cs : List ProviderCall)
    (hkeep : t.AwaitsAck → t'.AwaitsAck) : Awaiting (w.setAckServer k t' cs) := by
  refine ⟨h.refused, fun hw => ?_⟩
  obtain ⟨s, u, hts, hu⟩ := h.accepted hw
  obtain ⟨u', hu'⟩ := Heap.exists_get_put hget (fun _ => hkeep) ⟨u, hu⟩
  exact ⟨s, u', hts, hu'⟩

/-! ### The responder -/

/-- The responder hands over provisional responses only. -/
theorem follow (h : Awaiting w) (hposted : w.Posted) {rr : ReliableProvisionalResponder}
    (hrr : w.dlg.reliableResponder = some rr) {done : ReliableProvisionalResponder.Done}
    (hfits : done.Fits rr) : Awaiting (w.follow rr.inviteTs done) := by
  have hset : Awaiting (w.setResponder done.self) := h.of_eq rfl rfl rfl rfl rfl
  rw [follow_eq]
  rcases hfits.sends with hnone | ⟨resp, hresp, hone⟩
  · rw [hnone]
    exact hset
  · rw [hone]
    show Awaiting ((w.setResponder done.self).onInviteServer (some rr.inviteTs)
      (·.respondWith resp))
    rcases onInviteServer_cases (w.setResponder done.self) (some rr.inviteTs)
      (·.respondWith resp) with hsame | ⟨s, t, -, hget, heq⟩
    · rw [hsame]
      exact hset
    · rw [heq]
      have hlow : resp.code < 200 := (hposted.queued rr hrr resp (hfits.responses hresp)).1.2
      refine hset.setInviteServer hget _ fun _ _ ht => ?_
      refine ht.responds (fun hcode => ?_) (t.responds_respondWith resp)
      have hhigh : 200 ≤ resp.code := hcode.1
      omega

theorem processTimeout (h : Awaiting w) (hposted : w.Posted) (n : TimerName) :
    Awaiting (w.processTimeout n) := by
  cases hrr : w.dlg.reliableResponder with
  | none =>
    rw [processTimeout_of_none hrr]
    exact h
  | some rr =>
    rw [processTimeout_eq hrr]
    exact (h.follow hposted hrr (rr.fits_processTimeout n)).of_spares (spares_tell ..)

theorem processPrack (h : Awaiting w) (hposted : w.Posted) (prack : SipMessage) :
    Awaiting (w.processPrack S prack) := by
  cases hrr : w.dlg.reliableResponder with
  | none =>
    rw [processPrack_of_none hrr]
    exact h
  | some rr =>
    rw [processPrack_eq hrr]
    split
    · exact h
    · have htaken : Awaiting (w.observe (.processed prack)) := h.of_eq rfl rfl rfl rfl rfl
      have hattends : Attends S .empty [] w (w.observe (.processed prack)) := .takes w prack
      have hposted₁ := hattends.posted hposted
      have hanswer := spares_answer (w.observe (.processed prack)) prack
        (unpassed_createResponse S prack 200 none)
      exact ((htaken.of_spares hanswer).follow (hposted₁.of_spares hanswer) hrr
        (rr.fits_processPrack prack)).of_spares (spares_tell ..)

/-- The responder goes on after a callback. -/
theorem resumeResponder (h : Awaiting w) (hposted : w.Posted) (k : ResponderRest) :
    Awaiting (w.resume k.toRest) := by
  cases hrr : w.dlg.reliableResponder with
  | none =>
    rw [resume_toRest_of_none hrr]
    exact h
  | some rr =>
    rw [resume_toRest_eq hrr]
    exact h.follow hposted hrr (rr.fits_resume k)

/-! ### `respond` -/

/-- A 2xx goes to a new ACK server. -/
theorem respondSuccess (hposted : w.Posted) (hw : w.status.IsInvited) (resp : SipMessage) :
    Awaiting (w.respondSuccess S resp) := by
  obtain ⟨-, -, invite, -, -, hreq, -⟩ := hposted.invited hw
  unfold World.respondSuccess
  extract_lets w₁ conn w₂
  have hreq₂ : w₂.dlg.inviteReq = some invite := hreq
  rw [hreq₂]
  dsimp only
  refine ⟨fun hrefused => ?_, fun _ => ?_⟩
  · have hstatus : w₂.status = if w.status = .invited then .accepted else .reAccepted := rfl
    have hnot : ¬ w₂.status.IsRefused := by
      rw [hstatus]
      split <;> decide
    exact absurd hrefused hnot
  · exact ⟨w₂.ackServers.next, _, rfl, Heap.get_new_self .., rfl, rfl⟩

/-- A failure response goes to the pending server. -/
theorem respondFailure (hposted : w.Posted) (hw : w.status.IsInvited) {resp : SipMessage}
    (hcode : ¬ (200 ≤ resp.code ∧ resp.code < 300)) : Awaiting (w.respondFailure resp) := by
  obtain ⟨r, t, invite, hts, hget, -, hpends⟩ := hposted.invited hw
  have hget₁ : (w.changeStatus
      (if w.status = .invited then .refused else .reRefused)).inviteServers.get r = some t := hget
  unfold World.respondFailure
  rw [hts, onInviteServer_of_get hget₁]
  refine ⟨fun _ => ?_, fun haccepted => ?_⟩
  · have hawaits : t.AwaitsAck := ⟨.inl hpends.status, hpends.listener⟩
    have hcode : ¬ (200 ≤ ({ resp with connectionId := t.connectionId } : SipMessage).code ∧
        ({ resp with connectionId := t.connectionId } : SipMessage).code < 300) := hcode
    exact ⟨r, (t.respondWith resp).1, hts, Heap.get_put_self ..,
      hawaits.responds hcode (t.responds_respondWith resp)⟩
  · have hnot : ¬ Status.IsAccepted (if w.status = .invited then .refused else .reRefused) := by
      split <;> decide
    exact absurd haccepted hnot

/-- **The dialog waits for the ACK of what it answers.** -/
theorem respond (h : Awaiting w) (hposted : w.Posted) (resp : SipMessage) :
    Awaiting (w.respond S resp) := by
  by_cases hmethod : resp.cseqMethod = .invite
  · rw [respond_of_invite w hmethod]
    unfold respondInvite
    split
    · next hw =>
      extract_lets resp₁ w₁
      have h₁ : Spares w w₁ ∧ w₁.status = w.status := by
        unfold w₁
        split
        · exact ⟨spares_updateDialogInfo .., rfl⟩
        · exact ⟨.refl w, rfl⟩
      have hposted₁ := hposted.of_spares h₁.1
      have hw₁ : w₁.status.IsInvited := by
        rw [h₁.2]
        exact hw
      split
      · refine of_invited ?_
        rw [(serves_respondProvisional S w resp₁).status]
        exact hw
      · split
        · exact respondSuccess hposted₁ hw₁ _
        · next hcode => exact respondFailure hposted₁ hw₁ hcode
    · exact h
  · exact h.of_spares (spares_respond (fun _ hm => absurd hm hmethod) (.inl hmethod))

/-! ### Messages for the dialog -/

theorem onReceivedInvite (hposted : w.Posted) (m : SipMessage) :
    Awaiting (w.onReceivedInvite S m) := by
  have hopen : Attended S .empty [] w ((w.observe (.processed m)).opened S m) :=
    (Relation.ReflTransGen.single (.takes w m)).tail (.opens _ m)
  have hposted₄ := hopen.posted hposted
  have hinvited : ((w.observe (.processed m)).opened S m).status.IsInvited := by
    show (if w.status = .init then Status.invited else .reInvited).IsInvited
    split <;> decide
  unfold World.onReceivedInvite
  extract_lets r w₁ w₂ w₃ w₄ w₅
  split
  · exact (of_invited hinvited).respond hposted₄ _
  · split <;> exact of_invited hinvited

theorem onReceivedAck (hw : w.status.IsAccepted) (m : SipMessage) :
    Awaiting (w.onReceivedAck m) := by
  unfold World.onReceivedAck
  rw [if_pos hw]
  exact of_status (s := .call) rfl (by decide)

/-- A message for the dialog. -/
theorem hears (hS : S.extended = false) (h : Awaiting w) (hposted : w.Posted) {m : SipMessage}
    (hh : Hears S w m w') : Awaiting w' := by
  cases hh with
  | spares hs => exact h.of_spares hs
  | invite => exact onReceivedInvite hposted m
  | ack _ hw => exact onReceivedAck hw m
  | prack => exact h.processPrack hposted m
  | takes _ _ _ hs =>
    have htaken : Awaiting (w.observe (.processed m)) := h.of_eq rfl rfl rfl rfl rfl
    exact htaken.of_spares hs
  | extended hS' =>
    rw [hS] at hS'
    cases hS'

/-! ### Callbacks of the servers -/

/-- A CANCEL, after its 200. -/
theorem onTransRequestCancel (h : Awaiting w) (hposted : w.Posted) (m : SipMessage) :
    Awaiting (w.onTransRequestCancel S m) := by
  unfold World.onTransRequestCancel
  split
  · split
    · exact h
    · exact (h.respond hposted _).of_spares (spares_fire ..)
  · exact h

/-- The INVITE that the dialog was waiting for, once its server has it. -/
theorem onTransRequestInvite (h : Awaiting w) (hposted : w.Posted) {r : ℕ}
    {t : InviteTransactionServer} {m : SipMessage} (hget : w.inviteServers.get r = some t)
    (ht : t.Pends m) : Awaiting (w.onTransRequestInvite S m) := by
  unfold World.onTransRequestInvite
  split
  · next hw =>
    extract_lets w₁ w₂
    have hchain : Attended S .empty [] w w₂ :=
      (Relation.ReflTransGen.single (.takes w m)).tail (.accepts hw hget ht)
    have h₂ : Awaiting w₂ := of_status (s := .invited) rfl (by decide)
    split
    · exact h₂.respond (hchain.posted hposted) _
    · exact h₂.of_spares (spares_fire ..)
  · exact h

/-- The ACK of a failure response moves the dialog on. -/
theorem onTransFailureAck (h : ¬ w.status.IsRefused → Awaiting w) :
    Awaiting w.onTransFailureAck := by
  unfold World.onTransFailureAck
  split
  · dsimp only
    split
    · exact of_status (s := .call) rfl (by decide)
    · exact of_status (s := .close) rfl (by decide)
  · next hw => exact h hw

/-- So does a 2xx without ACK. -/
theorem onTransAckTimeout (w : World) : Awaiting w.onTransAckTimeout := by
  unfold World.onTransAckTimeout
  split
  · exact of_status (s := .close) rfl (by decide)
  · next hw => exact of_not fun hawaits => hw hawaits.symm

/-- A message for an invite server. -/
theorem inviteServerHears (h : Awaiting w) (hposted : w.Posted) {r : ℕ}
    {t : InviteTransactionServer} (hget : w.inviteServers.get r = some t) (m : SipMessage) :
    Awaiting (w.inviteServerDid S r (t.onReceivedMessage S m)) := by
  unfold inviteServerDid
  by_cases hbegins : m.is .invite = true ∧ t.status = .waiting
  · obtain ⟨hm, hw⟩ := hbegins
    -- the dialog does not wait for a server that still listens
    have hnot (t' : InviteTransactionServer) (cs : List ProviderCall) :
        Awaiting (w.setInviteServer r t' cs) :=
      h.setInviteServer hget cs fun _ _ hawaits => absurd hw hawaits.not_waiting
    rw [InviteTransactionServer.onReceivedMessage_of_waiting S hm hw]
    have hbegin := InviteTransactionServer.begins_begin S t m
    have hset : Attends S .empty [] w (w.setInviteServer r (t.begin S m).1 (t.begin S m).2) :=
      .begins hget hw hbegin
    dsimp only
    split
    · exact hnot ..
    · next c hc =>
      split at hc
      · next hlistener =>
        cases hc
        have hget' : (w.setInviteServer r (t.begin S m).1 (t.begin S m).2).inviteServers.get r =
            some (t.begin S m).1 := Heap.get_put_self ..
        show Awaiting
          ((w.setInviteServer r (t.begin S m).1 (t.begin S m).2).onTransRequest S (.inviteServer r) m)
        unfold onTransRequest
        split
        · have hpends := hbegin.pends hlistener
          exact (hnot ..).onTransRequestInvite (hset.posted hposted) hget' hpends
        · dsimp only
          rw [onInviteServer_of_get hget']
          have hmisled : Attends S .empty [] w
              ((w.setInviteServer r (t.begin S m).1 (t.begin S m).2).setInviteServer r
                ((t.begin S m).1.respondWith (createResponse S m 200 none)).1
                ((t.begin S m).1.respondWith (createResponse S m 200 none)).2) :=
            .misled hget hw hbegin rfl rfl
              ((t.begin S m).1.responds_respondWith (createResponse S m 200 none))
          have hset₂ : Awaiting
              ((w.setInviteServer r (t.begin S m).1 (t.begin S m).2).setInviteServer r
                ((t.begin S m).1.respondWith (createResponse S m 200 none)).1
                ((t.begin S m).1.respondWith (createResponse S m 200 none)).2) := by
            refine (hnot _ _).setInviteServer hget' _ fun hrefused hts _ => ?_
            obtain ⟨s, u, hts', hu, hawaits⟩ := h.refused hrefused
            cases hts.symm.trans hts'
            cases hget.symm.trans hu
            exact absurd hw hawaits.not_waiting
          exact hset₂.onTransRequestCancel (hmisled.posted hposted) m
        · exact hnot ..
      · cases hc
  · split
    · next hc =>
      refine (h.setInviteServer hget (t.onReceivedMessage S m).calls fun _ _ hawaits => ?_).of_spares
        (spares_stack ..)
      refine (hawaits.onReceivedMessage S m).resolve_right fun hack => ?_
      rw [hack] at hc
      cases hc
    · next c hc =>
      rw [InviteTransactionServer.callback_onReceivedMessage hbegins hc]
      refine onTransFailureAck fun hw => ?_
      refine (h.setInviteServer hget (t.onReceivedMessage S m).calls fun hrefused => ?_).of_spares
        (spares_stack ..)
      exact absurd hrefused hw

/-- A timer of an invite server. -/
theorem inviteServerExpires (h : Awaiting w) {r : ℕ} {t : InviteTransactionServer}
    (hget : w.inviteServers.get r = some t) {n : TimerName}
    (hdrop : w.status.IsRefused → w.dlg.inviteTs = some r → n = .ending →
      ¬ (t.status = .completed ∧ t.endTo.Delivers)) :
    Awaiting (w.inviteServerDid S r (t.expire n)) := by
  unfold inviteServerDid
  rw [t.callback_expire n]
  exact (h.setInviteServer hget (t.expire n).calls fun hw hts hawaits =>
    hawaits.expire (hdrop hw hts)).of_spares (spares_stack ..)

/-- A message for an ACK server. -/
theorem ackServerHears (h : Awaiting w) {k : ℕ} {t : AckTransactionServer}
    (hget : w.ackServers.get k = some t) (m : SipMessage) :
    Awaiting (w.ackServerDid k (t.onReceivedMessage m)) :=
  h.setAckServer hget (t.onReceivedMessage m).calls id

/-- A timer of an ACK server. -/
theorem ackServerExpires (h : Awaiting w) {k : ℕ} {t : AckTransactionServer}
    (hget : w.ackServers.get k = some t) (n : TimerName) :
    Awaiting (w.ackServerDid k (t.expire n)) := by
  unfold ackServerDid
  split
  · next hc =>
    refine h.setAckServer hget (t.expire n).calls fun hawaits => ?_
    refine (hawaits.expire n).resolve_right fun htimeout => ?_
    rw [htimeout] at hc
    cases hc
  · exact onTransAckTimeout _

/-! ### Calls of the user -/

theorem asks (h : Awaiting w) (hposted : w.Posted) {a : Api} (ha : Asks S w a w') :
    Awaiting w' := by
  cases ha with
  | spares hs => exact h.of_spares hs
  | responds => exact h.respond hposted _
  | answers => exact h.respond hposted _
  | listens hw => exact of_status (moves_listen hw).2 (by decide)
  | abandons hw =>
    refine of_not (w := w.onInviteServer w.dlg.inviteTs (·.terminate)) ?_
    show ¬ w.status.IsAwaiting
    rcases hw with hw | hw <;> rw [hw] <;> decide
  | terminates =>
    unfold terminate
    split
    · exact h
    · exact of_status (s := .close) rfl (by decide)

/-! ### One event -/

/-- **One event keeps it**, if it does not drop the server. -/
theorem works (hS : S.extended = false) (h : Awaiting w) (hposted : w.Posted) {e : Event}
    (hdrop : w.Undropped e) (hw : Works S w e w') : Awaiting w' := by
  cases hw with
  | spares hs => exact h.of_spares hs
  | @hears m _ _ _ hh =>
    have hs : Spares w (w.observe (.received .dialog m)) := spares_observe w trivial
    exact (h.of_spares hs).hears hS (hposted.of_spares hs) hh
  | @inviteServerHears m r t _ _ hget =>
    have hs : Spares w (w.observe (.received (.inviteServer r) m)) := spares_observe w trivial
    exact (h.of_spares hs).inviteServerHears (hposted.of_spares hs) hget m
  | inviteServerExpires hidle hget =>
    exact h.inviteServerExpires hget fun hrefused hts hn =>
      hdrop hn hidle hrefused _ hts rfl _ hget
  | @ackServerHears m r t _ _ hget =>
    have hs : Spares w (w.observe (.received (.ackServer r) m)) := spares_observe w trivial
    exact (h.of_spares hs).ackServerHears hget m
  | ackServerExpires _ hget => exact h.ackServerExpires hget _
  | requested _ hs hts =>
    rcases requested_cases (S := S) hposted hs hts with h₁ | ⟨w₂, h₂, heq⟩
    · exact h.of_spares h₁
    · rw [heq]
      exact (h.of_spares h₂).onTransRequestCancel (hposted.of_spares h₂) _
  | responderTimeout => exact h.processTimeout hposted _
  | asks _ ha => exact h.asks hposted ha
  | @goesOn c rest _ hc =>
    have hs : Spares w { w with stack := rest } := spares_stack w rest
    have hpop := h.of_spares hs
    have hposted' := hposted.of_spares hs
    cases c with
    | inviteServer r k =>
      show Awaiting (World.onInviteServer _ (some r) fun t => (t.resume k, []))
      rcases onInviteServer_cases { w with stack := rest } (some r) fun t => (t.resume k, []) with
        hsame | ⟨s, t, -, hget, heq⟩
      · rw [hsame]
        exact hpop
      · rw [heq]
        refine hpop.setInviteServer hget _ fun _ _ hawaits => ?_
        cases k
        exact hawaits
    | afterPrack => exact hpop.resumeResponder hposted' .afterPrack
    | afterResponderTimeout => exact hpop.resumeResponder hposted' .afterTimeout
    | _ => exact hc.elim

end Awaiting

end World
end SoftPhone
