import SoftPhone.Dialog.Attends

/-!
# Every event is a chain of pieces

`respond`, the methods of the reliable responder and the handlers of `Works` are taken
apart into the pieces of `Attends`.  The result is `attended_step`: in a state in which a
pending INVITE has a server, an event is a chain of pieces, and the responses that the
responder hands over in them are the ones of `handed`.
-/

namespace SoftPhone

open Machine

namespace ReliableProvisionalResponder

/-- What a method of the responder may do when it gets no new response: it keeps its server
and hands at most one response over, which stays in the queue. -/
structure Done.Fits (done : Done) (rr : ReliableProvisionalResponder) : Prop where
  inviteTs : done.self.inviteTs = rr.inviteTs
  responses : done.self.responses ⊆ rr.responses
  sends : sends done.acts = [] ∨ ∃ resp ∈ done.self.responses, sends done.acts = [resp]

variable {rr : ReliableProvisionalResponder}

theorem Done.fits_refl : ({ self := rr } : Done).Fits rr := ⟨rfl, List.Subset.refl _, .inl rfl⟩

theorem fits_sendNextResponse (rr : ReliableProvisionalResponder) :
    rr.sendNextResponse.Fits rr := by
  unfold sendNextResponse
  split
  · exact Done.fits_refl
  · next resp rest hresp =>
    refine ⟨rfl, List.Subset.refl _, .inr ⟨resp, ?_, rfl⟩⟩
    show resp ∈ rr.responses
    rw [hresp]
    exact List.mem_cons_self ..

theorem fits_resume (rr : ReliableProvisionalResponder) (k : ResponderRest) :
    (rr.resume k).Fits rr := by
  cases k with
  | afterPrack =>
    unfold resume
    dsimp only
    split
    · exact rr.fits_sendNextResponse
    · exact Done.fits_refl
  | afterTimeout => exact rr.fits_sendNextResponse

/-- What was settled was not sent. -/
theorem fits_settle {resp : SipMessage} {rest : List SipMessage}
    (hresp : rr.responses = resp :: rest) {act : ResponderAct} (hact : sends [act] = [])
    (k : ResponderRest) : (rr.settle rest act k).Fits rr := by
  have hsub : rest ⊆ rr.responses := by
    rw [hresp]
    exact List.subset_cons_self ..
  unfold settle
  split
  · exact ⟨rfl, hsub, .inl hact⟩
  · have hfits := (rr.advance rest).fits_resume k
    have hsends : sends (act :: ((rr.advance rest).resume k).acts) =
        sends ((rr.advance rest).resume k).acts := by
      rw [← List.singleton_append, sends_append, hact, List.nil_append]
    exact ⟨hfits.inviteTs, List.Subset.trans hfits.responses hsub, by rw [hsends]; exact hfits.sends⟩

theorem fits_processPrack (rr : ReliableProvisionalResponder) (prack : SipMessage) :
    (rr.processPrack prack).Fits rr := by
  unfold processPrack
  split
  · exact Done.fits_refl
  · next hresp =>
    split
    · exact fits_settle hresp rfl _
    · exact Done.fits_refl

theorem fits_processTimeout (rr : ReliableProvisionalResponder) (n : TimerName) :
    (rr.processTimeout n).Fits rr := by
  unfold processTimeout
  split
  · split
    · refine ⟨rfl, List.Subset.refl _, ?_⟩
      show sends (rr.responses.head?.toList.map .sends) = [] ∨
        ∃ resp ∈ rr.responses, sends (rr.responses.head?.toList.map .sends) = [resp]
      cases rr.responses with
      | nil => exact .inl rfl
      | cons resp rest => exact .inr ⟨resp, List.mem_cons_self .., rfl⟩
    · exact Done.fits_refl
  · split
    · split
      · exact ⟨rfl, List.Subset.refl _, .inl rfl⟩
      · next hresp => exact fits_settle hresp rfl _
    · exact Done.fits_refl
  · exact Done.fits_refl

end ReliableProvisionalResponder

namespace World

variable {S : SipStack} {heap : Heap InviteTransactionServer} {H : List (ℕ × SipMessage)}

/-! ## Methods of the servers -/

theorem onInviteServer_of_get {w : World} {r : ℕ} {t : InviteTransactionServer}
    (hget : w.inviteServers.get r = some t)
    (f : InviteTransactionServer → InviteTransactionServer × List ProviderCall) :
    w.onInviteServer (some r) f = w.setInviteServer r (f t).1 (f t).2 := by
  unfold onInviteServer setInviteServer
  dsimp only [invoke]
  rw [hget, Heap.modify_of_get hget]
  rfl

/-- A method of an invite server changes one server, or nothing. -/
theorem onInviteServer_cases (w : World) (r : Option ℕ)
    (f : InviteTransactionServer → InviteTransactionServer × List ProviderCall) :
    w.onInviteServer r f = w ∨ ∃ s t, r = some s ∧ w.inviteServers.get s = some t ∧
      w.onInviteServer r f = w.setInviteServer s (f t).1 (f t).2 := by
  cases r with
  | none => exact .inl rfl
  | some s =>
    cases hget : w.inviteServers.get s with
    | some t => exact .inr ⟨s, t, rfl, hget, onInviteServer_of_get hget f⟩
    | none =>
      left
      unfold onInviteServer
      dsimp only [invoke]
      rw [hget, Heap.modify_of_none hget]
      rfl

/-- The same for an ACK server. -/
theorem onAckServer_cases (w : World) (k : Option ℕ)
    (f : AckTransactionServer → AckTransactionServer × List ProviderCall) :
    w.onAckServer k f = w ∨ ∃ s t, k = some s ∧ w.ackServers.get s = some t ∧
      w.onAckServer k f = w.setAckServer s (f t).1 (f t).2 := by
  cases k with
  | none => exact .inl rfl
  | some s =>
    unfold onAckServer setAckServer
    dsimp only [invoke]
    cases hget : w.ackServers.get s with
    | some t =>
      refine .inr ⟨s, t, rfl, hget, ?_⟩
      rw [Heap.modify_of_get hget]
      rfl
    | none =>
      left
      rw [Heap.modify_of_none hget]
      rfl

theorem attended_of_spares {w w' : World} (h : Spares w w') : Attended S heap H w w' :=
  .single (.spares h)

theorem Attended.posted {w w' : World} (ha : Attended S heap H w w') (h : w.Posted) : w'.Posted :=
  ha.induction (fun _ _ hstep => hstep.posted) h

/-! ## The responder -/

/-- Only what is sent concerns the invite server. -/
theorem follow_eq (w : World) (r : ℕ) (done : ReliableProvisionalResponder.Done) :
    w.follow r done = (sends done.acts).foldl
      (fun w resp => w.onInviteServer (some r) (·.respondWith resp)) (w.setResponder done.self) := by
  unfold follow
  generalize w.setResponder done.self = w₁
  induction done.acts generalizing w₁ with
  | nil => rfl
  | cons act acts ih =>
    rw [List.foldl_cons, ih]
    cases act <;> rfl

theorem respondReliably_of_responder {w : World} {rr : ReliableProvisionalResponder}
    (h : w.responder = some rr) (resp : SipMessage) :
    w.respondReliably resp = if rr.retransmissionTo = none then
      (w.setResponder (rr.enqueue resp)).follow rr.inviteTs (rr.enqueue resp).sendNextResponse
      else w.setResponder (rr.enqueue resp) := by
  have hsend : (w.setResponder (rr.enqueue resp)).sendNextResponse =
      (w.setResponder (rr.enqueue resp)).follow rr.inviteTs (rr.enqueue resp).sendNextResponse :=
    @sendNextResponse_eq _ (rr.enqueue resp) rfl
  unfold responder at h
  unfold respondReliably
  rw [h, ← hsend]

/-- The responder hands over what its method sends. -/
theorem attended_follow {w : World} {rr : ReliableProvisionalResponder}
    (hrr : w.dlg.reliableResponder = some rr) {done : ReliableProvisionalResponder.Done}
    (hfits : done.Fits rr) (hheap : w.inviteServers = heap)
    (hH : (sends done.acts).map (fun resp => (rr.inviteTs, resp)) ⊆ H) :
    Attended S heap H w (w.follow rr.inviteTs done) := by
  have hset : Attended S heap H w (w.setResponder done.self) :=
    .single (.goesOn hrr hfits.inviteTs hfits.responses)
  rw [follow_eq]
  rcases hfits.sends with hnone | ⟨resp, hresp, hone⟩
  · rw [hnone]
    exact hset
  · rw [hone] at hH ⊢
    show Attended S heap H w
      ((w.setResponder done.self).onInviteServer (some rr.inviteTs) (·.respondWith resp))
    rcases onInviteServer_cases (w.setResponder done.self) (some rr.inviteTs)
      (·.respondWith resp) with hsame | ⟨s, t, hs, hget, heq⟩
    · rw [hsame]
      exact hset
    · rw [heq, ← Option.some.inj hs]
      rw [← Option.some.inj hs] at hget
      have hmem : (rr.inviteTs, resp) ∈ H := hH (List.mem_singleton_self _)
      rw [← hfits.inviteTs] at hget hmem ⊢
      exact hset.tail (.hands rfl hresp hheap hmem hget (t.responds_respondWith resp))

/-- The listener is told. -/
theorem spares_tell (w : World) (done : ReliableProvisionalResponder.Done) :
    Spares w (w.tell done) := by
  unfold tell
  split
  · next k act acts _ _ =>
    cases act with
    | sends resp => exact spares_suspend ..
    | confirms resp prack => exact (spares_suspend ..).trans (spares_fire ..)
    | timesOut resp => exact (spares_suspend ..).trans (spares_fire ..)
  · exact .refl w

theorem attended_processTimeout {w : World} {n : TimerName} (hheap : w.inviteServers = heap)
    (hH : w.relayed (·.processTimeout n) ⊆ H) : Attended S heap H w (w.processTimeout n) := by
  cases hrr : w.dlg.reliableResponder with
  | none =>
    rw [processTimeout_of_none hrr]
  | some rr =>
    rw [processTimeout_eq hrr]
    unfold relayed at hH
    rw [hrr] at hH
    exact (attended_follow hrr (rr.fits_processTimeout n) hheap hH).tail
      (.spares (spares_tell ..))

theorem attended_processPrack {w : World} {prack : SipMessage} (hheap : w.inviteServers = heap)
    (hH : w.relayed (·.processPrack prack) ⊆ H) :
    Attended S heap H w (w.processPrack S prack) := by
  cases hrr : w.dlg.reliableResponder with
  | none =>
    rw [processPrack_of_none hrr]
  | some rr =>
    rw [processPrack_eq hrr]
    split
    · exact .refl
    · set w₁ := (w.observe (.processed prack)).answer prack (createResponse S prack 200 none)
      have h₁ : Attended S heap H w w₁ :=
        (Relation.ReflTransGen.single (.takes w prack)).tail
          (.spares (spares_answer _ prack (unpassed_createResponse S prack 200 none)))
      have hrr₁ : w₁.dlg.reliableResponder = some rr := hrr
      have hheap₁ : w₁.inviteServers = heap := hheap
      unfold relayed at hH
      rw [hrr] at hH
      exact (h₁.trans (attended_follow hrr₁ (rr.fits_processPrack prack) hheap₁ hH)).tail
        (.spares (spares_tell ..))

/-- The responder goes on after a callback. -/
theorem attended_resume {w : World} {c : Rest} {k : ResponderRest} (hc : c = k.toRest)
    (hheap : w.inviteServers = heap) (hH : w.relayed (·.resume k) ⊆ H) :
    Attended S heap H w (w.resume c) := by
  subst hc
  unfold relayed at hH
  cases hrr : w.dlg.reliableResponder with
  | none =>
    rw [resume_toRest_of_none hrr]
  | some rr =>
    rw [resume_toRest_eq hrr]
    rw [hrr] at hH
    exact attended_follow hrr (rr.fits_resume k) hheap hH

/-! ## `respond` -/

/-- The response after the session timers were put in. -/
theorem sessionTimers_spec (info : DialogInfo) (invite resp : SipMessage) :
    (sessionTimers S info invite resp).2.code = resp.code ∧
      (sessionTimers S info invite resp).2.cseqMethod = resp.cseqMethod ∧
      (sessionTimers S info invite resp).2.passedFor = resp.passedFor := by
  have hrequired := resp.addRequired_spec otagTimer
  unfold sessionTimers
  split
  · exact hrequired
  · split
    · split
      · exact hrequired
      · exact ⟨rfl, rfl, rfl⟩
    · exact ⟨rfl, rfl, rfl⟩

theorem addSupported_spec (w : World) (resp : SipMessage) :
    (w.addSupported resp).code = resp.code ∧
      (w.addSupported resp).cseqMethod = resp.cseqMethod ∧
      (w.addSupported resp).passedFor = resp.passedFor := by
  unfold addSupported
  split <;> exact ⟨rfl, rfl, rfl⟩

/-- A response for the INVITE goes the same way in both classes. -/
theorem respond_of_invite (w : World) {resp : SipMessage}
    (h : resp.getTransactionMethod = .invite) : w.respond S resp = w.respondInvite S resp := by
  unfold respond inviteDialogRespond
  rw [h]
  exact if_neg fun hand => hand.2.1 rfl

/-- A provisional response. -/
theorem attended_respondProvisional {w : World} (h : w.Posted) (hw : w.status.IsInvited)
    {resp : SipMessage} (hcode : 100 ≤ resp.code ∧ resp.code < 200)
    (hmethod : resp.cseqMethod = .invite) (hpassed : resp.passedFor = w.dlg.inviteTs)
    (hH : resp.code ≠ 100 ∧ w.wants100rel = true → w.inviteServers = heap ∧ ∀ rr ∈ w.responder,
      (sends (rr.respond resp).acts).map (fun resp => (rr.inviteTs, resp)) ⊆ H) :
    Attended S heap H w (w.respondProvisional S resp) := by
  obtain ⟨r, t, invite, hts, hget, -, -⟩ := h.invited hw
  rw [hts] at hpassed
  unfold respondProvisional
  extract_lets w₁
  have h₁ : Spares w w₁ := by
    unfold w₁
    split
    · exact spares_updateDialogInfo ..
    · exact .refl w
  have hw₁ : w₁.status = w.status ∧ w₁.dlg.inviteTs = w.dlg.inviteTs ∧
      w₁.wants100rel = w.wants100rel ∧ w₁.responder = w.responder ∧
      w₁.inviteServers = w.inviteServers := by
    unfold w₁
    split <;> exact ⟨rfl, rfl, rfl, rfl, rfl⟩
  obtain ⟨hstatus, hts₁, hwants, hresponder, hservers⟩ := hw₁
  rw [hwants]
  rw [← hts₁] at hts
  rw [← hservers] at hget hH
  rw [← hstatus] at hw
  refine .head (.spares h₁) ?_
  split
  · next hreliable =>
    obtain ⟨rr, hrr⟩ : ∃ rr, w₁.responder = some rr := by
      unfold responder
      rw [hts]
      cases w₁.dlg.reliableResponder with
      | some rr => exact ⟨rr, rfl⟩
      | none => exact ⟨_, rfl⟩
    have hqueue : Attended S heap H w₁ (w₁.setResponder (rr.enqueue resp)) :=
      .single (.queues hw hts hrr hcode hmethod hpassed)
    obtain ⟨hheap, hrelays⟩ := hH hreliable
    have hsends := hrelays rr (hresponder ▸ hrr)
    unfold ReliableProvisionalResponder.respond at hsends
    rw [respondReliably_of_responder hrr]
    split
    · next hidle =>
      rw [if_pos hidle] at hsends
      have hset : (w₁.setResponder (rr.enqueue resp)).dlg.reliableResponder =
          some (rr.enqueue resp) := rfl
      exact hqueue.trans (attended_follow hset (rr.enqueue resp).fits_sendNextResponse hheap hsends)
    · exact hqueue
  · have hcode' : 100 ≤ ({ resp with connectionId := t.connectionId } : SipMessage).code ∧
        ({ resp with connectionId := t.connectionId } : SipMessage).code < 200 := hcode
    rw [hts, onInviteServer_of_get hget]
    exact .single (.rings hw hts hget hcode' hpassed (t.responds_respondWith resp))

/-- A 2xx. -/
theorem attended_respondSuccess {w : World} (h : w.Posted) (hw : w.status.IsInvited)
    {resp : SipMessage} (hcode : 200 ≤ resp.code ∧ resp.code < 300)
    (hpassed : resp.passedFor = w.dlg.inviteTs) :
    Attended S heap H w (w.respondSuccess S resp) := by
  obtain ⟨r, t, invite, hts, hget, hreq, -⟩ := h.invited hw
  rw [hts] at hpassed
  unfold respondSuccess
  extract_lets w₁ conn w₂
  have hget₁ : w₁.inviteServers.get r = some t := hget
  have hts₁ : w₁.dlg.inviteTs = some r := hts
  have hw₂ : w₂ = (w₁.setInviteServer r t.terminate.1 t.terminate.2).terminateResponder := by
    unfold w₂
    rw [hts₁, onInviteServer_of_get hget₁]
  rw [hw₂]
  have hreq₂ : ((w₁.setInviteServer r t.terminate.1 t.terminate.2).terminateResponder).dlg.inviteReq =
      some invite := hreq
  rw [hreq₂]
  obtain ⟨hcode', -, hpassed'⟩ := sessionTimers_spec (S := S)
    ((w₁.setInviteServer r t.terminate.1 t.terminate.2).terminateResponder).dlg.info invite resp
  exact .single (.succeeds hw hts hget hreq (hcode'.symm ▸ hcode) (hpassed'.trans hpassed)
    t.terminates_terminate)

/-- Any other response. -/
theorem attended_respondFailure {w : World} (h : w.Posted) (hw : w.status.IsInvited)
    {resp : SipMessage} (hcode : resp.code < 100 ∨ 300 ≤ resp.code)
    (hpassed : resp.passedFor = w.dlg.inviteTs) :
    Attended S heap H w (w.respondFailure resp) := by
  obtain ⟨r, t, invite, hts, hget, -, -⟩ := h.invited hw
  rw [hts] at hpassed
  have hget₁ : (w.changeStatus
      (if w.status = .invited then .refused else .reRefused)).inviteServers.get r = some t := hget
  have hcode' : ({ resp with connectionId := t.connectionId } : SipMessage).code < 100 ∨
      300 ≤ ({ resp with connectionId := t.connectionId } : SipMessage).code := hcode
  unfold respondFailure
  rw [hts, onInviteServer_of_get hget₁]
  exact .single (.fails hw hts hget hcode' hpassed (t.responds_respondWith resp))

theorem attended_respondInvite {w : World} (h : w.Posted) {resp : SipMessage}
    (hmethod : resp.cseqMethod = .invite)
    (hH : w.GoesReliably resp → w.inviteServers = heap ∧ w.relays resp ⊆ H) :
    Attended S heap H w (w.respondInvite S resp) := by
  unfold respondInvite
  split
  · next hw =>
    extract_lets resp₁ w₁
    split
    · next hcode =>
      refine attended_respondProvisional h hw hcode hmethod rfl fun hreliable => ?_
      have hcode₁ : 100 ≤ resp.code ∧ resp.code < 200 := hcode
      have hne : resp.code ≠ 100 := hreliable.1
      have hgoes : w.GoesReliably resp := ⟨hmethod, hw, ⟨by omega, hcode₁.2⟩, hreliable.2⟩
      obtain ⟨hheap, hrelays⟩ := hH hgoes
      refine ⟨hheap, fun rr hrr => ?_⟩
      unfold relays at hrelays
      rw [if_pos hgoes, Option.mem_def.mp hrr] at hrelays
      simpa using hrelays
    · next hcode =>
      have h₁ : Spares w w₁ := by
        unfold w₁
        split
        · exact spares_updateDialogInfo ..
        · exact .refl w
      have hsame : w₁.status = w.status ∧ w₁.dlg.inviteTs = w.dlg.inviteTs := by
        unfold w₁
        split <;> exact ⟨rfl, rfl⟩
      have hposted := h.of_spares h₁
      rw [← hsame.1] at hw
      have hpassed : resp₁.passedFor = w₁.dlg.inviteTs := hsame.2.symm
      refine .head (.spares h₁) ?_
      split
      · next hcode' =>
        obtain ⟨hcode₁, -, hpassed₁⟩ := w₁.addSupported_spec resp₁
        exact attended_respondSuccess hposted hw (hcode₁.symm ▸ hcode') (hpassed₁.trans hpassed)
      · next hcode' => exact attended_respondFailure hposted hw (by omega) hpassed
  · exact .refl

/-- **A response goes to the transaction it belongs to, piece by piece.** -/
theorem attended_respond {w : World} (h : w.Posted) {resp : SipMessage}
    (hH : w.GoesReliably resp → w.inviteServers = heap ∧ w.relays resp ⊆ H) :
    Attended S heap H w (w.respond S resp) := by
  by_cases hmethod : resp.cseqMethod = .invite
  · rw [respond_of_invite w hmethod]
    exact attended_respondInvite h hmethod hH
  · exact attended_of_spares (spares_respond (fun _ hm => absurd hm hmethod) (.inl hmethod))

/-- A response that the responder does not get. -/
theorem attended_respond_of_code {w : World} (h : w.Posted) {resp : SipMessage}
    (hcode : 200 ≤ resp.code) : Attended S heap H w (w.respond S resp) := by
  refine attended_respond h fun hgoes => ?_
  have hlt := hgoes.2.2.1.2
  omega

/-! ## Messages for the dialog -/

theorem attended_onReceivedInvite {w : World} (h : w.Posted) (m : SipMessage) :
    Attended S heap H w (w.onReceivedInvite S m) := by
  have hopen : Attended S heap H w ((w.observe (.processed m)).opened S m) :=
    (Relation.ReflTransGen.single (.takes w m)).tail (.opens _ m)
  have hposted := hopen.posted h
  unfold onReceivedInvite
  extract_lets r w₁ w₂ w₃ w₄ w₅
  have hw₄ : w₄ = (w.observe (.processed m)).opened S m := rfl
  rw [← hw₄] at hopen hposted
  split
  · next resp hresp =>
    refine hopen.trans (attended_respond_of_code hposted ?_)
    rw [code_processInviteMessage hresp]
    decide
  · have hinvited : w₄.status.IsInvited := by
      show (if w.status = .init then Status.invited else .reInvited).IsInvited
      split <;> decide
    refine hopen.trans (.head (.startsCancel hinvited r m) (attended_of_spares ?_))
    split <;> exact spares_fire ..

theorem attended_onReceivedAck (w : World) (m : SipMessage) :
    Attended S heap H w (w.onReceivedAck m) := by
  unfold onReceivedAck
  split
  · extract_lets w₁ w₂ w₃
    have h₁ : Spares w w₁ := spares_changeStatus w (by decide)
    have h₂ : Attended S heap H w₁ w₂ := by
      rcases onAckServer_cases w₁ w₁.dlg.ackTs (·.terminate) with hsame | ⟨k, t, -, hget, heq⟩
      · show Attended S heap H w₁ (w₁.onAckServer w₁.dlg.ackTs (·.terminate))
        rw [hsame]
      · show Attended S heap H w₁ (w₁.onAckServer w₁.dlg.ackTs (·.terminate))
        rw [heq]
        exact .single (.acks hget t.continues_terminate)
    have h₃ : Spares w₂ w₃ := spares_onCancelServer _ _ keepsUnpassed_terminate
    exact .head (.spares h₁) (h₂.tail (.spares
      (h₃.trans ((spares_suspend ..).trans (spares_fire ..)))))
  · exact .refl

theorem attended_onReceivedAltRequest {w : World} (h : w.Posted) (m : SipMessage) :
    Attended S heap H w (w.onReceivedAltRequest S m) := by
  unfold onReceivedAltRequest
  extract_lets w₁ _ w₂ w₃
  have h₁ : Attended S heap H w w₁ := .single (.takes w m)
  have h₂ : Spares w₁ w₂ := by
    have hset : Spares w₁ { w₁ with
        dlg.transactions :=
          Function.update w₁.dlg.transactions (.transactionServer m) (some w₁.servers.next) } :=
      spares_of_dlg rfl rfl rfl rfl rfl (Int.le_refl _) (·.ackReq)
    exact hset.trans (spares_startServer ..)
  have hchain : Attended S heap H w w₂ := h₁.tail (.spares h₂)
  split
  · split
    · exact hchain.tail (.spares (spares_fire ..))
    · exact hchain
  · have hrespond : Attended S heap H w w₃ :=
      hchain.trans (attended_respond_of_code (hchain.posted h) (by simp))
    split
    · exact hrespond.tail (.spares (spares_fire ..))
    · exact hrespond
  · exact hchain.tail (.spares (spares_fire ..))

/-- A message for the dialog. -/
theorem attended_hears {w w' : World} {m : SipMessage} (h : w.Posted) (hh : Hears S w m w')
    (hheap : w.inviteServers = heap)
    (hH : m.requestMethod = some .prack → w.tooLate m = false → sessionTooShort S m = false →
      w.relayed (·.processPrack m) ⊆ H) : Attended S heap H w w' := by
  cases hh with
  | spares hs => exact attended_of_spares hs
  | invite => exact attended_onReceivedInvite h m
  | ack => exact attended_onReceivedAck w m
  | prack hm hfresh hlong => exact attended_processPrack hheap (hH hm hfresh hlong)
  | takes hm hmethod hfresh hs => exact (Relation.ReflTransGen.single (.takes w m)).tail (.spares hs)
  | extended => exact attended_onReceivedAltRequest h m

/-! ## Callbacks of the servers -/

/-- A CANCEL, after its 200. -/
theorem attended_onTransRequestCancel {w : World} (h : w.Posted) (m : SipMessage) :
    Attended S heap H w (w.onTransRequestCancel S m) := by
  unfold onTransRequestCancel
  split
  · split
    · exact .refl
    · exact (attended_respond_of_code h (by simp)).tail (.spares (spares_fire ..))
  · exact .refl

/-- The INVITE that the dialog was waiting for, once its server has it. -/
theorem attended_onTransRequestInvite {w : World} (h : w.Posted) {r : ℕ}
    {t : InviteTransactionServer} {m : SipMessage} (hget : w.inviteServers.get r = some t)
    (ht : t.Pends m) : Attended S heap H w (w.onTransRequestInvite S m) := by
  unfold onTransRequestInvite
  split
  · next hw =>
    extract_lets w₁ w₂
    have hchain : Attended S heap H w w₂ :=
      (Relation.ReflTransGen.single (.takes w m)).tail (.accepts hw hget ht)
    split
    · next resp hresp =>
      refine hchain.trans (attended_respond_of_code (hchain.posted h) ?_)
      rw [code_processInviteMessage hresp]
      decide
    · exact hchain.tail (.spares (spares_fire ..))
  · exact .refl

theorem spares_onTransFailureAck (w : World) : Spares w w.onTransFailureAck := by
  unfold onTransFailureAck
  split
  · extract_lets w₁
    have h₁ : Spares w w₁ := spares_onCancelServer _ _ keepsUnpassed_terminate
    split
    · exact h₁.trans (spares_changeStatus _ (by decide))
    · exact h₁.trans ((spares_changeStatus _ (by decide)).trans (spares_fire ..))
  · exact .refl w

theorem spares_onTransAckTimeout (w : World) : Spares w w.onTransAckTimeout := by
  unfold onTransAckTimeout
  split
  · exact (spares_changeStatus _ (by decide)).trans (spares_fire ..)
  · exact .refl w

/-- A message for an invite server. -/
theorem attended_inviteServerHears {w : World} (h : w.Posted) {r : ℕ}
    {t : InviteTransactionServer} (hget : w.inviteServers.get r = some t) (m : SipMessage) :
    Attended S heap H w (w.inviteServerDid S r (t.onReceivedMessage S m)) := by
  unfold inviteServerDid
  by_cases hbegins : m.is .invite = true ∧ t.status = .waiting
  · obtain ⟨hm, hw⟩ := hbegins
    rw [InviteTransactionServer.onReceivedMessage_of_waiting S hm hw]
    have hbegin := InviteTransactionServer.begins_begin S t m
    have hset : Attended S heap H w (w.setInviteServer r (t.begin S m).1 (t.begin S m).2) :=
      .single (.begins hget hw hbegin)
    dsimp only
    split
    · exact hset
    · next c hc =>
      split at hc
      · next hlistener =>
        cases hc
        have hget' : (w.setInviteServer r (t.begin S m).1 (t.begin S m).2).inviteServers.get r =
            some (t.begin S m).1 := Heap.get_put_self ..
        show Attended S heap H w
          ((w.setInviteServer r (t.begin S m).1 (t.begin S m).2).onTransRequest S (.inviteServer r) m)
        unfold onTransRequest
        split
        · have hpends := hbegin.pends hlistener
          exact hset.trans (attended_onTransRequestInvite (hset.posted h) hget' hpends)
        · dsimp only
          rw [onInviteServer_of_get hget']
          have hmisled : Attends S heap H w
              ((w.setInviteServer r (t.begin S m).1 (t.begin S m).2).setInviteServer r
                ((t.begin S m).1.respondWith (createResponse S m 200 none)).1
                ((t.begin S m).1.respondWith (createResponse S m 200 none)).2) :=
            .misled hget hw hbegin rfl rfl
              ((t.begin S m).1.responds_respondWith (createResponse S m 200 none))
          exact .head hmisled (attended_onTransRequestCancel (hmisled.posted h) m)
        · exact hset
      · cases hc
  · have hset : Attended S heap H w (w.putInviteServer r (t.onReceivedMessage S m)) :=
      .head (.continues hget (InviteTransactionServer.continues_onReceivedMessage S hbegins))
        (attended_of_spares (spares_stack ..))
    split
    · exact hset
    · next c hc =>
      rw [InviteTransactionServer.callback_onReceivedMessage hbegins hc]
      exact hset.tail (.spares (spares_onTransFailureAck _))

/-- A timer of an invite server. -/
theorem attended_inviteServerExpires {w : World} {r : ℕ} {t : InviteTransactionServer}
    (hget : w.inviteServers.get r = some t) (n : TimerName) :
    Attended S heap H w (w.inviteServerDid S r (t.expire n)) := by
  unfold inviteServerDid
  rw [t.callback_expire n]
  exact .head (.continues hget (t.continues_expire n)) (attended_of_spares (spares_stack ..))

theorem attended_ackServerDid {w : World} {k : ℕ} {t : AckTransactionServer}
    (hget : w.ackServers.get k = some t)
    {o : Outcome AckTransactionServer AckServerCallback ServerRest}
    (ho : t.Continues o.self o.calls) : Attended S heap H w (w.ackServerDid k o) := by
  have hset : Attended S heap H w (w.putAckServer k o) := .single (.acks hget ho)
  unfold ackServerDid
  split
  · exact hset
  · exact hset.tail (.spares (spares_onTransAckTimeout _))

/-- A generic server or a cancel server calls back: it is a CANCEL, or the dialog does not
wait. -/
theorem requested_cases {w w₁ : World} (h : w.Posted) (hs : Spares w w₁) {ts : Agent}
    {m : SipMessage} (hts : w.WasListening ts) :
    Spares w (w₁.onTransRequest S ts m) ∨ ∃ w₂, Spares w w₂ ∧
      w₁.onTransRequest S ts m = w₂.onTransRequestCancel S m := by
  unfold onTransRequest
  split
  · have hidle : w₁.onTransRequestInvite S m = w₁ := by
      unfold onTransRequestInvite
      refine if_neg fun hw₁ => ?_
      have hw : w.status = .waiting := by
        rcases hs.status with heq | hnot
        · rw [← heq]
          exact hw₁
        · rw [hw₁] at hnot
          exact absurd (.inr (.inl rfl)) hnot
      cases ts with
      | server r =>
        obtain ⟨t, hget, ht⟩ := hts
        exact h.noneListens r t hget ht
      | cancelServer r => exact hts (h.vacant (.inr hw) r)
      | _ => exact hts
    rw [hidle]
    exact .inl hs
  · extract_lets resp w₂
    have hresp : resp.Unpassed := unpassed_createResponse S m 200 none
    have h₂ : Spares w₁ w₂ := by
      unfold w₂
      cases ts with
      | server r => exact spares_onServer _ _ (keepsUnpassed_respondWith hresp)
      | cancelServer r => exact spares_onCancelServer _ _ (keepsUnpassed_respondWith hresp)
      | _ => exact hts.elim
    exact .inr ⟨w₂, hs.trans h₂, rfl⟩
  · exact .inl hs

theorem attended_requested {w w₁ : World} (h : w.Posted) (hs : Spares w w₁) {ts : Agent}
    {m : SipMessage} (hts : w.WasListening ts) :
    Attended S heap H w (w₁.onTransRequest S ts m) := by
  rcases requested_cases (S := S) h hs hts with h₁ | ⟨w₂, h₂, heq⟩
  · exact attended_of_spares h₁
  · rw [heq]
    exact (attended_of_spares h₂).trans (attended_onTransRequestCancel (h.of_spares h₂) m)

/-! ## Calls of the user -/

/-- A server is terminated that the dialog does not need. -/
theorem attended_ends {w : World} (hw : w.status.IsWaiting ∨ w.status = .close) :
    Attended S heap H w (w.onInviteServer w.dlg.inviteTs (·.terminate)) := by
  rcases onInviteServer_cases w w.dlg.inviteTs (·.terminate) with hsame | ⟨r, t, -, hget, heq⟩
  · rw [hsame]
  · rw [heq]
    exact .single (.ends hw hget t.terminates_terminate)

theorem attended_terminate (w : World) : Attended S heap H w w.terminate := by
  unfold terminate
  split
  · exact .refl
  · extract_lets w₁ w₂ w₃ w₄ w₅ w₆ w₇
    have h₂ : Spares w w₂ :=
      (spares_changeStatus w (by decide)).trans (spares_terminateInviteClient ..)
    have h₃ : Attended S heap H w₂ w₃ := attended_ends (.inr rfl)
    have h₅ : Spares w₃ w₅ := (spares_onCancelServer _ _ keepsUnpassed_terminate).trans
      (spares_onServer _ _ keepsUnpassed_terminate)
    have h₆ : Attended S heap H w₅ w₆ := by
      show Attended S heap H w₅ (w₅.onAckServer w₅.dlg.ackTs (·.terminate))
      rcases onAckServer_cases w₅ w₅.dlg.ackTs (·.terminate) with hsame | ⟨k, t, -, hget, heq⟩
      · rw [hsame]
      · rw [heq]
        exact .single (.acks hget t.continues_terminate)
    have h₇ : Spares w₆ w₇ := spares_onServer _ _ keepsUnpassed_terminate
    have hclose : w₇.status = .close := rfl
    have hchain : Attended S heap H w w₇ :=
      ((((attended_of_spares h₂).trans h₃).tail (.spares h₅)).trans h₆).tail (.spares h₇)
    exact (hchain.tail (.forgets hclose)).tail (.spares (spares_fire ..))

theorem attended_asks {w w' : World} {a : Api} (h : w.Posted) (ha : Asks S w a w')
    (hheap : w.inviteServers = heap) (hH : (w.passed S a).toList.flatMap w.relays ⊆ H) :
    Attended S heap H w w' := by
  cases ha with
  | spares hs => exact attended_of_spares hs
  | responds hpassed =>
    rw [hpassed] at hH
    refine attended_respond h fun _ => ⟨hheap, ?_⟩
    simpa using hH
  | answers hcode => exact attended_respond_of_code h hcode
  | listens hw => exact .single (.listens hw)
  | abandons hw => exact attended_ends (.inl hw)
  | terminates => exact attended_terminate w

/-! ## One event -/

theorem attended_works {w w' : World} {e : Event} (h : w.Posted) (hw : Works S w e w') :
    Attended S w.inviteServers (w.handed S e) w w' := by
  cases hw with
  | spares hs => exact attended_of_spares hs
  | @hears m _ hidle hl hh =>
    have hs : Spares w (w.observe (.received .dialog m)) := spares_observe w trivial
    refine .head (.spares hs) (attended_hears (h.of_spares hs) hh rfl fun hm hfresh hlong => ?_)
    have hhanded : w.handed S (.recv m) = w.relayed (·.processPrack m) :=
      if_pos ⟨hidle, hl, hm, hfresh, hlong⟩
    rw [hhanded]
    exact List.Subset.refl _
  | @inviteServerHears m r t hidle hl hget =>
    have hs : Spares w (w.observe (.received (.inviteServer r) m)) := spares_observe w trivial
    exact .head (.spares hs) (attended_inviteServerHears (h.of_spares hs) hget m)
  | inviteServerExpires hidle hget => exact attended_inviteServerExpires hget _
  | @ackServerHears m r t hidle hl hget =>
    have hs : Spares w (w.observe (.received (.ackServer r) m)) := spares_observe w trivial
    have hget₁ : (w.observe (.received (.ackServer r) m)).ackServers.get r = some t := hget
    exact .head (.spares hs) (attended_ackServerDid hget₁ (t.continues_onReceivedMessage m))
  | @ackServerExpires r n t hidle hget => exact attended_ackServerDid hget (t.continues_expire n)
  | requested hidle hs hts => exact attended_requested h hs hts
  | @responderTimeout n hidle =>
    have hhanded : w.handed S (.responderTimeout n) = w.relayed (·.processTimeout n) := if_pos hidle
    rw [hhanded]
    exact attended_processTimeout rfl (List.Subset.refl _)
  | @asks a _ huser ha =>
    have hhanded : w.handed S (.api a) = (w.passed S a).toList.flatMap w.relays := if_pos huser
    rw [hhanded]
    exact attended_asks h ha rfl (List.Subset.refl _)
  | @goesOn c rest hstack hc =>
    have hs : Spares w { w with stack := rest } := spares_stack w rest
    unfold handed
    rw [hstack]
    refine .head (.spares hs) ?_
    cases c with
    | inviteServer r k =>
      show Attended S _ _ _ (World.onInviteServer _ (some r) fun t => (t.resume k, []))
      rcases onInviteServer_cases { w with stack := rest } (some r) fun t => (t.resume k, []) with
        hsame | ⟨s, t, -, hget, heq⟩
      · rw [hsame]
      · rw [heq]
        exact .single (.continues hget (t.continues_resume k))
    | afterPrack => exact attended_resume (k := .afterPrack) rfl rfl (List.Subset.refl _)
    | afterResponderTimeout => exact attended_resume (k := .afterTimeout) rfl rfl (List.Subset.refl _)
    | _ => exact hc.elim

/-- **The chain of an event.** -/
theorem attended_step {w : World} (h : w.Posted) (e : Event) :
    Attended S w.inviteServers (w.handed S e) w (w.step S e) :=
  attended_works h (works_step h.tidy e)

theorem posted_init (S : SipStack) : (World.init S).Posted := by
  refine ⟨⟨?_, ?_, ?_, ?_, ?_⟩, ?_, fun _ _ => rfl, ?_, fun _ _ => rfl, ?_, ?_⟩
  · exact fun _ h => nomatch h
  · exact fun _ _ h => nomatch h
  · exact fun _ _ h => nomatch h
  · exact fun _ _ h => nomatch h
  · exact fun _ _ h => nomatch h
  · exact fun _ _ h => nomatch h
  · exact fun h => nomatch h
  · rintro (h | h) <;> cases h
  · exact fun _ h => nomatch h

/-- An INVITE that was already received is handled by the same pieces. -/
theorem Start.attended {w : World} (hw : Start S w) :
    Attended S .empty [] (World.init S) w := by
  cases hw with
  | init => exact .refl
  | ofInvite invite =>
    have hposted := posted_init S
    refine attended_hears hposted (hears_onReceivedMessage hposted.tidy invite.1) rfl ?_
    intro hm
    rw [invite.2.1] at hm
    cases hm

theorem Start.posted {w : World} (hw : Start S w) : w.Posted :=
  hw.attended.posted (posted_init S)

theorem posted_step {w : World} (h : w.Posted) (e : Event) : (w.step S e).Posted :=
  (attended_step h e).posted h

end World
end SoftPhone
