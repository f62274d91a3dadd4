import Mathlib.Logic.Relation
import SoftPhone.Dialog.Responder
import SoftPhone.Dialog.Works
import SoftPhone.Transaction.Alone

/-!
# Work on an INVITE, piece by piece

`Works` names the handlers that touch what answers an INVITE.  Here they are taken apart:
`Attends S heap H w w'` is one piece of such work, with what is known when it is done, and
an event is a chain of pieces.

An invariant of the server side is shown for every piece, once.  The first one is
`Posted`, and the chain depends on it: a dialog that is asked to answer an INVITE has a
pending server for it.

The reliable responder is the one that hands responses around on its own.  So the relation
carries the responses `H` that it hands over in the event (`handed`) and the invite servers
`heap` that it finds.
-/

namespace SoftPhone

open Machine

/-- The server has the INVITE, is still pending and has a listener. -/
structure InviteTransactionServer.Pends (t : InviteTransactionServer) (invite : SipMessage) :
    Prop where
  status : t.status.isPending = true
  request : t.request = some invite
  transactionId : t.transactionId = .transactionServer invite
  listener : t.listener = true

/-- A server that has a listener and begins with an INVITE. -/
theorem InviteTransactionServer.Begins.pends {t t' : InviteTransactionServer} {invite : SipMessage}
    {cs : List ProviderCall} (h : t.Begins invite t' cs) (hlistener : t.listener = true) :
    t'.Pends invite := by
  refine ⟨?_, h.request, h.transactionId, h.listener.trans hlistener⟩
  rcases h.status with heq | heq <;> rw [heq] <;> rfl

namespace World

variable {S : SipStack}

/-! ## What the responder hands over -/

/-- The responses that the responder hands to its server in the method `f`. -/
def relayed (w : World)
    (f : ReliableProvisionalResponder → ReliableProvisionalResponder.Done) :
    List (ℕ × SipMessage) :=
  match w.dlg.reliableResponder with
  | none => []
  | some rr => (sends (f rr).acts).map fun resp => (rr.inviteTs, resp)

/-- The responder, or a new one. -/
def responder (w : World) : Option ReliableProvisionalResponder :=
  w.dlg.reliableResponder <|>
    w.dlg.inviteTs.map fun r => ({ inviteTs := r } : ReliableProvisionalResponder)

/-- A provisional response to the INVITE is passed to the responder. -/
def GoesReliably (w : World) (resp : SipMessage) : Prop :=
  resp.getTransactionMethod = .invite ∧ w.status.IsInvited ∧
    (100 < resp.code ∧ resp.code < 200) ∧ w.wants100rel = true

instance (w : World) (resp : SipMessage) : Decidable (w.GoesReliably resp) :=
  inferInstanceAs (Decidable (_ ∧ _ ∧ _ ∧ _))

/-- The same when `resp` is passed to `respond`. -/
def relays (w : World) (resp : SipMessage) : List (ℕ × SipMessage) :=
  if w.GoesReliably resp then
    w.responder.toList.flatMap fun rr =>
      (sends (rr.respond { resp with passedFor := w.dlg.inviteTs }).acts).map fun resp =>
        (rr.inviteTs, resp)
  else []

/-- The responses that the responder hands to its server in the event. -/
def handed (S : SipStack) (w : World) : Event → List (ℕ × SipMessage)
  | .recv m =>
    if w.stack = [] ∧ w.provider.getListener m = some .dialog ∧
        m.requestMethod = some .prack ∧ w.tooLate m = false ∧ sessionTooShort S m = false then
      w.relayed (·.processPrack m)
    else []
  | .timeout _ _ => []
  | .responderTimeout n => if w.stack = [] then w.relayed (·.processTimeout n) else []
  | .api a => if w.AtUser then (w.passed S a).toList.flatMap w.relays else []
  | .ret =>
    match w.stack with
    | .code .afterPrack :: _ => w.relayed (·.resume .afterPrack)
    | .code .afterResponderTimeout :: _ => w.relayed (·.resume .afterTimeout)
    | _ => []

/-! ## The pieces -/

/-- The invite server `r` becomes `t` and calls the provider. -/
def setInviteServer (w : World) (r : ℕ) (t : InviteTransactionServer)
    (cs : List ProviderCall) : World :=
  { w with
    inviteServers := w.inviteServers.put r t
    provider := w.provider.calls (.inviteServer r) cs }

/-- A new server is started as one that is put in the next place. -/
theorem startInviteServer_eq (S : SipStack) (w : World) (m : SipMessage) :
    w.startInviteServer S m =
      setInviteServer { w with inviteServers := w.inviteServers.new (.ofInvite S m true) }
        w.inviteServers.next (InviteTransactionServer.new S m true).1
        (InviteTransactionServer.new S m true).2 := by
  unfold setInviteServer
  dsimp only
  rw [Heap.put_new]
  rfl

/-- The ACK server `k` becomes `t` and calls the provider. -/
def setAckServer (w : World) (k : ℕ) (t : AckTransactionServer) (cs : List ProviderCall) :
    World :=
  { w with
    ackServers := w.ackServers.put k t
    provider := w.provider.calls (.ackServer k) cs }

/-- An INVITE is taken, and a server is started for it. -/
def opened (S : SipStack) (w : World) (m : SipMessage) : World :=
  ((((w.changeStatus (if w.status = .init then .invited else .reInvited)).setInviteReq
    m).updateDialogInfo false m).setInviteTs w.inviteServers.next).startInviteServer S m

/-- The dialog takes the INVITE that it was waiting for. -/
def accepted (w : World) (m : SipMessage) : World :=
  ((w.changeStatus .invited).setInviteReq m).updateDialogInfo false m

/-- One piece of work on an INVITE. -/
inductive Attends (S : SipStack) (heap : Heap InviteTransactionServer)
    (H : List (ℕ × SipMessage)) : World → World → Prop where
  | spares {w w' : World} (h : Spares w w') : Attends S heap H w w'
  | takes (w : World) (m : SipMessage) : Attends S heap H w (w.observe (.processed m))
  | opens (w : World) (m : SipMessage) : Attends S heap H w (w.opened S m)
  | startsCancel {w : World} (hw : w.status.IsInvited) (r : ℕ) (m : SipMessage) :
      Attends S heap H w ((w.setCancelTs r).startCancelServer r m)
  /-- The responder changes, but gets no new response. -/
  | goesOn {w : World} {rr rr' : ReliableProvisionalResponder}
      (hrr : w.dlg.reliableResponder = some rr) (hts : rr'.inviteTs = rr.inviteTs)
      (hresp : rr'.responses ⊆ rr.responses) : Attends S heap H w (w.setResponder rr')
  /-- The responder gets a response for the pending INVITE. -/
  | queues {w : World} {r : ℕ} {rr : ReliableProvisionalResponder} {resp : SipMessage}
      (hw : w.status.IsInvited) (hts : w.dlg.inviteTs = some r) (hrr : w.responder = some rr)
      (hcode : 100 ≤ resp.code ∧ resp.code < 200) (hmethod : resp.cseqMethod = .invite)
      (hpassed : resp.passedFor = some r) :
      Attends S heap H w (w.setResponder (rr.enqueue resp))
  /-- The responder hands a response over. -/
  | hands {w : World} {rr : ReliableProvisionalResponder} {t t' : InviteTransactionServer}
      {cs : List ProviderCall} {resp : SipMessage} (hrr : w.dlg.reliableResponder = some rr)
      (hresp : resp ∈ rr.responses) (hheap : w.inviteServers = heap)
      (hH : (rr.inviteTs, resp) ∈ H) (hget : w.inviteServers.get rr.inviteTs = some t)
      (h : t.Responds { resp with connectionId := t.connectionId } t' cs) :
      Attends S heap H w (w.setInviteServer rr.inviteTs t' cs)
  /-- A provisional response goes to the pending server. -/
  | rings {w : World} {r : ℕ} {t t' : InviteTransactionServer} {cs : List ProviderCall}
      {resp : SipMessage} (hw : w.status.IsInvited) (hts : w.dlg.inviteTs = some r)
      (hget : w.inviteServers.get r = some t) (hcode : 100 ≤ resp.code ∧ resp.code < 200)
      (hpassed : resp.passedFor = some r) (h : t.Responds resp t' cs) :
      Attends S heap H w (w.setInviteServer r t' cs)
  /-- A response other than 1xx and 2xx goes to the pending server. -/
  | fails {w : World} {r : ℕ} {t t' : InviteTransactionServer} {cs : List ProviderCall}
      {resp : SipMessage} (hw : w.status.IsInvited) (hts : w.dlg.inviteTs = some r)
      (hget : w.inviteServers.get r = some t) (hcode : resp.code < 100 ∨ 300 ≤ resp.code)
      (hpassed : resp.passedFor = some r) (h : t.Responds resp t' cs) :
      Attends S heap H w ((w.changeStatus
        (if w.status = .invited then .refused else .reRefused)).setInviteServer r t' cs)
  /-- A 2xx goes to an ACK server. -/
  | succeeds {w : World} {r : ℕ} {t t' : InviteTransactionServer} {cs : List ProviderCall}
      {invite : SipMessage} {conn : Option ConnectionId} {p : DialogInfo × SipMessage}
      (hw : w.status.IsInvited) (hts : w.dlg.inviteTs = some r)
      (hget : w.inviteServers.get r = some t) (hreq : w.dlg.inviteReq = some invite)
      (hcode : 200 ≤ p.2.code ∧ p.2.code < 300) (hpassed : p.2.passedFor = some r)
      (h : t.Terminates t' cs) :
      Attends S heap H w ((((w.changeStatus
        (if w.status = .invited then .accepted else .reAccepted)).setInviteServer r t'
          cs).terminateResponder).startDialogAckServer conn invite p)
  /-- An invite server does something by itself. -/
  | continues {w : World} {r : ℕ} {t t' : InviteTransactionServer} {cs : List ProviderCall}
      (hget : w.inviteServers.get r = some t) (h : t.Continues t' cs) :
      Attends S heap H w (w.setInviteServer r t' cs)
  /-- A listening server gets an INVITE. -/
  | begins {w : World} {r : ℕ} {t t' : InviteTransactionServer} {m : SipMessage}
      {cs : List ProviderCall} (hget : w.inviteServers.get r = some t)
      (hwaiting : t.status = .waiting) (h : t.Begins m t' cs) :
      Attends S heap H w (w.setInviteServer r t' cs)
  /-- The dialog takes it. -/
  | accepts {w : World} {r : ℕ} {t : InviteTransactionServer} {m : SipMessage}
      (hw : w.status = .waiting) (hget : w.inviteServers.get r = some t) (h : t.Pends m) :
      Attends S heap H w (w.accepted m)
  /-- A listening server gets an INVITE that names CANCEL in its CSeq. -/
  | misled {w : World} {r : ℕ} {t t' t'' : InviteTransactionServer} {m resp : SipMessage}
      {cs cs' : List ProviderCall} (hget : w.inviteServers.get r = some t)
      (hwaiting : t.status = .waiting) (h : t.Begins m t' cs) (hcode : resp.code = 200)
      (hpassed : resp.passedFor = none) (h' : t'.Responds resp t'' cs') :
      Attends S heap H w ((w.setInviteServer r t' cs).setInviteServer r t'' cs')
  | listens {w : World} (hw : w.status = .init) : Attends S heap H w (w.listen S)
  /-- A server is terminated that the dialog does not need. -/
  | ends {w : World} {r : ℕ} {t t' : InviteTransactionServer} {cs : List ProviderCall}
      (hw : w.status.IsWaiting ∨ w.status = .close) (hget : w.inviteServers.get r = some t)
      (h : t.Terminates t' cs) : Attends S heap H w (w.setInviteServer r t' cs)
  | forgets {w : World} (hw : w.status = .close) :
      Attends S heap H w { w with dlg := w.dlg.forget }
  /-- An ACK server does something by itself. -/
  | acks {w : World} {k : ℕ} {t t' : AckTransactionServer} {cs : List ProviderCall}
      (hget : w.ackServers.get k = some t) (h : t.Continues t' cs) :
      Attends S heap H w (w.setAckServer k t' cs)

/-- A chain of pieces. -/
abbrev Attended (S : SipStack) (heap : Heap InviteTransactionServer)
    (H : List (ℕ × SipMessage)) : World → World → Prop :=
  Relation.ReflTransGen (Attends S heap H)

/-- An invariant of the pieces is one of the chain. -/
theorem Attended.induction {heap : Heap InviteTransactionServer} {H : List (ℕ × SipMessage)}
    {I : World → Prop} (hstep : ∀ w w', Attends S heap H w w' → I w → I w') {w w' : World}
    (h : Attended S heap H w w') (hw : I w) : I w' := by
  induction h with
  | refl => exact hw
  | tail _ hlast ih => exact hstep _ _ hlast ih

/-! ## A pending INVITE has a server -/

/-- A responder with responses is not new. -/
theorem responder_of_mem {w : World} {rr : ReliableProvisionalResponder}
    (h : w.responder = some rr) {resp : SipMessage} (hresp : resp ∈ rr.responses) :
    w.dlg.reliableResponder = some rr := by
  unfold responder at h
  cases hrr : w.dlg.reliableResponder with
  | some rr' =>
    rw [hrr] at h
    exact h
  | none =>
    rw [hrr] at h
    obtain ⟨r, -, rfl⟩ := Option.map_eq_some_iff.mp h
    cases hresp

/-- Where the servers of an INVITE are to be found. -/
structure Posted (w : World) : Prop where
  tidy : w.Tidy
  noneListens : w.NoneListens
  init : w.status = .init → ∀ r, w.inviteServers.get r = none
  waiting : w.status = .waiting → ∀ r t, w.inviteServers.get r = some t → w.dlg.inviteTs = some r
  vacant : w.status = .init ∨ w.status = .waiting → ∀ r, w.cancelServers.get r = none
  invited : w.status.IsInvited → ∃ r t invite, w.dlg.inviteTs = some r ∧
    w.inviteServers.get r = some t ∧ w.dlg.inviteReq = some invite ∧ t.Pends invite
  queued : ∀ rr ∈ w.dlg.reliableResponder, ∀ resp ∈ rr.responses,
    (100 ≤ resp.code ∧ resp.code < 200) ∧ resp.cseqMethod = .invite

namespace Posted

variable {w : World}

theorem of_spares {w' : World} (h : w.Posted) (hs : Spares w w') : w'.Posted := by
  have hback {s : Status} (hserving : s.IsServing) (hw' : w'.status = s) : w.status = s := by
    rcases hs.status with heq | hnot
    · rw [← heq]
      exact hw'
    · rw [hw'] at hnot
      exact absurd hserving hnot
  refine ⟨hs.tidy h.tidy, hs.noneListens h.noneListens, fun hw' => ?_, fun hw' => ?_,
    fun hw' r => ?_, fun hw' => ?_, hs.reliableResponder ▸ h.queued⟩
  · rw [hs.inviteServers]
    exact h.init (hback (.inl rfl) hw')
  · rw [hs.inviteServers, hs.inviteTs]
    exact h.waiting (hback (.inr (.inl rfl)) hw')
  · refine hs.cancelServers r (h.vacant ?_ r)
    rcases hw' with hw' | hw'
    · exact .inl (hback (.inl rfl) hw')
    · exact .inr (hback (.inr (.inl rfl)) hw')
  · have hserving : w'.status.IsServing := .inr (.inr (.inl hw'))
    have hstatus : w'.status = w.status := hs.status.resolve_right fun hnot => hnot hserving
    rw [hs.inviteTs, hs.inviteServers, hs.inviteReq.resolve_right fun hnot => hnot hserving]
    exact h.invited (hstatus ▸ hw')

/-- An invite server changes.  The pending one stays pending. -/
theorem setInviteServer (h : w.Posted) {r : ℕ} {t t' : InviteTransactionServer}
    (hget : w.inviteServers.get r = some t) (cs : List ProviderCall)
    (hkeep : w.status.IsInvited → w.dlg.inviteTs = some r → ∀ invite, t.Pends invite →
      t'.Pends invite) : (w.setInviteServer r t' cs).Posted := by
  refine ⟨h.tidy.congr rfl rfl rfl rfl rfl, h.noneListens, fun hw => ?_, fun hw s u hu => ?_,
    h.vacant, fun hw => ?_, h.queued⟩
  · rw [h.init hw r] at hget
    cases hget
  · have hu' : (w.inviteServers.put r t').get s = some u := hu
    rw [Heap.get_put] at hu'
    split at hu'
    · next hsr => rw [hsr]; exact h.waiting hw r t hget
    · exact h.waiting hw s u hu'
  · obtain ⟨s, u, invite, hts, hu, hreq, hpends⟩ := h.invited hw
    show ∃ r' u' invite, w.dlg.inviteTs = some r' ∧ (w.inviteServers.put r t').get r' = some u' ∧ _
    obtain ⟨u', hu', hpends'⟩ := Heap.exists_get_put (P := fun u => u.Pends invite) hget
      (fun hsr => hkeep hw (hsr ▸ hts) invite) ⟨u, hu, hpends⟩
    exact ⟨s, u', invite, hts, hu', hreq, hpends'⟩

/-- The state becomes one in which no INVITE is pending. -/
theorem changeStatus (h : w.Posted) {s : Status} (hinit : s ≠ .init) (hwaiting : s ≠ .waiting)
    (hinvited : ¬ s.IsInvited) : (w.changeStatus s).Posted :=
  ⟨h.tidy.congr rfl rfl rfl rfl rfl, h.noneListens, fun hw => absurd hw hinit,
    fun hw => absurd hw hwaiting, fun hw => (hw.elim hinit hwaiting).elim,
    fun hw => absurd hw hinvited, h.queued⟩

theorem setResponder (h : w.Posted) {rr : ReliableProvisionalResponder}
    (hqueued : ∀ resp ∈ rr.responses,
      (100 ≤ resp.code ∧ resp.code < 200) ∧ resp.cseqMethod = .invite) :
    (w.setResponder rr).Posted := by
  refine ⟨h.tidy.congr rfl rfl rfl rfl rfl, h.noneListens, h.init, h.waiting, h.vacant, h.invited,
    fun rr' hrr' => ?_⟩
  rw [← Option.some.inj hrr']
  exact hqueued

/-- A provisional response keeps a server pending. -/
theorem pends_responds {t t' : InviteTransactionServer} {resp : SipMessage}
    {cs : List ProviderCall} (hcode : 100 ≤ resp.code ∧ resp.code < 200)
    (h : t.Responds resp t' cs) {invite : SipMessage} (ht : t.Pends invite) : t'.Pends invite := by
  have hstatus : t'.status = .proceeding := by
    rw [h.status, InviteTransactionServer.responded, if_pos ht.status, if_pos hcode]
  refine ⟨by rw [hstatus]; rfl, h.request.trans ht.request, h.transactionId.trans ht.transactionId,
    (h.listener ?_).trans ht.listener⟩
  rw [hstatus]
  decide

/-- A pending server does not leave that state by itself. -/
theorem pends_continues {t t' : InviteTransactionServer} {cs : List ProviderCall}
    (h : t.Continues t' cs) {invite : SipMessage} (ht : t.Pends invite) : t'.Pends invite := by
  have hpending := ht.status
  rcases h.status with ⟨hstatus, hlistener⟩ | ⟨hstatus, -⟩
  · exact ⟨hstatus ▸ hpending, h.request.trans ht.request, h.transactionId.trans ht.transactionId,
      hlistener.trans ht.listener⟩
  · rcases hstatus with hstatus | hstatus <;> rw [hstatus] at hpending <;> cases hpending

/-- A new INVITE gets a new server. -/
theorem opened (h : w.Posted) (m : SipMessage) : (w.opened S m).Posted := by
  have hbegins := InviteTransactionServer.begins_new S m true
  have hstatus : (w.opened S m).status.IsInvited := by
    show (if w.status = .init then Status.invited else .reInvited).IsInvited
    split <;> decide
  refine ⟨h.tidy.congr rfl rfl rfl rfl rfl, h.noneListens, fun hw => ?_, fun hw => ?_,
    fun hw => ?_, fun _ => ?_, h.queued⟩
  · rw [hw] at hstatus
    exact absurd hstatus (by decide)
  · rw [hw] at hstatus
    exact absurd hstatus (by decide)
  · rcases hw with hw | hw <;> rw [hw] at hstatus <;> exact absurd hstatus (by decide)
  · refine ⟨w.inviteServers.next, _, m, rfl, Heap.get_new_self .., rfl, ?_, hbegins.request,
      hbegins.transactionId, hbegins.listener⟩
    rcases hbegins.status with heq | heq <;> rw [heq] <;> rfl

/-- A dialog that starts to listen has its only server. -/
theorem listen (h : w.Posted) (hw : w.status = .init) : (w.listen S).Posted := by
  unfold World.listen
  rw [if_pos hw]
  dsimp only
  have hget (s : ℕ) (t : InviteTransactionServer)
      (ht : (invoke (w.inviteServers.new (.newListening S true)) (some w.inviteServers.next)
        (·.listen)).1.get s = some t) : s = w.inviteServers.next := by
    by_contra hne
    rw [get_invoke, if_neg (fun heq => hne (Option.some.inj heq).symm), Heap.get_new, if_neg hne,
      h.init hw s] at ht
    cases ht
  refine ⟨h.tidy.congr rfl rfl rfl rfl rfl, h.noneListens, fun h => (nomatch h),
    fun _ s t ht => ?_, fun _ => h.vacant (.inl hw), fun h => (by rcases h with h | h <;> cases h),
    h.queued⟩
  show some w.inviteServers.next = some s
  rw [hget s t ht]

/-- The pending INVITE is not the one of a listening server. -/
theorem ne_inviteTs (h : w.Posted) {r : ℕ} {t : InviteTransactionServer}
    (hget : w.inviteServers.get r = some t) (ht : t.status = .waiting) (hw : w.status.IsInvited) :
    w.dlg.inviteTs ≠ some r := by
  intro hts
  obtain ⟨s, u, invite, hts', hu, -, hpends⟩ := h.invited hw
  rw [hts] at hts'
  cases hts'
  rw [hget] at hu
  cases hu
  have hpending := hpends.status
  rw [ht] at hpending
  cases hpending

end Posted

/-- **Every piece keeps it.** -/
theorem Attends.posted {heap : Heap InviteTransactionServer} {H : List (ℕ × SipMessage)}
    {w w' : World} (ha : Attends S heap H w w') (h : w.Posted) : w'.Posted := by
  cases ha with
  | spares hs => exact h.of_spares hs
  | takes m =>
    exact ⟨h.tidy.congr rfl rfl rfl rfl rfl, h.noneListens, h.init, h.waiting, h.vacant, h.invited,
      h.queued⟩
  | opens m => exact h.opened m
  | startsCancel hw r m =>
    have hne : ¬ (w.status = .init ∨ w.status = .waiting) := by
      rintro (heq | heq) <;> rw [heq] at hw <;> exact absurd hw (by decide)
    refine ⟨⟨h.tidy.ackReq, h.tidy.inviteClients, h.tidy.clients, h.tidy.servers, ?_⟩,
      h.noneListens, h.init, h.waiting, fun hw' => absurd hw' hne, h.invited, h.queued⟩
    refine Heap.forall_put (P := fun _ (t : TransactionServer) => ∀ resp ∈ t.response, resp.Unpassed)
      h.tidy.cancelServers fun resp hresp => ?_
    cases hresp
  | goesOn hrr hts hresp =>
    exact h.setResponder fun resp hmem => h.queued _ hrr resp (hresp hmem)
  | @queues r rr resp hw hts hrr hcode hmethod hpassed =>
    refine h.setResponder fun resp' hmem => ?_
    rcases List.mem_append.mp hmem with hmem | hmem
    · exact h.queued rr (responder_of_mem hrr hmem) resp' hmem
    · rw [List.mem_singleton.mp hmem]
      obtain ⟨hcode', hmethod', -⟩ := resp.addRequired_spec otag100rel
      exact ⟨hcode'.symm ▸ hcode, hmethod'.trans hmethod⟩
  | @hands rr t t' cs resp hrr hresp hheap hH hget hr =>
    have hcode : 100 ≤ ({ resp with connectionId := t.connectionId } : SipMessage).code ∧
        ({ resp with connectionId := t.connectionId } : SipMessage).code < 200 :=
      (h.queued rr hrr resp hresp).1
    exact h.setInviteServer hget cs fun _ _ invite hpends => Posted.pends_responds hcode hr hpends
  | rings hw hts hget hcode hpassed hr =>
    exact h.setInviteServer hget _ fun _ _ invite hpends => Posted.pends_responds hcode hr hpends
  | @fails r t t' cs resp hw hts hget hcode hpassed hr =>
    have hw₁ : (w.changeStatus (if w.status = .invited then .refused else .reRefused)).Posted := by
      split <;> exact h.changeStatus (by decide) (by decide) (by decide)
    refine hw₁.setInviteServer hget cs fun hinvited => absurd hinvited ?_
    show ¬ (if w.status = .invited then Status.refused else .reRefused).IsInvited
    split <;> decide
  | @succeeds r t t' cs invite conn p hw hts hget hreq hcode hpassed hterm =>
    have hw₁ : (w.changeStatus (if w.status = .invited then .accepted else .reAccepted)).Posted := by
      split <;> exact h.changeStatus (by decide) (by decide) (by decide)
    have hnot : ¬ (if w.status = .invited then Status.accepted else .reAccepted).IsInvited := by
      split <;> decide
    have hw₂ : ((w.changeStatus (if w.status = .invited then .accepted else
        .reAccepted)).setInviteServer r t' cs).Posted :=
      hw₁.setInviteServer hget cs fun hinvited => absurd hinvited hnot
    refine ⟨hw₂.tidy.congr rfl rfl rfl rfl rfl, hw₂.noneListens, hw₂.init, hw₂.waiting, hw₂.vacant,
      hw₂.invited, fun rr hrr => ?_⟩
    obtain ⟨rr₀, hrr₀, rfl⟩ := Option.map_eq_some_iff.mp hrr
    exact h.queued rr₀ hrr₀
  | @continues r t t' cs hget hc =>
    exact h.setInviteServer hget cs fun _ _ invite hpends => Posted.pends_continues hc hpends
  | begins hget hwaiting hb =>
    exact h.setInviteServer hget _ fun hw hts => absurd hts (h.ne_inviteTs hget hwaiting hw)
  | @accepts r t m hw hget hpends =>
    refine ⟨h.tidy.congr rfl rfl rfl rfl rfl, h.noneListens, fun h => (nomatch h),
      fun h => (nomatch h), fun h => (by rcases h with h | h <;> cases h), fun _ => ?_, h.queued⟩
    exact ⟨r, t, m, h.waiting hw r t hget, hget, rfl, hpends⟩
  | @misled r t t' t'' m resp cs cs' hget hwaiting hb hcode hpassed hr =>
    have hne := h.ne_inviteTs hget hwaiting
    have h₁ : (w.setInviteServer r t' cs).Posted :=
      h.setInviteServer hget cs fun hw hts => absurd hts (hne hw)
    exact h₁.setInviteServer (Heap.get_put_self ..) cs' fun hw hts => absurd hts (hne hw)
  | listens hw => exact h.listen hw
  | ends hw hget ht =>
    refine h.setInviteServer hget _ fun hinvited => absurd hinvited ?_
    rcases hw with (hw | hw) | hw <;> rw [hw] <;> decide
  | forgets hw =>
    refine ⟨h.tidy.congr rfl rfl rfl rfl rfl, h.noneListens, h.init, fun hw' => ?_, h.vacant,
      fun hw' => ?_, h.queued⟩
    · have hclose : w.status = .waiting := hw'
      rw [hw] at hclose
      cases hclose
    · have hclose : w.status.IsInvited := hw'
      rw [hw] at hclose
      exact absurd hclose (by decide)
  | acks hget hk =>
    exact ⟨h.tidy.congr rfl rfl rfl rfl rfl, h.noneListens, h.init, h.waiting, h.vacant, h.invited,
      h.queued⟩

end World
end SoftPhone
