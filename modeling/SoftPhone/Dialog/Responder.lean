import SoftPhone.Dialog.InviteDialog

/-!
# The reliable provisional responder by itself

A `ReliableProvisionalResponder` keeps a queue of numbered responses and hands the head
of the queue to its INVITE server until a PRACK confirms it or its transaction timer
expires.  Seen alone it takes four events: a call of `respond`, a PRACK, a timer, and the
return of its listener from a callback.  While the listener works on a callback it may
call `respond`; a PRACK or a timer waits.

The dialog runs the same functions on its field `reliable_responder`
(`World.respondReliably_eq` and the ones after it).

A new response starts the head of the queue when no retransmission timer is set, and so
does the code after a callback.  The timer is set as long as the head of the queue has
been sent and not been settled, so at most one response is outstanding, and what was sent
is what was settled and that one (`Responding.Kept`).
-/

namespace SoftPhone

open Machine

/-- What a responder does: it hands a response to its INVITE server, or settles one and
tells its listener, if it has one. -/
inductive ResponderAct where
  | sends (resp : SipMessage)
  | confirms (resp prack : SipMessage)
  | timesOut (resp : SipMessage)
  deriving DecidableEq, Repr

/-- What a responder does after a callback. -/
inductive ResponderRest where
  | afterPrack
  | afterTimeout
  deriving DecidableEq, Repr

/-- The callback for what was settled. -/
def ResponderAct.callback : ResponderAct → Option DialogCallback
  | .sends _ => none
  | .confirms resp prack => some (.onDlgInviteReliableProvisionalResponseConfirmed resp prack)
  | .timesOut resp => some (.onDlgInviteReliableProvisionalResponseTimeout resp)

/-- The code of the dialog that goes on. -/
def ResponderRest.toRest : ResponderRest → Rest
  | .afterPrack => .afterPrack
  | .afterTimeout => .afterResponderTimeout

/-- A response with its number and the extension that it requires. -/
def SipMessage.numbered (resp : SipMessage) (n : ℤ) : SipMessage :=
  { resp.addRequired otag100rel with rseq := some n }

namespace ReliableProvisionalResponder

/-- A method, up to its callback: the responder, what it did, and what is left to do. -/
structure Done where
  self : ReliableProvisionalResponder
  acts : List ResponderAct := []
  rest : Option ResponderRest := none

/-- `sendNextResponse`. -/
def sendNextResponse (rr : ReliableProvisionalResponder) : Done :=
  match rr.responses with
  | [] => { self := rr }
  | resp :: _ => { self := rr.startTimers, acts := [.sends resp] }

/-- `respond`. -/
def respond (rr : ReliableProvisionalResponder) (resp : SipMessage) : Done :=
  if rr.retransmissionTo = none then (rr.enqueue resp).sendNextResponse
  else { self := rr.enqueue resp }

/-- What a method does after its callback. -/
def resume (rr : ReliableProvisionalResponder) : ResponderRest → Done
  | .afterPrack => if rr.retransmissionTo = none then rr.sendNextResponse else { self := rr }
  | .afterTimeout => rr.sendNextResponse

/-- The head of the queue is settled: the listener is told, or the method goes on. -/
def settle (rr : ReliableProvisionalResponder) (rest : List SipMessage) (act : ResponderAct)
    (k : ResponderRest) : Done :=
  if rr.listener then { self := rr.advance rest, acts := [act], rest := some k }
  else
    let done := (rr.advance rest).resume k
    { self := done.self, acts := act :: done.acts }

/-- `processPrack`. -/
def processPrack (rr : ReliableProvisionalResponder) (prack : SipMessage) : Done :=
  match rr.responses with
  | [] => { self := rr }
  | resp :: rest =>
    if prack.acknowledges resp then rr.settle rest (.confirms resp prack) .afterPrack
    else { self := rr }

/-- `processTimeout`. -/
def processTimeout (rr : ReliableProvisionalResponder) (n : TimerName) : Done :=
  match n, rr.retransmissionTo, rr.transactionTo with
  | .retransmission, some timer, _ =>
    if timer.Delivers then
      { self := rr.backOff timer
        acts := rr.responses.head?.toList.map .sends }
    else { self := rr }
  | .transaction, _, some timer =>
    if timer.Delivers then
      match rr.responses with
      | [] => { self := rr.stop }
      | resp :: rest => rr.settle rest (.timesOut resp) .afterTimeout
    else { self := rr }
  | _, _, _ => { self := rr }

end ReliableProvisionalResponder

/-! ## The dialog runs these functions -/

namespace World

variable {S : SipStack}

/-- The responder is now what it is after its method, and its responses go to its INVITE
server. -/
def follow (w : World) (r : ℕ) (done : ReliableProvisionalResponder.Done) : World :=
  done.acts.foldl (fun w act =>
    match act with
    | .sends resp => w.onInviteServer (some r) (·.respondWith resp)
    | _ => w) (w.setResponder done.self)

theorem sendNextResponse_eq {w : World} {rr : ReliableProvisionalResponder}
    (h : w.dlg.reliableResponder = some rr) :
    w.sendNextResponse = w.follow rr.inviteTs rr.sendNextResponse := by
  unfold sendNextResponse ReliableProvisionalResponder.sendNextResponse
  rw [h]
  dsimp only
  cases rr.responses with
  | nil =>
    show w = w.setResponder rr
    rw [setResponder, ← h]
  | cons resp rest => rfl

theorem respondReliably_eq {w : World} {rr : ReliableProvisionalResponder}
    (h : w.dlg.reliableResponder = some rr) (resp : SipMessage) :
    w.respondReliably resp = w.follow rr.inviteTs (rr.respond resp) := by
  unfold respondReliably ReliableProvisionalResponder.respond
  rw [h]
  show (if rr.retransmissionTo = none then (w.setResponder (rr.enqueue resp)).sendNextResponse
    else w.setResponder (rr.enqueue resp)) = _
  split
  · rw [sendNextResponse_eq (w := w.setResponder (rr.enqueue resp)) rfl]
    rfl
  · rfl

theorem afterPrack_eq {w : World} {rr : ReliableProvisionalResponder}
    (h : w.dlg.reliableResponder = some rr) :
    w.afterPrack = w.follow rr.inviteTs (rr.resume .afterPrack) := by
  unfold afterPrack ReliableProvisionalResponder.resume
  rw [h]
  dsimp only
  split
  · exact sendNextResponse_eq h
  · show w = w.setResponder rr
    rw [setResponder, ← h]

/-- The listener is told of what was settled, and the rest of the method waits for it. -/
def tell (w : World) (done : ReliableProvisionalResponder.Done) : World :=
  match done.rest, done.acts with
  | some k, act :: _ => (act.callback.elim (w.suspend k.toRest) (w.suspend k.toRest).fire)
  | _, _ => w

/-- A PRACK that confirms nothing is dropped; one that confirms the head of the queue is
noted and answered as well. -/
theorem processPrack_eq {w : World} {rr : ReliableProvisionalResponder}
    (h : w.dlg.reliableResponder = some rr) (prack : SipMessage) :
    w.processPrack S prack =
      if (rr.processPrack prack).acts = [] then w
      else (((w.observe (.processed prack)).answer prack (createResponse S prack 200 none)).follow
        rr.inviteTs (rr.processPrack prack)).tell (rr.processPrack prack) := by
  unfold processPrack ReliableProvisionalResponder.processPrack
  rw [h]
  dsimp only
  cases rr.responses with
  | nil => rfl
  | cons resp rest =>
    dsimp only
    by_cases hack : prack.acknowledges resp = true
    · simp only [if_pos hack]
      unfold ReliableProvisionalResponder.settle
      split
      · rfl
      · rw [@afterPrack_eq _ (rr.advance rest) rfl]
        rfl
    · simp only [if_neg hack]
      rfl

/-- What the dialog does when a timer of its responder expires. -/
theorem processTimeout_eq {w : World} {rr : ReliableProvisionalResponder}
    (h : w.dlg.reliableResponder = some rr) (n : TimerName) :
    w.processTimeout n =
      (w.follow rr.inviteTs (rr.processTimeout n)).tell (rr.processTimeout n) := by
  have hstay : w.setResponder rr = w := by rw [setResponder, ← h]
  unfold processTimeout ReliableProvisionalResponder.processTimeout
  rw [h]
  dsimp only
  cases n with
  | retransmission =>
    cases rr.retransmissionTo with
    | none => exact hstay.symm
    | some timer =>
      by_cases hdelivers : timer.Delivers
      · simp only [if_pos hdelivers]
        cases rr.responses <;> rfl
      · simp only [if_neg hdelivers]
        exact hstay.symm
  | transaction =>
    cases rr.transactionTo with
    | none => exact hstay.symm
    | some timer =>
      by_cases hdelivers : timer.Delivers
      · simp only [if_pos hdelivers]
        cases rr.responses with
        | nil => rfl
        | cons resp rest =>
          dsimp only
          unfold ReliableProvisionalResponder.settle
          split
          · rfl
          · rw [@sendNextResponse_eq _ (rr.advance rest) rfl]
            rfl
      · simp only [if_neg hdelivers]
        exact hstay.symm
  | ending => exact hstay.symm
  | clearing => exact hstay.symm

/-- The dialog goes on after a callback. -/
theorem resume_toRest_eq {w : World} {rr : ReliableProvisionalResponder}
    (h : w.dlg.reliableResponder = some rr) (k : ResponderRest) :
    w.resume k.toRest = w.follow rr.inviteTs (rr.resume k) := by
  cases k with
  | afterPrack => exact afterPrack_eq h
  | afterTimeout => exact sendNextResponse_eq h

/-! Without a responder nothing is done. -/

theorem processPrack_of_none {w : World} (h : w.dlg.reliableResponder = none)
    (prack : SipMessage) : w.processPrack S prack = w := by
  unfold processPrack
  rw [h]

theorem processTimeout_of_none {w : World} (h : w.dlg.reliableResponder = none)
    (n : TimerName) : w.processTimeout n = w := by
  unfold processTimeout
  rw [h]

theorem resume_toRest_of_none {w : World} (h : w.dlg.reliableResponder = none)
    (k : ResponderRest) : w.resume k.toRest = w := by
  cases k with
  | afterPrack =>
    show w.afterPrack = w
    unfold afterPrack
    rw [h]
  | afterTimeout =>
    show w.sendNextResponse = w
    unfold sendNextResponse
    rw [h]

end World

/-! ## The responder as a machine -/

/-- A responder, and what it does when its listener returns. -/
structure Responding where
  responder : ReliableProvisionalResponder
  rest : Option ResponderRest := none

/-- What can happen to a responder that is not terminated. -/
inductive ResponderEvent where
  | respond (resp : SipMessage)
  | prack (m : SipMessage)
  | timeout (n : TimerName)
  /-- The listener returns from a callback. -/
  | returns

/-- The responses that were passed, in order. -/
def received (es : List ResponderEvent) : List SipMessage :=
  es.filterMap fun
    | .respond resp => some resp
    | _ => none

/-- Responses with consecutive numbers from `n` on. -/
def numberedFrom (n : ℤ) : List SipMessage → List SipMessage
  | [] => []
  | resp :: rest => resp.numbered n :: numberedFrom (n + 1) rest

/-- The responses handed to the INVITE server, in order. -/
def sends (acts : List ResponderAct) : List SipMessage :=
  acts.filterMap fun
    | .sends resp => some resp
    | _ => none

/-- The responses that were confirmed or have timed out, in order. -/
def settled (acts : List ResponderAct) : List SipMessage :=
  acts.filterMap fun
    | .sends _ => none
    | .confirms resp _ => some resp
    | .timesOut resp => some resp

namespace Responding

/-- A new responder with a listener; its first number is `n`. -/
def new (inviteTs : ℕ) (n : ℤ) : Responding :=
  { responder := { inviteTs := inviteTs, rseqCounter := n } }

/-- What the responder does at one event. -/
def does (p : Responding) : ResponderEvent → ReliableProvisionalResponder.Done
  | .respond resp => { p.responder.respond resp with rest := p.rest }
  | .prack m =>
    match p.rest with
    | none => p.responder.processPrack m
    | some _ => { self := p.responder, rest := p.rest }
  | .timeout n =>
    match p.rest with
    | none => p.responder.processTimeout n
    | some _ => { self := p.responder, rest := p.rest }
  | .returns =>
    match p.rest with
    | none => { self := p.responder }
    | some k => p.responder.resume k

/-- One event. -/
def step (p : Responding) (e : ResponderEvent) : Responding := ⟨(p.does e).self, (p.does e).rest⟩

/-- What a run does. -/
def acts (p : Responding) (es : List ResponderEvent) : List ResponderAct :=
  outputs step (fun p e => (p.does e).acts) p es

end Responding

/-! ## Numbers -/

theorem numberedFrom_append (n : ℤ) (rs : List SipMessage) (r : SipMessage) :
    numberedFrom n (rs ++ [r]) = numberedFrom n rs ++ [r.numbered (n + rs.length)] := by
  induction rs generalizing n with
  | nil => simp [numberedFrom]
  | cons a rs ih =>
    rw [List.cons_append, numberedFrom, ih, numberedFrom, List.cons_append, List.length_cons]
    congr 4
    omega

/-- The `i`-th response has the number `n + i`. -/
theorem rseq_numberedFrom {n : ℤ} {rs : List SipMessage} {i : ℕ} {r : SipMessage}
    (h : (numberedFrom n rs)[i]? = some r) : r.rseq = some (n + i) := by
  induction rs generalizing n i with
  | nil => cases h
  | cons a rs ih =>
    cases i with
    | zero =>
      rw [numberedFrom, List.getElem?_cons_zero] at h
      rw [← Option.some.inj h]
      show some n = some (n + ((0 : ℕ) : ℤ))
      rw [Int.natCast_zero, Int.add_zero]
    | succ i =>
      rw [numberedFrom, List.getElem?_cons_succ] at h
      rw [ih h]
      congr 1
      omega

/-- Different responses have different numbers. -/
theorem nodup_numberedFrom (n : ℤ) (rs : List SipMessage) : (numberedFrom n rs).Nodup := by
  induction rs generalizing n with
  | nil => exact List.nodup_nil
  | cons r rs ih =>
    refine List.nodup_cons.mpr ⟨fun hmem => ?_, ih (n + 1)⟩
    obtain ⟨i, hi⟩ := List.mem_iff_getElem?.mp hmem
    have hrseq : some n = some (n + 1 + i) := rseq_numberedFrom hi
    have heq := Option.some.inj hrseq
    omega

/-! ## The first time that a response is sent -/

theorem eraseDups_concat_of_mem {l : List SipMessage} {r : SipMessage} (h : r ∈ l) :
    (l ++ [r]).eraseDups = l.eraseDups := by
  rw [List.eraseDups_append]
  simp [List.removeAll, h]

theorem eraseDups_concat_of_notMem {l : List SipMessage} {r : SipMessage} (h : r ∉ l) :
    (l ++ [r]).eraseDups = l.eraseDups ++ [r] := by
  rw [List.eraseDups_append]
  simp [List.removeAll, h, List.eraseDups_cons]

@[simp] theorem sends_append (as bs : List ResponderAct) : sends (as ++ bs) = sends as ++ sends bs :=
  List.filterMap_append

@[simp] theorem settled_append (as bs : List ResponderAct) :
    settled (as ++ bs) = settled as ++ settled bs :=
  List.filterMap_append

/-- The response that was sent and is not settled. -/
def ReliableProvisionalResponder.outstanding (rr : ReliableProvisionalResponder) :
    List SipMessage :=
  if rr.retransmissionTo = none then [] else rr.responses.take 1

/-- The account of a responder: `q` are the responses it was given, numbered. -/
structure Accounts (q : List SipMessage) (acts : List ResponderAct)
    (rr : ReliableProvisionalResponder) : Prop where
  queue : q = settled acts ++ rr.responses
  sent : (sends acts).eraseDups = settled acts ++ rr.outstanding
  transactionTo : rr.transactionTo ≠ none → rr.retransmissionTo ≠ none
  busy : rr.retransmissionTo ≠ none → rr.responses ≠ []

namespace Accounts

variable {q : List SipMessage} {acts : List ResponderAct} {rr : ReliableProvisionalResponder}

/-- The head of the queue, while the retransmission timer is set. -/
theorem outstanding_eq (hbusy : rr.retransmissionTo ≠ none) {r : SipMessage}
    {rest : List SipMessage} (hresp : rr.responses = r :: rest) : rr.outstanding = [r] := by
  unfold ReliableProvisionalResponder.outstanding
  rw [if_neg hbusy, hresp]
  rfl

/-- The head of the queue is sent, for the first time or again. -/
theorem sends_head (h : Accounts q acts rr) (hq : q.Nodup) {r : SipMessage}
    {rest : List SipMessage} (hresp : rr.responses = r :: rest) :
    (sends (acts ++ [.sends r])).eraseDups = settled (acts ++ [.sends r]) ++ [r] := by
  have hsettled : settled (acts ++ [.sends r]) = settled acts := by
    rw [settled_append]
    exact List.append_nil _
  rw [hsettled, sends_append]
  show (sends acts ++ [r]).eraseDups = settled acts ++ [r]
  have hsent := h.sent
  by_cases hidle : rr.retransmissionTo = none
  · have hout : rr.outstanding = [] := if_pos hidle
    rw [hout, List.append_nil] at hsent
    have hnot : r ∉ sends acts := by
      intro hmem
      have hsettled : r ∈ settled acts := hsent ▸ List.mem_eraseDups.mpr hmem
      rw [h.queue, hresp] at hq
      exact (List.nodup_append.mp hq).2.2 r hsettled r (List.mem_cons_self ..) rfl
    rw [eraseDups_concat_of_notMem hnot, hsent]
  · rw [outstanding_eq hidle hresp] at hsent
    have hmem : r ∈ sends acts := by
      rw [← List.mem_eraseDups, hsent]
      exact List.mem_append_right _ (List.mem_singleton_self r)
    rw [eraseDups_concat_of_mem hmem, hsent]

/-- The head of the queue is sent, and a retransmission timer is set. -/
theorem send (h : Accounts q acts rr) (hq : q.Nodup) {r : SipMessage}
    {rest : List SipMessage} (hresp : rr.responses = r :: rest)
    {rr' : ReliableProvisionalResponder} (hresp' : rr'.responses = rr.responses)
    (hbusy : rr'.retransmissionTo ≠ none) : Accounts q (acts ++ [.sends r]) rr' where
  queue := by
    rw [hresp', settled_append]
    exact h.queue.trans (by rw [show settled [ResponderAct.sends r] = [] from rfl, List.append_nil])
  sent := by
    rw [outstanding_eq hbusy (hresp'.trans hresp)]
    exact h.sends_head hq hresp
  transactionTo _ := hbusy
  busy _ := by rw [hresp', hresp]; simp

theorem sendNextResponse (h : Accounts q acts rr) (hq : q.Nodup) :
    Accounts q (acts ++ rr.sendNextResponse.acts) rr.sendNextResponse.self := by
  unfold ReliableProvisionalResponder.sendNextResponse
  split
  · rw [show ({ self := rr } : ReliableProvisionalResponder.Done).acts = [] from rfl, List.append_nil]
    exact h
  · next r rest hresp => exact h.send hq hresp rfl (by simp [ReliableProvisionalResponder.startTimers])

/-- The outstanding response is settled. -/
theorem settle (h : Accounts q acts rr) (hbusy : rr.retransmissionTo ≠ none) {r : SipMessage}
    {rest : List SipMessage} (hresp : rr.responses = r :: rest) {act : ResponderAct}
    (hact : settled [act] = [r]) (hsends : sends [act] = []) :
    Accounts q (acts ++ [act]) (rr.advance rest) where
  queue := by
    rw [settled_append, hact, List.append_assoc]
    exact h.queue.trans (by rw [hresp]; rfl)
  sent := by
    have hsent := h.sent
    rw [outstanding_eq hbusy hresp] at hsent
    rw [sends_append, hsends, List.append_nil, hsent, settled_append, hact]
    exact (List.append_nil _).symm
  transactionTo ht := absurd rfl ht
  busy hb := absurd rfl hb

theorem enqueue (h : Accounts q acts rr) (resp : SipMessage) :
    Accounts (q ++ [resp.numbered rr.rseqCounter]) acts (rr.enqueue resp) where
  queue := by rw [h.queue, List.append_assoc]; rfl
  sent := by
    rw [h.sent]
    congr 1
    unfold ReliableProvisionalResponder.outstanding
    by_cases hidle : rr.retransmissionTo = none
    · rw [if_pos hidle, if_pos (show (rr.enqueue resp).retransmissionTo = none from hidle)]
    · rw [if_neg hidle, if_neg (show (rr.enqueue resp).retransmissionTo ≠ none from hidle)]
      exact (List.take_append_of_le_length (List.length_pos_iff.mpr (h.busy hidle))).symm
  transactionTo := h.transactionTo
  busy _ := by simp [ReliableProvisionalResponder.enqueue]

end Accounts

/-! ## Runs -/

/-- What holds of a responder after every run. -/
structure Responding.Kept (n : ℤ) (es : List ResponderEvent) (acts : List ResponderAct)
    (p : Responding) : Prop where
  listener : p.responder.listener = true
  counter : p.responder.rseqCounter = n + (received es).length
  accounts : Accounts (numberedFrom n (received es)) acts p.responder
  /-- Only inside a callback a response may wait without a timer. -/
  idle : p.rest = none → p.responder.retransmissionTo = none → p.responder.responses = []
  names : ∀ resp prack, .confirms resp prack ∈ acts → prack.acknowledges resp = true

theorem received_concat (es : List ResponderEvent) (e : ResponderEvent) :
    received (es ++ [e]) = received es ++ received [e] :=
  List.filterMap_append

/-- `sendNextResponse` leaves the queue, and a timer if there is something to send. -/
theorem ReliableProvisionalResponder.sendNextResponse_spec (rr : ReliableProvisionalResponder) :
    rr.sendNextResponse.self.listener = rr.listener ∧
      rr.sendNextResponse.self.rseqCounter = rr.rseqCounter ∧ rr.sendNextResponse.rest = none ∧
      (rr.sendNextResponse.self.retransmissionTo = none →
        rr.sendNextResponse.self.responses = []) ∧
      ∀ resp prack, .confirms resp prack ∉ rr.sendNextResponse.acts := by
  unfold sendNextResponse
  split
  · next hresp => exact ⟨rfl, rfl, rfl, fun _ => hresp, by simp⟩
  · exact ⟨rfl, rfl, rfl, fun ht => by simp [startTimers] at ht, by simp⟩

namespace Responding.Kept

variable {n : ℤ} {es : List ResponderEvent} {acts : List ResponderAct} {p : Responding}

/-- An event that does nothing. -/
theorem of_stay (h : Kept n es acts p) {e : ResponderEvent} (he : received [e] = [])
    (hacts : (p.does e).acts = []) (hstep : p.step e = p) :
    Kept n (es ++ [e]) (acts ++ (p.does e).acts) (p.step e) := by
  rw [hacts, hstep, List.append_nil]
  have hreceived : received (es ++ [e]) = received es := by
    rw [received_concat, he, List.append_nil]
  exact ⟨h.listener, hreceived ▸ h.counter, hreceived ▸ h.accounts, h.idle, h.names⟩

/-- An event that is no call of `respond`. -/
theorem of_done (h : Kept n es acts p) {e : ResponderEvent} (he : received [e] = [])
    {done : ReliableProvisionalResponder.Done} (hdone : p.does e = done)
    (hlistener : done.self.listener = p.responder.listener)
    (hcounter : done.self.rseqCounter = p.responder.rseqCounter)
    (haccounts : Accounts (numberedFrom n (received es)) (acts ++ done.acts) done.self)
    (hidle : done.rest = none → done.self.retransmissionTo = none → done.self.responses = [])
    (hnames : ∀ resp prack, .confirms resp prack ∈ done.acts → prack.acknowledges resp = true) :
    Kept n (es ++ [e]) (acts ++ (p.does e).acts) (p.step e) := by
  have hreceived : received (es ++ [e]) = received es := by
    rw [received_concat, he, List.append_nil]
  have hstep : p.step e = ⟨done.self, done.rest⟩ := by rw [step, hdone]
  rw [hdone, hstep]
  refine ⟨hlistener.trans h.listener, ?_, hreceived.symm ▸ haccounts, hidle, fun resp prack hm => ?_⟩
  · rw [hreceived]
    exact hcounter.trans h.counter
  · rcases List.mem_append.mp hm with hm | hm
    · exact h.names resp prack hm
    · exact hnames resp prack hm

/-- The queue goes on. -/
theorem of_sendNextResponse (h : Kept n es acts p) {e : ResponderEvent} (he : received [e] = [])
    (hdone : p.does e = p.responder.sendNextResponse) :
    Kept n (es ++ [e]) (acts ++ (p.does e).acts) (p.step e) := by
  obtain ⟨hlistener, hcounter, hrest, hidle, hnames⟩ := p.responder.sendNextResponse_spec
  exact h.of_done he hdone hlistener hcounter
    (h.accounts.sendNextResponse (nodup_numberedFrom ..)) (fun _ => hidle)
    fun resp prack hm => absurd hm (hnames resp prack)

/-- The outstanding response is settled, and the listener is told. -/
theorem of_settle (h : Kept n es acts p) {e : ResponderEvent} (he : received [e] = [])
    (hbusy : p.responder.retransmissionTo ≠ none) {r : SipMessage} {rest : List SipMessage}
    (hresp : p.responder.responses = r :: rest) {act : ResponderAct} {k : ResponderRest}
    (hdone : p.does e = p.responder.settle rest act k) (hact : settled [act] = [r])
    (hsends : sends [act] = [])
    (hnames : ∀ resp prack, act = .confirms resp prack → prack.acknowledges resp = true) :
    Kept n (es ++ [e]) (acts ++ (p.does e).acts) (p.step e) := by
  unfold ReliableProvisionalResponder.settle at hdone
  rw [if_pos h.listener] at hdone
  refine h.of_done he hdone rfl rfl (h.accounts.settle hbusy hresp hact hsends)
    (fun hr => by cases hr) fun resp prack hm => hnames resp prack ?_
  exact (List.mem_singleton.mp hm).symm

theorem respond (h : Kept n es acts p) (resp : SipMessage) :
    Kept n (es ++ [.respond resp]) (acts ++ (p.does (.respond resp)).acts)
      (p.step (.respond resp)) := by
  have hreceived : received (es ++ [.respond resp]) = received es ++ [resp] := received_concat ..
  have haccounts : Accounts (numberedFrom n (received (es ++ [.respond resp]))) acts
      (p.responder.enqueue resp) := by
    rw [hreceived, numberedFrom_append, ← h.counter]
    exact h.accounts.enqueue resp
  have hcounter : (p.responder.enqueue resp).rseqCounter =
      n + (received (es ++ [.respond resp])).length := by
    rw [hreceived, List.length_append, List.length_singleton]
    show p.responder.rseqCounter + 1 = _
    rw [h.counter]
    omega
  show Kept n _ (acts ++ (p.responder.respond resp).acts) ⟨(p.responder.respond resp).self, p.rest⟩
  unfold ReliableProvisionalResponder.respond
  split
  · obtain ⟨hlistener, hcounter', -, hidle, hnames⟩ :=
      (p.responder.enqueue resp).sendNextResponse_spec
    refine ⟨hlistener.trans h.listener, hcounter'.trans hcounter,
      haccounts.sendNextResponse (nodup_numberedFrom ..), fun _ => hidle, fun r m hm => ?_⟩
    rcases List.mem_append.mp hm with hm | hm
    · exact h.names r m hm
    · exact absurd hm (hnames r m)
  · next hbusy =>
    rw [show ({ self := p.responder.enqueue resp } : ReliableProvisionalResponder.Done).acts = []
      from rfl, List.append_nil]
    exact ⟨h.listener, hcounter, haccounts, fun _ hidle => absurd hidle hbusy, h.names⟩

theorem prack (h : Kept n es acts p) (m : SipMessage) :
    Kept n (es ++ [.prack m]) (acts ++ (p.does (.prack m)).acts) (p.step (.prack m)) := by
  obtain ⟨rr, rest⟩ := p
  match rest, h with
  | some k, h => exact h.of_stay rfl rfl rfl
  | none, h =>
    have hdoes : Responding.does ⟨rr, none⟩ (.prack m) = rr.processPrack m := rfl
    unfold ReliableProvisionalResponder.processPrack at hdoes
    split at hdoes
    · exact h.of_stay rfl (by rw [hdoes]) (by rw [step, hdoes])
    · next r rest hresp =>
      split at hdoes
      · next hack =>
        have hbusy : rr.retransmissionTo ≠ none := by
          intro hnone
          rw [h.idle rfl hnone] at hresp
          cases hresp
        refine h.of_settle rfl hbusy hresp hdoes rfl rfl fun resp prack heq => ?_
        cases heq
        exact hack
      · exact h.of_stay rfl (by rw [hdoes]) (by rw [step, hdoes])

theorem timeout (h : Kept n es acts p) (t : TimerName) :
    Kept n (es ++ [.timeout t]) (acts ++ (p.does (.timeout t)).acts) (p.step (.timeout t)) := by
  obtain ⟨rr, rest⟩ := p
  match rest, h with
  | some k, h => exact h.of_stay rfl rfl rfl
  | none, h =>
    have hdoes : Responding.does ⟨rr, none⟩ (.timeout t) = rr.processTimeout t := rfl
    unfold ReliableProvisionalResponder.processTimeout at hdoes
    split at hdoes
    · next timer _ hto =>
      split at hdoes
      · -- the head of the queue is sent again
        have hbusy : rr.retransmissionTo ≠ none := by simp [hto]
        cases hresp : rr.responses with
        | nil => exact absurd hresp (h.accounts.busy hbusy)
        | cons r rest =>
          rw [hresp] at hdoes
          refine h.of_done rfl hdoes rfl rfl
            (h.accounts.send (nodup_numberedFrom ..) hresp rfl (by simp [ReliableProvisionalResponder.backOff]))
            (fun _ hnone => by simp [ReliableProvisionalResponder.backOff] at hnone) (by simp)
      · exact h.of_stay rfl (by rw [hdoes]) (by rw [step, hdoes])
    · next timer hto =>
      split at hdoes
      · have hbusy : rr.retransmissionTo ≠ none := h.accounts.transactionTo (by simp [hto])
        split at hdoes
        · next hresp => exact absurd hresp (h.accounts.busy hbusy)
        · next r rest hresp =>
          exact h.of_settle rfl hbusy hresp hdoes rfl rfl (by simp)
      · exact h.of_stay rfl (by rw [hdoes]) (by rw [step, hdoes])
    · exact h.of_stay rfl (by rw [hdoes]) (by rw [step, hdoes])

theorem returns (h : Kept n es acts p) :
    Kept n (es ++ [.returns]) (acts ++ (p.does .returns).acts) (p.step .returns) := by
  obtain ⟨rr, rest⟩ := p
  match rest, h with
  | none, h => exact h.of_stay rfl rfl rfl
  | some .afterTimeout, h => exact h.of_sendNextResponse rfl rfl
  | some .afterPrack, h =>
    by_cases hidle : rr.retransmissionTo = none
    · exact h.of_sendNextResponse rfl (if_pos hidle)
    · have hdoes : Responding.does ⟨rr, some .afterPrack⟩ .returns = { self := rr } := if_neg hidle
      refine h.of_done rfl hdoes rfl rfl ?_ (fun _ hnone => absurd hnone hidle) (by simp)
      rw [List.append_nil]
      exact h.accounts

theorem does (h : Kept n es acts p) (e : ResponderEvent) :
    Kept n (es ++ [e]) (acts ++ (p.does e).acts) (p.step e) := by
  cases e with
  | respond resp => exact h.respond resp
  | prack m => exact h.prack m
  | timeout t => exact h.timeout t
  | returns => exact h.returns

end Responding.Kept

theorem Responding.kept (inviteTs : ℕ) (n : ℤ) (es : List ResponderEvent) :
    Kept n es ((new inviteTs n).acts es) (run step (new inviteTs n) es) := by
  refine outputs_invariant (I := Kept n) ?_ (fun es os p e h => h.does e) es
  exact ⟨rfl, (Int.add_zero n).symm, ⟨rfl, rfl, id, fun h => absurd rfl h⟩, fun _ _ => rfl, by simp⟩

/-- **Reliable provisional responses go out one by one.**  Whatever happens to a responder
that is not terminated: the responses are sent for the first time in the order in which
they were passed, with consecutive numbers; at most one that was sent is not settled; none
is settled twice; and a PRACK confirms the response that its RAck names. -/
theorem responder_one_by_one (inviteTs : ℕ) (n : ℤ) (es : List ResponderEvent) :
    let acts := (Responding.new inviteTs n).acts es
    let firstSent := (sends acts).eraseDups
    firstSent <+: numberedFrom n (received es) ∧
      (∀ (i : ℕ) (r : SipMessage), firstSent[i]? = some r → r.rseq = some (n + i)) ∧
      (∃ current : Option SipMessage, firstSent = settled acts ++ current.toList) ∧
      (settled acts).Nodup ∧
      ∀ resp prack, .confirms resp prack ∈ acts → ∃ rack, prack.rack = some rack ∧
        resp.rseq = some rack.rseq ∧ rack.cseq = resp.cseq ∧ rack.method = resp.cseqMethod := by
  intro acts firstSent
  have hkept := Responding.kept inviteTs n es
  set p := run Responding.step (Responding.new inviteTs n) es
  have hsent : firstSent = settled acts ++ p.responder.outstanding := hkept.accounts.sent
  have hqueue := hkept.accounts.queue
  have houtstanding : p.responder.outstanding <+: p.responder.responses := by
    unfold ReliableProvisionalResponder.outstanding
    split
    · exact List.nil_prefix
    · exact List.take_prefix 1 _
  have hfirst : firstSent <+: numberedFrom n (received es) := by
    rw [hsent, hqueue]
    exact (List.prefix_append_right_inj _).mpr houtstanding
  refine ⟨hfirst, fun i r hi => ?_, ?_, ?_, fun resp prack hm => ?_⟩
  · obtain ⟨rest, hrest⟩ := hfirst
    refine rseq_numberedFrom (?_ : (numberedFrom n (received es))[i]? = some r)
    rw [← hrest, List.getElem?_append_left (List.getElem?_eq_some_iff.mp hi).1]
    exact hi
  · rw [hsent]
    unfold ReliableProvisionalResponder.outstanding
    split
    · exact ⟨none, rfl⟩
    · refine ⟨p.responder.responses.head?, ?_⟩
      cases p.responder.responses <;> rfl
  · have hnodup := nodup_numberedFrom n (received es)
    rw [hqueue] at hnodup
    exact (List.nodup_append.mp hnodup).1
  · have hack := hkept.names resp prack hm
    unfold SipMessage.acknowledges at hack
    split at hack
    · next rack rseq hrack hrseq =>
      simp only [Bool.and_eq_true, beq_iff_eq] at hack
      obtain ⟨⟨hcseq, hmethod⟩, hnumber⟩ := hack
      exact ⟨rack, hrack, hnumber ▸ hrseq, hcseq, hmethod⟩
    · cases hack

end SoftPhone
