import SoftPhone.Transaction.Armed

/-!
# What a completed server transaction sends again

A final response moves a server transaction to COMPLETED.  From then on the transaction
sends that response again: for every retransmission of the request, and in the INVITE
server whenever Timer G expires.  What it sends again is the field `response`, and
`respondWith` writes that field before it looks at the state.  So a `respondWith` that
comes too late sends nothing, but it replaces what is sent again.

`Answering` keeps the final response beside the transaction.  The field still holds it
as long as nobody passes another one (`Answering.KeepsFinal`).
-/

namespace SoftPhone

open Machine

namespace Transaction

/-- A `TransactionServer` or an `InviteTransactionServer`. -/
def IsServer : Transaction → Prop
  | .server _ | .inviteServer _ => True
  | _ => False

/-- The response that the transaction sends again. -/
def response : Transaction → Option SipMessage
  | .server p => p.self.response
  | .inviteServer p => p.self.response
  | _ => none

/-- The response that an event passes, with the connection of the transaction. -/
def passed (T : Transaction) : TransactionEvent → Option SipMessage
  | .respondWith resp => some { resp with connectionId := T.connectionId }
  | _ => none

/-- What one event does to the response that a server transaction sends again: it stays
with the state COMPLETED, or the event passes another one; and in COMPLETED nothing else
is sent. -/
structure ServerAnswers (S : SipStack) (T : Transaction) (e : TransactionEvent) : Prop where
  isServer : (T.step S e).IsServer
  completed : (T.step S e).status = .completed →
    T.status = .completed ∧ (T.step S e).response = T.response ∨
      ∃ r, T.passed e = some r ∧ (T.step S e).response = some r
  sends : T.status = .completed → ∀ m, .sendMessage m ∈ T.serverCalls S e → T.response = some m

variable {S : SipStack}

/-- The messages that repeat a response. -/
theorem eq_of_mem_repeat {r : Option SipMessage} {m : SipMessage}
    (h : ProviderCall.sendMessage m ∈ r.toList.map ProviderCall.sendMessage) : r = some m := by
  cases r with
  | none => cases h
  | some r =>
    rw [Option.toList_some, List.map_singleton, List.mem_singleton] at h
    cases h
    rfl

/-- An event that changes nothing. -/
theorem ServerAnswers.of_stay {T : Transaction} {e : TransactionEvent} (hserver : T.IsServer)
    (hstep : T.step S e = T) (hcalls : T.serverCalls S e = []) : ServerAnswers S T e where
  isServer := by rwa [hstep]
  completed h := by
    rw [hstep] at h ⊢
    exact .inl ⟨h, rfl⟩
  sends _ m hm := by rw [hcalls] at hm; cases hm

/-- An event after which the transaction is not in COMPLETED. -/
theorem ServerAnswers.of_leave {T : Transaction} {e : TransactionEvent}
    (hserver : (T.step S e).IsServer) (hleave : (T.step S e).status ≠ .completed)
    (hsends : T.status = .completed → ∀ m, .sendMessage m ∉ T.serverCalls S e) :
    ServerAnswers S T e where
  isServer := hserver
  completed h := absurd h hleave
  sends hc m hm := absurd hm (hsends hc m)

end Transaction

/-! ## `TransactionServer` -/

namespace TransactionServer

/-- A method up to its callback keeps the response with the state COMPLETED, and in
COMPLETED it sends nothing else. -/
structure Repeats (t : TransactionServer)
    (o : Outcome TransactionServer ServerCallback ServerRest) : Prop where
  completed : o.self.status = .completed → t.status = .completed ∧ o.self.response = t.response
  sends : t.status = .completed → ∀ m, .sendMessage m ∈ o.calls → t.response = some m

theorem repeats_of_stay (t : TransactionServer) : t.Repeats { self := t } where
  completed h := ⟨h, rfl⟩
  sends _ m hm := by cases hm

theorem repeats_onReceivedMessage (t : TransactionServer) (m : SipMessage) :
    t.Repeats (t.onReceivedMessage m) := by
  unfold onReceivedMessage
  split
  · split
    · next hwaiting =>
      refine ⟨fun h => (by cases h), fun h => ?_⟩
      rw [hwaiting] at h
      cases h
    · split
      · exact ⟨fun h => ⟨h, rfl⟩, fun _ m hm => Transaction.eq_of_mem_repeat hm⟩
      · exact t.repeats_of_stay
  · exact t.repeats_of_stay

theorem sends_doTerminate (t : TransactionServer) (m : SipMessage) :
    .sendMessage m ∉ t.doTerminate.2 := by
  unfold doTerminate
  split <;> simp

theorem response_doTerminate (t : TransactionServer) : t.doTerminate.1.response = t.response := by
  unfold doTerminate
  split <;> rfl

theorem repeats_expire (t : TransactionServer) (n : TimerName) : t.Repeats (t.expire n) := by
  cases n with
  | clearing =>
    simp only [expire, Timer.expire]
    split
    · split
      · refine ⟨fun h => ?_, fun _ m hm => absurd hm (sends_doTerminate _ m)⟩
        have hterminated := Transaction.ServerArmed.status_doTerminate
          { t with clearingTo := t.clearingTo.halt }
        exact absurd (hterminated.symm.trans h) (by decide)
      · exact ⟨fun h => ⟨h, rfl⟩, fun _ m hm => by cases hm⟩
    · exact t.repeats_of_stay
  | retransmission => exact t.repeats_of_stay
  | transaction => exact t.repeats_of_stay
  | ending => exact t.repeats_of_stay

/-- `respondWith` keeps what it was given, whatever the state. -/
theorem response_respondWith (t : TransactionServer) (resp : SipMessage) :
    (t.respondWith resp).1.response = some { resp with connectionId := t.connectionId } := by
  unfold respondWith complete
  dsimp only
  split
  · split
    · rfl
    · split
      · split
        · rfl
        · exact response_doTerminate _
      · rfl
  · rfl

/-- In COMPLETED `respondWith` sends nothing. -/
theorem sends_respondWith {t : TransactionServer} (h : t.status = .completed)
    (resp : SipMessage) : (t.respondWith resp).2 = [] := by
  unfold respondWith
  rw [if_neg]
  rw [h]
  decide

end TransactionServer

namespace Transaction

variable {S : SipStack}

theorem serverAnswers_server (p : Running TransactionServer ServerRest) (e : TransactionEvent) :
    ServerAnswers S (server p) e := by
  obtain ⟨t, r⟩ := p
  cases e with
  | received m conn =>
    match r with
    | none =>
      obtain ⟨hcompleted, hsends⟩ := t.repeats_onReceivedMessage m
      exact ⟨trivial, fun h => .inl (hcompleted h), hsends⟩
    | some k => exact .of_stay trivial rfl rfl
  | expired n =>
    match r with
    | none =>
      obtain ⟨hcompleted, hsends⟩ := t.repeats_expire n
      exact ⟨trivial, fun h => .inl (hcompleted h), hsends⟩
    | some k => exact .of_stay trivial rfl rfl
  | listen =>
    by_cases hidle : t.status = .idle
    · refine .of_leave trivial ?_ fun hc => ?_
      · show t.listen.1.status ≠ .completed
        rw [TransactionServer.listen, if_pos hidle]
        exact fun h => by cases h
      · have hc : t.status = .completed := hc
        rw [hidle] at hc
        cases hc
    · refine .of_stay trivial ?_ ?_
      · show server ⟨t.listen.1, r⟩ = server ⟨t, r⟩
        rw [TransactionServer.listen, if_neg hidle]
      · show t.listen.2 = []
        rw [TransactionServer.listen, if_neg hidle]
  | respondWith resp =>
    refine ⟨trivial, fun _ => .inr ⟨_, rfl, t.response_respondWith resp⟩, fun hc m hm => ?_⟩
    have hm : .sendMessage m ∈ (t.respondWith resp).2 := hm
    rw [TransactionServer.sends_respondWith hc] at hm
    cases hm
  | terminate =>
    refine .of_leave trivial ?_ fun _ m => t.sends_doTerminate m
    show t.doTerminate.1.status ≠ .completed
    rw [ServerArmed.status_doTerminate]
    decide
  | request conn => exact .of_stay trivial rfl rfl
  | respond => exact .of_stay trivial rfl rfl
  | setAutoTrying autoTrying => exact .of_stay trivial rfl rfl
  | returns => exact .of_stay trivial rfl rfl

end Transaction

/-! ## `InviteTransactionServer` -/

namespace InviteTransactionServer

/-- A method up to its callback keeps the response with the state COMPLETED, and in
COMPLETED it sends nothing else. -/
structure Repeats (t : InviteTransactionServer)
    (o : Outcome InviteTransactionServer ServerCallback ServerRest) : Prop where
  completed : o.self.status = .completed → t.status = .completed ∧ o.self.response = t.response
  sends : t.status = .completed → ∀ m, .sendMessage m ∈ o.calls → t.response = some m

theorem repeats_of_stay (t : InviteTransactionServer) : t.Repeats { self := t } where
  completed h := ⟨h, rfl⟩
  sends _ m hm := by cases hm

theorem sends_terminate (t : InviteTransactionServer) (m : SipMessage) :
    .sendMessage m ∉ t.terminate.2 := by
  unfold terminate doTerminate
  split <;> simp

theorem response_terminate (t : InviteTransactionServer) :
    t.terminate.1.response = t.response := by
  unfold terminate doTerminate
  split <;> rfl

/-- `respondWith` keeps what it was given, whatever the state. -/
theorem response_respondWith (t : InviteTransactionServer) (resp : SipMessage) :
    (t.respondWith resp).1.response = some { resp with connectionId := t.connectionId } := by
  unfold respondWith
  dsimp only
  split
  · split
    · rfl
    · split
      · exact response_terminate _
      · split <;> rfl
  · rfl

/-- In COMPLETED `respondWith` sends nothing. -/
theorem sends_respondWith {t : InviteTransactionServer} (h : t.status = .completed)
    (resp : SipMessage) : (t.respondWith resp).2 = [] := by
  unfold respondWith
  rw [if_neg]
  rw [h]
  decide

/-- A provisional response moves a pending transaction to PROCEEDING. -/
theorem status_respondWith_provisional {t : InviteTransactionServer} {resp : SipMessage}
    (hpending : t.status.isPending = true) (hcode : 100 ≤ resp.code ∧ resp.code < 200) :
    (t.respondWith resp).1.status = .proceeding := by
  unfold respondWith
  rw [if_pos hpending]
  split
  · rfl
  · next hnot => exact absurd hcode hnot

/-- "100 Trying" does not complete the transaction. -/
theorem status_tryInvite {S : SipStack} {t : InviteTransactionServer} (invite : SipMessage)
    (h : t.status = .trying) : (t.tryInvite S invite).1.status ≠ .completed := by
  unfold tryInvite
  split
  · rw [status_respondWith_provisional (by rw [h]; rfl) (by simp)]
    decide
  · rw [h]
    decide

theorem repeats_onReceivedMessage {S : SipStack} (t : InviteTransactionServer) (m : SipMessage) :
    t.Repeats (t.onReceivedMessage S m) := by
  unfold onReceivedMessage
  split
  · split
    · next hwaiting =>
      refine ⟨fun h => absurd h (status_tryInvite m rfl), fun h => ?_⟩
      rw [hwaiting] at h
      cases h
    · split
      · exact ⟨fun h => ⟨h, rfl⟩, fun _ m hm => Transaction.eq_of_mem_repeat hm⟩
      · exact t.repeats_of_stay
  · split
    · exact ⟨fun h => (by cases h), fun _ m hm => by cases hm⟩
    · exact t.repeats_of_stay

/-- A timer that ends the transaction. -/
theorem repeats_terminate {t t' : InviteTransactionServer} :
    t.Repeats { self := t'.terminate.1, calls := t'.terminate.2 } where
  completed h :=
    absurd ((Transaction.InviteServerArmed.status_terminate t').symm.trans h) (by decide)
  sends _ m hm := absurd hm (sends_terminate _ m)

theorem repeats_onTimeout {t t' : InviteTransactionServer} (n : TimerName)
    (hstatus : t'.status = t.status) (hresponse : t'.response = t.response) :
    t.Repeats (t'.onTimeout n) := by
  have hstay : t.Repeats { self := t' } :=
    ⟨fun h => ⟨hstatus ▸ h, hresponse⟩, fun _ m hm => by cases hm⟩
  cases n with
  | retransmission =>
    unfold onTimeout
    dsimp only
    split
    · exact ⟨fun h => ⟨hstatus ▸ h, hresponse⟩,
        fun _ m hm => hresponse ▸ Transaction.eq_of_mem_repeat hm⟩
    · exact hstay
  | ending =>
    unfold onTimeout
    dsimp only
    split
    · exact repeats_terminate
    · exact hstay
  | clearing =>
    unfold onTimeout
    dsimp only
    split
    · exact repeats_terminate
    · exact hstay
  | transaction => exact hstay

theorem repeats_expire (t : InviteTransactionServer) (n : TimerName) :
    t.Repeats (t.expire n) := by
  have hhalt : (t.haltTimer n).status = t.status ∧ (t.haltTimer n).response = t.response := by
    cases n <;> exact ⟨rfl, rfl⟩
  unfold expire
  split
  · unfold Timer.expire
    split
    · split
      · exact repeats_onTimeout n hhalt.1 hhalt.2
      · exact ⟨fun h => ⟨hhalt.1 ▸ h, hhalt.2⟩, fun _ m hm => by cases hm⟩
    · exact t.repeats_of_stay
  · exact t.repeats_of_stay

end InviteTransactionServer

namespace Transaction

variable {S : SipStack}

theorem serverAnswers_inviteServer (p : Running InviteTransactionServer ServerRest)
    (e : TransactionEvent) : ServerAnswers S (inviteServer p) e := by
  obtain ⟨t, r⟩ := p
  cases e with
  | received m conn =>
    cases r with
    | none =>
      obtain ⟨hcompleted, hsends⟩ := t.repeats_onReceivedMessage (S := S) m
      exact ⟨trivial, fun h => .inl (hcompleted h), hsends⟩
    | some k => exact .of_stay trivial rfl rfl
  | expired n =>
    cases r with
    | none =>
      obtain ⟨hcompleted, hsends⟩ := t.repeats_expire n
      exact ⟨trivial, fun h => .inl (hcompleted h), hsends⟩
    | some k => exact .of_stay trivial rfl rfl
  | listen =>
    by_cases hidle : t.status = .idle
    · refine .of_leave trivial ?_ fun hc => ?_
      · show t.listen.1.status ≠ .completed
        rw [InviteTransactionServer.listen, if_pos hidle]
        exact fun h => by cases h
      · have hc : t.status = .completed := hc
        rw [hidle] at hc
        cases hc
    · refine .of_stay trivial ?_ ?_
      · show inviteServer ⟨t.listen.1, r⟩ = inviteServer ⟨t, r⟩
        rw [InviteTransactionServer.listen, if_neg hidle]
      · show t.listen.2 = []
        rw [InviteTransactionServer.listen, if_neg hidle]
  | respondWith resp =>
    refine ⟨trivial, fun _ => .inr ⟨_, rfl, t.response_respondWith resp⟩, fun hc m hm => ?_⟩
    have hm : .sendMessage m ∈ (t.respondWith resp).2 := hm
    rw [InviteTransactionServer.sends_respondWith hc] at hm
    cases hm
  | setAutoTrying autoTrying =>
    exact ⟨trivial, fun h => .inl ⟨h, rfl⟩, fun _ m hm => by cases hm⟩
  | terminate =>
    refine .of_leave trivial ?_ fun _ m => t.sends_terminate m
    show t.terminate.1.status ≠ .completed
    rw [InviteServerArmed.status_terminate]
    decide
  | returns =>
    cases r with
    | none => exact .of_stay trivial rfl rfl
    | some k =>
      cases k with
      | startClearing => exact ⟨trivial, fun h => .inl ⟨h, rfl⟩, fun _ m hm => by cases hm⟩
  | request conn => exact .of_stay trivial rfl rfl
  | respond => exact .of_stay trivial rfl rfl

/-! ## Runs -/

theorem serverAnswers {T : Transaction} (h : T.IsServer) (e : TransactionEvent) :
    ServerAnswers S T e := by
  cases T with
  | server p => exact serverAnswers_server p e
  | inviteServer p => exact serverAnswers_inviteServer p e
  | client p => exact h.elim
  | inviteClient p => exact h.elim
  | ackServer p => exact h.elim

end Transaction

/-- A server transaction, and the final response that moved it to COMPLETED. -/
structure Answering where
  transaction : Transaction
  final : Option SipMessage := none

namespace Answering

open Transaction (Start IsServer passed serverCalls serverAnswers)

variable {S : SipStack}

/-- One event.  What moves the transaction to COMPLETED is its final response. -/
def step (S : SipStack) (A : Answering) (e : TransactionEvent) : Answering where
  transaction := A.transaction.step S e
  final :=
    if A.transaction.status ≠ .completed ∧ (A.transaction.step S e).status = .completed then
      A.transaction.passed e
    else A.final

/-- What is sent in COMPLETED is the final response. -/
def Sticks (S : SipStack) (A : Answering) (e : TransactionEvent) : Prop :=
  A.transaction.status = .completed →
    ∀ m, .sendMessage m ∈ A.transaction.serverCalls S e → A.final = some m

/-- In COMPLETED no response is passed but the final one. -/
def KeepsFinal (A : Answering) (e : TransactionEvent) : Prop :=
  A.transaction.status = .completed → ∀ r, A.transaction.passed e = some r → A.final = some r

/-- The field still holds the final response. -/
structure Kept (A : Answering) : Prop where
  isServer : A.transaction.IsServer
  response : A.transaction.status = .completed → A.transaction.response = A.final

theorem Kept.step {A : Answering} {e : TransactionEvent} (hkeeps : A.KeepsFinal e) (h : A.Kept) :
    (A.step S e).Kept := by
  have hanswers := serverAnswers (S := S) h.isServer e
  refine ⟨hanswers.isServer, fun hc => ?_⟩
  have hc : (A.transaction.step S e).status = .completed := hc
  show (A.transaction.step S e).response = (A.step S e).final
  rcases hanswers.completed hc with ⟨hbefore, hresponse⟩ | ⟨r, hpassed, hresponse⟩
  · rw [hresponse, h.response hbefore]
    exact (if_neg fun hnot => hnot.1 hbefore).symm
  · rw [hresponse]
    by_cases hbefore : A.transaction.status = .completed
    · rw [← hkeeps hbefore r hpassed]
      exact (if_neg fun hnot => hnot.1 hbefore).symm
    · rw [← hpassed]
      exact (if_pos ⟨hbefore, hc⟩).symm

theorem Kept.sticks {A : Answering} (h : A.Kept) (e : TransactionEvent) : A.Sticks S e := by
  intro hc m hm
  rw [← h.response hc]
  exact (serverAnswers h.isServer e).sends hc m hm

theorem kept_of_start {T : Transaction} (h : Start S T) (hserver : T.IsServer) :
    (Answering.mk T none).Kept := by
  refine ⟨hserver, fun hc => ?_⟩
  cases h with
  | server req listener => cases hc
  | listeningServer method listener => cases hc
  | cancelServer req listener => cases hc
  | inviteServer autoTrying invite listener =>
    exact absurd hc (InviteTransactionServer.status_tryInvite invite rfl)
  | listeningInviteServer listener => cases hc
  | client req listener => exact hserver.elim
  | inviteClient req listener => exact hserver.elim
  | ackServer conn invite resp listener => exact hserver.elim

/-- **What is sent in COMPLETED is the final response**, in every run in which no other
response is passed in COMPLETED. -/
theorem final_sticks {T : Transaction} (hT : Start S T) (hserver : T.IsServer)
    {es : List TransactionEvent} (hes : Meets (step S) KeepsFinal ⟨T, none⟩ es)
    (e : TransactionEvent) : (run (step S) ⟨T, none⟩ es).Sticks S e :=
  (run_invariant_of_meets (fun _ _ => Kept.step) hes (kept_of_start hT hserver)).sticks e

/-- The INVITE server that refuses, and then refuses again in the same way. -/
theorem final_sticks_refused :
    (run (step {}) ⟨.inviteServer
        { self := (InviteTransactionServer.new {} sampleInvite true).1 }, none⟩
      [.respondWith (sampleResponse sampleInvite 486),
        .respondWith (sampleResponse sampleInvite 486)]).Sticks {} (.received sampleInvite none) := by
  have hmeets : Meets (step {}) KeepsFinal ⟨.inviteServer
        { self := (InviteTransactionServer.new {} sampleInvite true).1 }, none⟩
      [.respondWith (sampleResponse sampleInvite 486),
        .respondWith (sampleResponse sampleInvite 486)] := by
    refine ⟨fun h => absurd h (by decide +kernel), fun _ r hr => ?_, trivial⟩
    rw [← Option.some.inj hr]
    decide +kernel
  exact final_sticks (.inviteServer true _ _) trivial hmeets _

/-- **A response that comes too late is sent again all the same**: after the refusal 486
a 200 is passed; it is not sent, but a retransmission of the INVITE is answered with it. -/
theorem final_replaced :
    ¬ ∀ (S : SipStack) (T : Transaction), Start S T → T.IsServer →
      ∀ (es : List TransactionEvent) (e : TransactionEvent),
        (run (step S) ⟨T, none⟩ es).Sticks S e := by
  intro h
  have hsticks := h {} _ (.inviteServer true sampleInvite true) trivial
    [.respondWith (sampleResponse sampleInvite 486),
      .respondWith (sampleResponse sampleInvite 200)] (.received sampleInvite none)
    (by decide +kernel) (sampleResponse sampleInvite 200) (by decide +kernel)
  revert hsticks
  decide +kernel

end Answering
end SoftPhone
