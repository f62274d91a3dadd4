import Mathlib.Logic.Relation
import SoftPhone.Registration.RegistrationClient
import SoftPhone.Transaction.ClientState

/-!
# What one event can do to a registration client

`Move` lists what the methods of the client are made of: the user's call is noted, the
loop is switched on or off, a REGISTER is made from nothing (`Registers`), a challenged
REGISTER is sent again with credentials (`Answers`), and everything else (`Quiet`), which
starts no transaction and changes neither the loop nor what it registers for.  Every event
is a chain of moves (`moves_step`), so an invariant has to be checked for six moves
(`invariant_step`).

A move names its reason.  A REGISTER with a non-zero expiration time is made from nothing
because the user has just asked for it or because the loop is on (`Due`); one is sent
again because it was challenged (`answered`) or because the timer of its transaction has
expired (`resent`).
-/

namespace SoftPhone

open Machine Relation

/-- The calls that register the contact. -/
def RegistrationCall.Registers : RegistrationCall → Prop
  | .register | .registerFor _ | .registerWithBody _ _ _ | .loopRegister _ _ => True
  | .unregister | .unregisterall | .halt | .run => False

/-- A challenge that can be answered without a null pointer. -/
def Challenge.Answerable (A : RegistrationAccount) (ch : Challenge) : Prop :=
  A.username ≠ none ∧ ch.realm ≠ none ∧ ch.nonce ≠ none

instance (A : RegistrationAccount) (ch : Challenge) : Decidable (ch.Answerable A) :=
  inferInstanceAs (Decidable (_ ∧ _ ∧ _))

namespace Registration

/-- The response that comes, the request it challenges and the challenge, when the event
is a challenge that may be answered. -/
def answered (A : RegistrationAccount) (w : Registration) :
    RegistrationEvent → Option (SipMessage × SipMessage × Challenge)
  | .recv m =>
    match (w.sipListeners (.transactionClient m)).bind w.transactions.get with
    | none => none
    | some t =>
      if t.status.isPending then (w.client.challenge A m).map fun ch => (m, t.request, ch)
      else none
  | _ => none

/-- The request that is sent again, when the event is the timer that makes a transaction
do so. -/
def resent (w : Registration) : RegistrationEvent → Option SipMessage
  | .expire r .retransmission =>
    match w.transactions.get r with
    | none => none
    | some t =>
      if t.retransmissionTo.Delivers ∧ t.status.isPending ∧ t.connectionId = none then
        some t.request
      else none
  | _ => none

/-- What may be observed without any REGISTER being started. -/
def Minor (w₀ : Registration) (e : RegistrationEvent) (w : Registration) :
    RegistrationObs → Prop
  | .sent m => m ∈ w₀.resent e
  | .scheduled _ _ => w.client.loop = true
  | .onRegistrationSuccess _ _ | .onRegistrationFailure _ => True
  | .called _ | .registering _ => False

/-- Nothing is started. -/
structure Quiet (w₀ : Registration) (e : RegistrationEvent) (w w' : Registration) : Prop where
  transactions : w.transactions.Extends (·.request) w'.transactions []
  branches : w'.branches = w.branches
  loop : w'.client.loop = w.client.loop
  expires : w'.client.expireTime = w.client.expireTime
  attempts : w'.client.attempts = w.client.attempts
  log : ∃ l, w'.log = l ++ w.log ∧ ∀ o ∈ l, Minor w₀ e w o

/-- A REGISTER for `expireTime` seconds is made, and sent unless there is a null pointer. -/
structure Registers (S : SipStack) (expireTime : ℤ) (req : Option SipMessage)
    (w w' : Registration) : Prop where
  transactions : w.transactions.Extends (·.request) w'.transactions req.toList
  branches : w'.branches = w.branches + 1
  loop : w'.client.loop = w.client.loop
  expires : w'.client.expireTime =
    if 0 < expireTime then expireTime else w.client.expireTime
  attempts : w'.client.attempts = 0
  log : w'.log = req.toList.map .sent ++ .registering expireTime :: w.log
  made : ∀ r ∈ req, r.expires = some expireTime ∧ r.branch = some (S.pickBranch w.branches)

/-- The challenged request is sent again with credentials, unless there is a null pointer;
`p` is the response, the request and the challenge. -/
structure Answers (A : RegistrationAccount) (S : SipStack)
    (p : SipMessage × SipMessage × Challenge) (req : Option SipMessage)
    (w w' : Registration) : Prop where
  transactions : w.transactions.Extends (·.request) w'.transactions req.toList
  branches : w'.branches = w.branches + if p.1.code = 401 then 1 else 0
  loop : w'.client.loop = w.client.loop
  expires : w'.client.expireTime = w.client.expireTime
  attempts : w'.client.attempts = w.client.attempts + 1
  bound : w.client.attempts < A.regcAuthAttempts
  log : w'.log = req.toList.map .sent ++ w.log
  answerable : req ≠ none → p.2.2.Answerable A
  made : ∀ r ∈ req, r.expires = p.2.1.expires ∧
    r.branch = if p.1.code = 401 then some (S.pickBranch w.branches) else p.2.1.branch

/-- Why a REGISTER is made from nothing. -/
inductive Due (w : Registration) (expireTime : ℤ) : Prop where
  | asked {c : RegistrationCall} (h : w.log.head? = some (.called c))
      (hc : c.Registers ∨ expireTime = 0)
  | loop (hloop : w.client.loop = true) (h : expireTime = w.client.expireTime)

/-- What an event `e` in the state `w₀` is made of. -/
inductive Move (A : RegistrationAccount) (S : SipStack) (w₀ : Registration)
    (e : RegistrationEvent) : Registration → Registration → Prop where
  | quiet {w w' : Registration} (h : Quiet w₀ e w w') : Move A S w₀ e w w'
  | called {c : RegistrationCall} (he : e = .call c) (hc : c ≠ .halt) :
      Move A S w₀ e w₀ (w₀.observe (.called c))
  | halts (he : e = .call .halt) : Move A S w₀ e w₀ (w₀.observe (.called .halt)).halt
  | loops {w w' : Registration} {expireTime renewTime : ℤ}
      (h : w.log.head? = some (.called (.loopRegister expireTime renewTime)))
      (hw' : w' = { w with client := w'.client })
      (hattempts : w'.client.attempts = w.client.attempts) : Move A S w₀ e w w'
  | registers {w w' : Registration} {expireTime : ℤ} {req : Option SipMessage}
      (hdue : w.Due expireTime) (h : Registers S expireTime req w w') : Move A S w₀ e w w'
  | answers {w w' : Registration} {p : SipMessage × SipMessage × Challenge}
      {req : Option SipMessage} (hp : p ∈ answered A w₀ e) (h : Answers A S p req w w') :
      Move A S w₀ e w w'

/-- A chain of moves. -/
abbrev Moves (A : RegistrationAccount) (S : SipStack) (w₀ : Registration)
    (e : RegistrationEvent) : Registration → Registration → Prop :=
  ReflTransGen (Move A S w₀ e)

variable {A : RegistrationAccount} {S : SipStack} {w₀ : Registration} {e : RegistrationEvent}

/-! ## Quiet moves -/

theorem Quiet.refl (w : Registration) : Quiet w₀ e w w :=
  ⟨.refl _ _, rfl, rfl, rfl, rfl, [], rfl, by simp⟩

theorem Minor.congr {w w' : Registration} (hloop : w'.client.loop = w.client.loop)
    {o : RegistrationObs} (h : Minor w₀ e w' o) : Minor w₀ e w o := by
  cases o with
  | scheduled n time =>
    show w.client.loop = true
    rw [← hloop]
    exact h
  | _ => exact h

theorem Quiet.trans {w w' w'' : Registration} (h : Quiet w₀ e w w') (h' : Quiet w₀ e w' w'') :
    Quiet w₀ e w w'' := by
  obtain ⟨l, hl, hminor⟩ := h.log
  obtain ⟨l', hl', hminor'⟩ := h'.log
  refine ⟨h.transactions.trans h'.transactions, h'.branches.trans h.branches,
    h'.loop.trans h.loop, h'.expires.trans h.expires, h'.attempts.trans h.attempts,
    l' ++ l, by rw [hl', hl, List.append_assoc], fun o ho => ?_⟩
  rcases List.mem_append.mp ho with ho | ho
  · exact (hminor' o ho).congr h.loop
  · exact hminor o ho

theorem Quiet.moves {w w' : Registration} (h : Quiet w₀ e w w') : Moves A S w₀ e w w' :=
  .single (.quiet h)

/-- A change of the fields of the client that nothing depends on. -/
theorem quiet_client (w : Registration) {c : RegistrationClient} (hloop : c.loop = w.client.loop)
    (hexpire : c.expireTime = w.client.expireTime) (hattempts : c.attempts = w.client.attempts) :
    Quiet w₀ e w { w with client := c } :=
  ⟨.refl _ _, rfl, hloop, hexpire, hattempts, [], rfl, by simp⟩

theorem quiet_setTimer (w : Registration) (t : Option RenewalTimer) (n : RenewalTimerName) :
    Quiet w₀ e w { w with client := w.client.setTimer t n } := by
  cases n <;> exact quiet_client w rfl rfl rfl

theorem quiet_observe (w : Registration) {o : RegistrationObs} (ho : Minor w₀ e w o) :
    Quiet w₀ e w (w.observe o) :=
  ⟨.refl _ _, rfl, rfl, rfl, rfl, [o], rfl, by simpa using ho⟩

/-- What the calls of a transaction add to the log, newest first. -/
def sents (cs : List ProviderCall) : List RegistrationObs :=
  (cs.filterMap fun
    | .sendMessage m => some (RegistrationObs.sent m)
    | _ => none).reverse

theorem sendMessage_of_mem_sents {o : RegistrationObs} {cs : List ProviderCall}
    (ho : o ∈ sents cs) : ∃ m, .sendMessage m ∈ cs ∧ o = .sent m := by
  simp only [sents, List.mem_reverse, List.mem_filterMap] at ho
  obtain ⟨c, hc, ho⟩ := ho
  cases c with
  | sendMessage m => exact ⟨m, hc, (Option.some.inj ho).symm⟩
  | addSelectiveListener => cases ho
  | removeSelectiveListener => cases ho

/-- The calls of a transaction leave everything alone but the log and the provider. -/
theorem calls_spec (w : Registration) (r : ℕ) (cs : List ProviderCall) :
    (w.calls r cs).client = w.client ∧ (w.calls r cs).branches = w.branches ∧
      (w.calls r cs).transactions = w.transactions ∧ (w.calls r cs).log = sents cs ++ w.log := by
  unfold calls
  induction cs generalizing w with
  | nil => exact ⟨rfl, rfl, rfl, rfl⟩
  | cons c cs ih =>
    rw [List.foldl_cons]
    obtain ⟨hclient, hbranches, htransactions, hlog⟩ := ih (call r w c)
    refine ⟨hclient.trans ?_, hbranches.trans ?_, htransactions.trans ?_, hlog.trans ?_⟩
    · cases c <;> rfl
    · cases c <;> rfl
    · cases c <;> rfl
    · cases c <;> simp [sents, call]

/-- A transaction changes, keeps its request, and sends at most what is due. -/
theorem quiet_put {w : Registration} {r : ℕ} {t t' : TransactionClient} {cs : List ProviderCall}
    (hget : w.transactions.get r = some t) (hreq : t'.request = t.request)
    (hcs : ∀ m, .sendMessage m ∈ cs → m ∈ w₀.resent e) :
    Quiet w₀ e w ({ w with transactions := w.transactions.put r t' }.calls r cs) := by
  obtain ⟨hclient, hbranches, htransactions, hlog⟩ :=
    calls_spec { w with transactions := w.transactions.put r t' } r cs
  refine ⟨?_, hbranches, by rw [hclient], by rw [hclient], by rw [hclient], sents cs, hlog, ?_⟩
  · rw [htransactions]
    exact Heap.extends_put hget hreq
  · intro o ho
    obtain ⟨m, hm, rfl⟩ := sendMessage_of_mem_sents ho
    exact hcs m hm

theorem quiet_suspend (w : Registration) (r : ℕ) (rest : Option ClientRest) :
    Quiet w₀ e w (w.suspend r rest) :=
  ⟨.refl _ _, rfl, rfl, rfl, rfl, [], rfl, by simp⟩

/-! ## Transactions -/

theorem sends_doTerminate (t : TransactionClient) (m : SipMessage) :
    .sendMessage m ∉ t.doTerminate.2 := by
  unfold TransactionClient.doTerminate
  split <;> simp

theorem sends_resume (t : TransactionClient) (k : ClientRest) (m : SipMessage) :
    .sendMessage m ∉ (t.resume k).2 := by
  cases k with
  | settle =>
    unfold TransactionClient.resume
    dsimp only
    split
    · exact List.not_mem_nil
    · exact sends_doTerminate t m
  | dropListener => exact List.not_mem_nil

theorem sends_onReceivedMessage (t : TransactionClient) (m resp : SipMessage) :
    .sendMessage m ∉ (t.onReceivedMessage resp).calls := by
  unfold TransactionClient.onReceivedMessage
  split
  · exact List.not_mem_nil
  · split
    · exact List.not_mem_nil
    · split <;> exact List.not_mem_nil

/-- The retransmission timer makes a pending transaction send its request. -/
theorem sends_retransmission {t : TransactionClient} {m : SipMessage}
    (hm : .sendMessage m ∈ (t.onTimeout .retransmission).calls) :
    (t.status.isPending ∧ t.connectionId = none) ∧ m = t.request := by
  unfold TransactionClient.onTimeout at hm
  dsimp only at hm
  split at hm
  · next hsend => exact ⟨hsend, by simpa using hm⟩
  · exact absurd hm List.not_mem_nil

/-- A timer makes the transaction send its request, and that is `resent`. -/
theorem sends_expire {w : Registration} {r : ℕ} {t : TransactionClient} {n : TimerName}
    (hget : w.transactions.get r = some t) {m : SipMessage}
    (hm : .sendMessage m ∈ (t.expire n).calls) : m ∈ w.resent (.expire r n) := by
  cases n with
  | ending => exact absurd hm List.not_mem_nil
  | retransmission =>
    simp only [TransactionClient.expire, TransactionClient.timer, Timer.expire] at hm
    split at hm
    · next hrun =>
      split at hm
      · next hlisten =>
        obtain ⟨hsend, rfl⟩ := sends_retransmission hm
        rw [resent, hget]
        dsimp only
        rw [if_pos ⟨⟨hrun, hlisten⟩, hsend⟩]
        rfl
      · exact absurd hm List.not_mem_nil
    · exact absurd hm List.not_mem_nil
  | transaction =>
    simp only [TransactionClient.expire, TransactionClient.timer, Timer.expire] at hm
    split at hm
    · split at hm
      · exact absurd hm (sends_doTerminate _ m)
      · exact absurd hm List.not_mem_nil
    · exact absurd hm List.not_mem_nil
  | clearing =>
    simp only [TransactionClient.expire, TransactionClient.timer, Timer.expire] at hm
    split at hm
    · split at hm
      · exact absurd hm (sends_doTerminate _ m)
      · exact absurd hm List.not_mem_nil
    · exact absurd hm List.not_mem_nil

/-- A transaction that is started. -/
theorem startClient_spec (w : Registration) (req : SipMessage) :
    w.transactions.Extends (·.request) (w.startClient S req).transactions [req] ∧
      (w.startClient S req).client = w.client ∧ (w.startClient S req).branches = w.branches ∧
      (w.startClient S req).log = .sent req :: w.log := by
  unfold startClient
  extract_lets t
  obtain ⟨hclient, hbranches, htransactions, hlog⟩ :=
    calls_spec { w with transactions := w.transactions.new t.1 } w.transactions.next t.2
  refine ⟨?_, hclient, hbranches, hlog⟩
  rw [htransactions]
  exact Heap.extends_new _ _

/-! ## Registering -/

theorem registers_register (w : Registration) (expireTime : ℤ) (contentType body : Option String) :
    ∃ req, Registers S expireTime req w (w.register A S expireTime contentType body).1 := by
  unfold register
  extract_lets w₁ c₁ w₂ req₀ req w₃
  split
  · exact ⟨none, .refl _ _, rfl, rfl, rfl, rfl, rfl, by simp⟩
  · next authorization _ =>
    extract_lets req₁ req₂
    obtain ⟨htransactions, hclient, hbranches, hlog⟩ := startClient_spec (S := S) w₃ req₂
    refine ⟨some req₂, htransactions, hbranches, by rw [hclient]; rfl, by rw [hclient]; rfl,
      by rw [hclient], hlog, ?_⟩
    rintro r hr
    obtain rfl := Option.some.inj hr
    unfold req₂
    split <;> exact ⟨rfl, rfl⟩

theorem moves_register {w : Registration} {expireTime : ℤ} (hdue : w.Due expireTime)
    (contentType body : Option String) :
    Moves A S w₀ e w (w.register A S expireTime contentType body).1 := by
  obtain ⟨req, h⟩ := registers_register (A := A) (S := S) w expireTime contentType body
  exact .single (.registers hdue h)

theorem moves_registerAgain {w : Registration} (hloop : w.client.loop = true) :
    Moves A S w₀ e w (w.registerAgain A S).1 :=
  moves_register (.loop hloop rfl) none none

theorem moves_unregisterall {w : Registration}
    (hlog : w.log.head? = some (.called .unregisterall)) :
    Moves A S w₀ e w (w.unregisterall A S) := by
  have h : ∃ req, Registers S 0 req w (w.unregisterall A S) := by
    unfold unregisterall
    extract_lets w₁ c₁ w₂ req₀ req
    obtain ⟨htransactions, hclient, hbranches, hlog⟩ := startClient_spec (S := S)
      { w₂ with branches := w₂.branches + 1, requests := w₂.requests + 1 } req
    refine ⟨some req, htransactions, hbranches, by rw [hclient]; rfl, by rw [hclient]; rfl,
      by rw [hclient], hlog, ?_⟩
    rintro r hr
    rw [← Option.some.inj hr]
    exact ⟨rfl, rfl⟩
  obtain ⟨req, h⟩ := h
  exact .single (.registers (.asked hlog (.inr rfl)) h)

theorem moves_runRound (w : Registration) : Moves A S w₀ e w (w.runRound A S) := by
  unfold runRound
  split
  · next hloop =>
    extract_lets p
    have hp : Moves A S w₀ e w p.1 := moves_registerAgain hloop
    split
    · exact hp.tail (.quiet ⟨.refl _ _, rfl, rfl, rfl, rfl, [], rfl, by simp⟩)
    · exact hp.tail (.quiet (quiet_client _ rfl rfl rfl))
  · refine Quiet.moves ?_
    exact quiet_client w rfl rfl rfl

/-- A timer is started for the loop. -/
theorem moves_schedule {w : Registration} (hloop : w.client.loop = true) (n : RenewalTimerName)
    (time : ℤ) : Moves A S w₀ e w (w.schedule A S n time).1 := by
  unfold schedule
  extract_lets w₁ w₂
  have h₁ : Quiet w₀ e w w₁ := quiet_setTimer w _ n
  have hloop₁ : w₁.client.loop = true := h₁.loop.trans hloop
  split
  · exact h₁.moves
  · have h₂ : Quiet w₀ e w w₂ := h₁.trans (quiet_observe w₁ hloop₁)
    split
    · exact h₂.moves.trans (moves_registerAgain hloop₁)
    · exact h₂.moves

/-! ## Callbacks -/

/-- The loop waits for the next registration, and the listener is told. -/
theorem moves_report {w w₁ : Registration} (h₁ : Quiet w₀ e w w₁) (n : RenewalTimerName) (time : ℤ)
    {o : RegistrationObs} (ho : ∀ w, Minor w₀ e w o) :
    Moves A S w₀ e w
      (let p := if w.client.loop then w₁.schedule A S n time else (w, true)
      if p.2 then (p.1.observe o, true) else p).1 := by
  extract_lets p
  have hp : Moves A S w₀ e w p.1 := by
    unfold p
    split
    · next hloop => exact h₁.moves.trans (moves_schedule (h₁.loop.trans hloop) n time)
    · exact .refl
  split
  · exact hp.tail (.quiet (quiet_observe _ (ho _)))
  · exact hp

theorem moves_onTransSuccessResponse (w : Registration) (m : SipMessage) :
    Moves A S w₀ e w (w.onTransSuccessResponse A S m).1 := by
  unfold onTransSuccessResponse
  extract_lets expires c₁ w₁
  have h₁ : Quiet w₀ e w w₁ := quiet_client w rfl rfl rfl
  refine h₁.moves.trans (moves_report ?_ .registration _ fun _ => ?_)
  · exact quiet_client w₁ rfl rfl rfl
  · trivial

theorem moves_onRegistrationFailure (w : Registration) (m : SipMessage) :
    Moves A S w₀ e w (w.onRegistrationFailure A S m).1 := by
  refine moves_report ?_ .attempt _ fun _ => ?_
  · exact quiet_client w rfl rfl rfl
  · trivial

theorem moves_onTransTimeout (w : Registration) : Moves A S w₀ e w (w.onTransTimeout A S).1 := by
  refine moves_report ?_ .attempt _ fun _ => ?_
  · exact quiet_client w rfl rfl rfl
  · trivial

/-- The request is sent again, or there is a null pointer. -/
theorem sendAgain_spec (w : Registration) (req : SipMessage) (ch : Challenge)
    (authorize : SipMessage → Credentials → SipMessage) :
    (w.sendAgain A S req ch authorize).1 = w ∨
      (A.username ≠ none ∧ ch.nonce ≠ none) ∧ ∃ credentials,
        (w.sendAgain A S req ch authorize).1 = w.startClient S (authorize req credentials) := by
  unfold sendAgain
  split
  · exact .inl rfl
  · next hsend => exact .inr ⟨not_or.mp hsend, _, rfl⟩

theorem answers_sendAgain {w v : Registration} {p : SipMessage × SipMessage × Challenge}
    {realm : String} (hrealm : p.2.2.realm = some realm)
    (hv : v = { w with
      client := w.client.challenged p.2.2 realm
      branches := w.branches + if p.1.code = 401 then 1 else 0 })
    (hbound : w.client.attempts < A.regcAuthAttempts) (req : SipMessage)
    (authorize : SipMessage → Credentials → SipMessage)
    (hmade : ∀ credentials, (authorize req credentials).expires = p.2.1.expires ∧
      (authorize req credentials).branch =
        if p.1.code = 401 then some (S.pickBranch w.branches) else p.2.1.branch) :
    ∃ again, Answers A S p again w (v.sendAgain A S req p.2.2 authorize).1 := by
  obtain rfl := hv
  rcases sendAgain_spec (A := A) (S := S) _ req p.2.2 authorize with heq | ⟨hsend, credentials, heq⟩
  · rw [heq]
    exact ⟨none, .refl _ _, rfl, rfl, rfl, rfl, hbound, rfl, by simp, by simp⟩
  · rw [heq]
    obtain ⟨htransactions, hclient, hbranches, hlog⟩ := startClient_spec (S := S)
      { w with
        client := w.client.challenged p.2.2 realm
        branches := w.branches + if p.1.code = 401 then 1 else 0 } (authorize req credentials)
    refine ⟨some (authorize req credentials), htransactions, hbranches, by rw [hclient]; rfl,
      by rw [hclient]; rfl, by rw [hclient]; rfl, hbound, hlog, fun _ =>
      ⟨hsend.1, by simp [hrealm], hsend.2⟩, ?_⟩
    rintro r hr
    rw [← Option.some.inj hr]
    exact hmade credentials

theorem challenge_bound {c : RegistrationClient} {m : SipMessage} {ch : Challenge}
    (h : c.challenge A m = some ch) : c.attempts < A.regcAuthAttempts := by
  unfold RegistrationClient.challenge at h
  split at h
  · next hlt => exact hlt
  · cases h

theorem moves_onTransFailureResponse {w : Registration} {req m : SipMessage}
    (hanswered : ∀ ch, w.client.challenge A m = some ch → (m, req, ch) ∈ answered A w₀ e) :
    Moves A S w₀ e w (w.onTransFailureResponse A S req m).1 := by
  unfold onTransFailureResponse
  split
  · next ch hch =>
    have hmem := hanswered ch hch
    have hbound := challenge_bound hch
    split
    · next hcode =>
      unfold onServerChallenge
      split
      · exact .refl
      · next realm hrealm =>
        obtain ⟨again, h⟩ := answers_sendAgain (A := A) (S := S) (w := w) (p := (m, req, ch)) hrealm
          (by rw [if_pos hcode])
          hbound { req with cseq := req.cseq + 1, branch := some (S.pickBranch w.branches) }
          (fun req credentials => { req with authorization := some credentials })
          fun _ => ⟨rfl, by rw [if_pos hcode]⟩
        exact .single (.answers hmem h)
    · next hcode =>
      unfold onProxyChallenge
      split
      · exact .refl
      · next realm hrealm =>
        obtain ⟨again, h⟩ := answers_sendAgain (A := A) (S := S) (w := w) (p := (m, req, ch)) hrealm
          (by rw [if_neg hcode, Nat.add_zero]) hbound { req with cseq := req.cseq + 1 }
          (fun req credentials => { req with proxyAuthorization := some credentials })
          fun _ => ⟨rfl, by rw [if_neg hcode]⟩
        exact .single (.answers hmem h)
  · exact moves_onRegistrationFailure w m

/-! ## Events -/

/-- What a transaction did, and its callback. -/
theorem moves_clientDid {w : Registration} {r : ℕ} {t : TransactionClient}
    {o : Outcome TransactionClient ClientCallback ClientRest}
    (hget : w.transactions.get r = some t) (hreq : o.self.request = t.request)
    (hcs : ∀ m, .sendMessage m ∈ o.calls → m ∈ w.resent e)
    (hanswered : ∀ m ch, o.callback = some (.onTransFailureResponse m) →
      w.client.challenge A m = some ch → (m, t.request, ch) ∈ answered A w e) :
    Moves A S w e w (w.clientDid A S r o) := by
  have hput : Quiet w e w (w.putClient r o) := quiet_put hget hreq hcs
  have hclient : (w.putClient r o).client = w.client :=
    (calls_spec { w with transactions := w.transactions.put r o.self } r o.calls).1
  unfold clientDid
  split
  · exact (hput.trans (quiet_suspend ..)).moves
  · next c hc =>
    extract_lets p
    have hp : Moves A S w e (w.putClient r o) p.1 := by
      unfold p
      cases c with
      | onTransProvisionalResponse m => exact .refl
      | onTransSuccessResponse m => exact moves_onTransSuccessResponse ..
      | onTransFailureResponse m =>
        refine moves_onTransFailureResponse fun ch hch => ?_
        rw [hreq]
        rw [hclient] at hch
        exact hanswered m ch hc hch
      | onTransTimeout => exact moves_onTransTimeout _
    split
    · exact (hput.moves.trans hp).tail (.quiet (quiet_suspend ..))
    · exact hput.moves.trans hp

theorem moves_receive (w : Registration) (m : SipMessage) :
    Moves A S w (.recv m) w (w.receive A S m) := by
  unfold receive
  split
  · exact .refl
  · next r hr =>
    split
    · exact .refl
    · next t hget =>
      refine moves_clientDid hget (t.step_onReceivedMessage m).request_eq
        (fun m' hm' => absurd hm' (sends_onReceivedMessage t m' m)) fun m' ch hc hch => ?_
      obtain rfl := TransactionClient.message_onReceivedMessage hc rfl
      have hstep := t.step_onReceivedMessage m'
      rw [hc] at hstep
      have hpending : t.status.isPending = true := (hstep.pending_of_message rfl).1
      rw [answered, hr, Option.bind_some, hget]
      dsimp only
      rw [if_pos hpending, hch]
      rfl

theorem moves_expire (w : Registration) (r : ℕ) (n : TimerName) :
    Moves A S w (.expire r n) w (w.expire A S r n) := by
  unfold expire
  split
  · exact .refl
  · next t hget =>
    refine moves_clientDid hget (t.step_expire n).request_eq (fun m hm => sends_expire hget hm)
      fun m ch hc _ => ?_
    cases TransactionClient.message_expire hc

theorem moves_returns (w : Registration) : Moves A S w₀ e w w.returns := by
  unfold returns
  split
  · exact .refl
  · next r k stack _ =>
    split
    · exact Quiet.moves ⟨.refl _ _, rfl, rfl, rfl, rfl, [], rfl, by simp⟩
    · next t hget =>
      have hstack : Quiet w₀ e w { w with stack := stack } :=
        ⟨.refl _ _, rfl, rfl, rfl, rfl, [], rfl, by simp⟩
      exact (hstack.trans (quiet_put hget (t.state_resume k).2.1 fun m hm =>
        absurd hm (sends_resume t k m))).moves

theorem moves_onTimeout (w : Registration) (n : RenewalTimerName) :
    Moves A S w₀ e w (w.onTimeout A S n) := by
  unfold onTimeout
  split
  · exact .refl
  · split
    · extract_lets w₁
      have h₁ : Quiet w₀ e w w₁ := quiet_setTimer w _ n
      split
      · next hloop => exact h₁.moves.trans (moves_registerAgain hloop)
      · exact h₁.moves
    · exact .refl

theorem moves_perform {w : Registration} {c : RegistrationCall} (hc : c ≠ .halt)
    (hlog : w.log.head? = some (.called c)) : Moves A S w₀ e w (w.perform A S c) := by
  cases c with
  | register => exact moves_register (.asked hlog (.inl trivial)) none none
  | registerFor => exact moves_register (.asked hlog (.inl trivial)) none none
  | registerWithBody => exact moves_register (.asked hlog (.inl trivial)) _ _
  | unregister => exact moves_register (.asked hlog (.inr rfl)) none none
  | unregisterall => exact moves_unregisterall hlog
  | loopRegister expireTime renewTime =>
    refine .trans (?_ : Moves A S w₀ e w _) (moves_register ?_ none none)
    · exact .single (.loops hlog rfl rfl)
    · exact .asked hlog (.inl trivial)
  | halt => exact absurd rfl hc
  | run =>
    exact (quiet_client w (c := { w.client with isRunning := true }) rfl rfl rfl).moves.trans
      (moves_runRound _)

/-- **Every event is a chain of moves.** -/
theorem moves_step (w : Registration) (e : RegistrationEvent) :
    Moves A S w e w (w.step A S e) := by
  cases e with
  | call c =>
    by_cases hc : c = .halt
    · obtain rfl := hc
      exact .single (.halts rfl)
    · exact (ReflTransGen.single (.called rfl hc)).trans (moves_perform hc rfl)
  | recv m => exact moves_receive w m
  | expire r n => exact moves_expire w r n
  | renewal n => exact moves_onTimeout w n
  | wake =>
    unfold step
    dsimp only
    split
    · have hwake : Quiet w .wake w { w with sleepers := w.sleepers - 1 } :=
        ⟨.refl _ _, rfl, rfl, rfl, rfl, [], rfl, by simp⟩
      exact hwake.moves.trans (moves_runRound _)
    · exact .refl
  | interrupt =>
    unfold step
    dsimp only
    split
    · exact Quiet.moves ⟨.refl _ _, rfl, rfl, rfl, rfl, [], rfl, by simp⟩
    · exact .refl
  | ret => exact moves_returns w

/-- An invariant of every move is one of every event. -/
theorem invariant_step {I : Registration → Prop} {w : Registration} {e : RegistrationEvent}
    (hmove : ∀ v v', Move A S w e v v' → I v → I v') (hw : I w) : I (w.step A S e) := by
  have hchain := moves_step (A := A) (S := S) w e
  generalize w.step A S e = w' at hchain
  induction hchain with
  | refl => exact hw
  | tail _ hlast ih => exact hmove _ _ hlast ih

end Registration
end SoftPhone
