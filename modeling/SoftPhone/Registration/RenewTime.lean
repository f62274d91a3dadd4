import SoftPhone.Registration.Renewal
import SoftPhone.Text.ContactExpires

/-!
# The time until the next registration

A success response may grant an expiration time to the contact of the client: with the expires
parameter of this contact, or, where it has none, with the Expires header.  The next REGISTER should be
sent before this time is over, and no later than the configured renew time.

The renew time is never longer than the configured one, in every run (`renewTime_le_configured`).  But
the client takes an Expires header before the parameters of the contacts, and it takes no time that is
not positive.  So the next REGISTER may come too late (`renewsInTime_iff`).
-/

namespace SoftPhone

open Machine

/-! ## What is granted -/

variable {IsDate : ℤ → Fin 12 → ℤ → Prop}

/-- The contacts of the response have these values, and all their expiration times can be read. -/
def SipMessage.HasContacts (m : SipMessage) (c : Calendar IsDate) (now : ℤ) (values : List Text) :
    Prop :=
  values.map (ContactHeader.getExpires c now) = m.contactExpires.map some

/-- The expiration time that is granted to the contact with this value, if it is in the response: that
of its expires parameter, or else that of the Expires header. -/
def SipMessage.granted (m : SipMessage) (c : Calendar IsDate) (now : ℤ) (own : Option Text) :
    Option ℤ :=
  match own.bind (ContactHeader.getExpires c now) with
  | some e => if 0 ≤ e then some e else m.expires
  | none => m.expires

/-- A transaction that waits passes a success response on. -/
theorem TransactionClient.callback_of_success {t : TransactionClient} {m : SipMessage} {code : ℤ}
    (hpending : t.status.isPending = true) (hlistener : t.listener = true)
    (hcode : m.code? = some code) (hlow : 200 ≤ code) (hhigh : code < 300) :
    (t.onReceivedMessage m).callback = some (.onTransSuccessResponse m) := by
  unfold onReceivedMessage
  rw [hcode]
  dsimp only
  rw [if_neg (by omega), if_pos ⟨hlow, by omega, hpending⟩, if_pos hhigh]
  exact if_pos hlistener

namespace Registration

variable {A : RegistrationAccount} {S : SipStack}

/-! ## The renew time -/

/-- The renew time that was configured last. -/
def configured : List RegistrationObs → ℤ
  | [] => defaultExpires
  | .called (.loopRegister _ renewTime) :: _ => renewTime
  | _ :: log => configured log

theorem configured_cons {o : RegistrationObs} (ho : o.isCall = false)
    (log : List RegistrationObs) : configured (o :: log) = configured log := by
  cases o with
  | called => cases ho
  | _ => rfl

/-- The renew time becomes no longer, and nothing is configured. -/
structure Lowers (w w' : Registration) : Prop where
  renewTime : w'.client.renewTime ≤ w.client.renewTime
  configured : Registration.configured w'.log = Registration.configured w.log

theorem Lowers.refl (w : Registration) : Lowers w w := ⟨Int.le_refl _, rfl⟩

theorem Lowers.trans {w w' w'' : Registration} (h : Lowers w w') (h' : Lowers w' w'') :
    Lowers w w'' :=
  ⟨Int.le_trans h'.renewTime h.renewTime, h'.configured.trans h.configured⟩

theorem lowers_observe (w : Registration) {o : RegistrationObs} (ho : o.isCall = false) :
    Lowers w (w.observe o) :=
  ⟨Int.le_refl _, configured_cons ho _⟩

/-- A change of the fields of the client. -/
theorem lowers_client (w : Registration) {c : RegistrationClient}
    (h : c.renewTime ≤ w.client.renewTime) : Lowers w { w with client := c } :=
  ⟨h, rfl⟩

theorem lowers_setTimer (w : Registration) (t : Option RenewalTimer) (n : RenewalTimerName) :
    Lowers w { w with client := w.client.setTimer t n } := by
  cases n <;> exact lowers_client w (Int.le_refl _)

/-- The calls of a transaction are no calls of the user. -/
theorem lowers_calls (w : Registration) (r : ℕ) (cs : List ProviderCall) :
    Lowers w (w.calls r cs) := by
  obtain ⟨hclient, -, -, hlog⟩ := calls_spec w r cs
  refine ⟨by rw [hclient], ?_⟩
  rw [hlog]
  refine append_of_not_isCall configured_cons (fun o ho => ?_) w.log
  obtain ⟨m, -, rfl⟩ := sendMessage_of_mem_sents ho
  rfl

theorem lowers_startClient (w : Registration) (req : SipMessage) :
    Lowers w (w.startClient S req) := by
  unfold startClient
  extract_lets t
  have hnew : Lowers w { w with transactions := w.transactions.new t.1 } := ⟨Int.le_refl _, rfl⟩
  exact hnew.trans (lowers_calls ..)

theorem lowers_register (w : Registration) (expireTime : ℤ) (contentType body : Option String) :
    Lowers w (w.register A S expireTime contentType body).1 := by
  unfold register
  extract_lets w₁ c₁ w₂ req₀ req w₃
  have h₁ : Lowers w w₁ := lowers_observe w rfl
  have h₃ : Lowers w w₃ := h₁.trans ⟨Int.le_refl _, rfl⟩
  split
  · exact h₃
  · exact h₃.trans (lowers_startClient ..)

theorem lowers_registerAgain (w : Registration) : Lowers w (w.registerAgain A S).1 :=
  lowers_register ..

theorem lowers_unregisterall (w : Registration) : Lowers w (w.unregisterall A S) := by
  unfold unregisterall
  extract_lets w₁ c₁ w₂ req₀ req
  have h₁ : Lowers w w₁ := lowers_observe w rfl
  have h₂ : Lowers w { w₂ with branches := w₂.branches + 1, requests := w₂.requests + 1 } :=
    h₁.trans ⟨Int.le_refl _, rfl⟩
  exact h₂.trans (lowers_startClient ..)

theorem lowers_runRound (w : Registration) : Lowers w (w.runRound A S) := by
  unfold runRound
  split
  · extract_lets p
    have hp : Lowers w p.1 := lowers_registerAgain w
    split
    · exact hp.trans ⟨Int.le_refl _, rfl⟩
    · exact hp.trans (lowers_client _ (Int.le_refl _))
  · exact lowers_client w (Int.le_refl _)

theorem lowers_schedule (w : Registration) (n : RenewalTimerName) (time : ℤ) :
    Lowers w (w.schedule A S n time).1 := by
  unfold schedule
  extract_lets w₁ w₂
  have h₁ : Lowers w w₁ := lowers_setTimer w _ n
  have h₂ : Lowers w w₂ := h₁.trans (lowers_observe w₁ rfl)
  split
  · exact h₁
  · split
    · exact h₂.trans (lowers_registerAgain _)
    · exact h₂

/-- The loop waits for the next registration, and the listener is told. -/
theorem lowers_report {w w₁ : Registration} (h₁ : Lowers w w₁) (n : RenewalTimerName) (time : ℤ)
    {o : RegistrationObs} (ho : o.isCall = false) :
    Lowers w
      (let p := if w.client.loop then w₁.schedule A S n time else (w, true)
      if p.2 then (p.1.observe o, true) else p).1 := by
  extract_lets p
  have hp : Lowers w p.1 := by
    unfold p
    split
    · exact h₁.trans (lowers_schedule ..)
    · exact .refl w
  split
  · exact hp.trans (lowers_observe _ ho)
  · exact hp

theorem lowers_onTransSuccessResponse (w : Registration) (m : SipMessage) :
    Lowers w (w.onTransSuccessResponse A S m).1 := by
  unfold onTransSuccessResponse
  extract_lets expires c₁ w₁
  have h₁ : Lowers w w₁ := by
    refine lowers_client w ?_
    show (if _ then _ else _) ≤ _
    split <;> omega
  refine h₁.trans (lowers_report ?_ .registration _ ?_)
  · exact lowers_client w₁ (Int.le_refl _)
  · rfl

theorem lowers_sendAgain (w : Registration) (req : SipMessage) (ch : Challenge)
    (authorize : SipMessage → Credentials → SipMessage) :
    Lowers w (w.sendAgain A S req ch authorize).1 := by
  rcases sendAgain_spec (A := A) (S := S) w req ch authorize with heq | ⟨-, credentials, heq⟩
  · rw [heq]
    exact .refl w
  · rw [heq]
    exact lowers_startClient ..

theorem lowers_onRegistrationFailure (w : Registration) (m : SipMessage) :
    Lowers w (w.onRegistrationFailure A S m).1 := by
  refine lowers_report ?_ .attempt _ ?_
  · exact lowers_client w (Int.le_refl _)
  · rfl

theorem lowers_onTransTimeout (w : Registration) : Lowers w (w.onTransTimeout A S).1 := by
  refine lowers_report ?_ .attempt _ ?_
  · exact lowers_client w (Int.le_refl _)
  · rfl

theorem lowers_onServerChallenge (w : Registration) (req : SipMessage) (ch : Challenge) :
    Lowers w (w.onServerChallenge A S req ch).1 := by
  unfold onServerChallenge
  split
  · exact .refl w
  · next realm _ =>
    have h₁ : Lowers w
        { w with client := w.client.challenged ch realm, branches := w.branches + 1 } :=
      ⟨Int.le_refl _, rfl⟩
    exact h₁.trans (lowers_sendAgain _ _ ch _)

theorem lowers_onProxyChallenge (w : Registration) (req : SipMessage) (ch : Challenge) :
    Lowers w (w.onProxyChallenge A S req ch).1 := by
  unfold onProxyChallenge
  split
  · exact .refl w
  · next realm _ =>
    have h₁ : Lowers w { w with client := w.client.challenged ch realm } := ⟨Int.le_refl _, rfl⟩
    exact h₁.trans (lowers_sendAgain _ _ ch _)

theorem lowers_onTransFailureResponse (w : Registration) (req m : SipMessage) :
    Lowers w (w.onTransFailureResponse A S req m).1 := by
  unfold onTransFailureResponse
  split
  · split
    · exact lowers_onServerChallenge ..
    · exact lowers_onProxyChallenge ..
  · exact lowers_onRegistrationFailure ..

theorem lowers_onClientCallback (w : Registration) (req : SipMessage) (c : ClientCallback) :
    Lowers w (w.onClientCallback A S req c).1 := by
  cases c with
  | onTransProvisionalResponse m => exact .refl w
  | onTransSuccessResponse m => exact lowers_onTransSuccessResponse w m
  | onTransFailureResponse m => exact lowers_onTransFailureResponse w req m
  | onTransTimeout => exact lowers_onTransTimeout w

theorem lowers_putClient (w : Registration) (r : ℕ)
    (o : Outcome TransactionClient ClientCallback ClientRest) : Lowers w (w.putClient r o) := by
  have h₁ : Lowers w { w with transactions := w.transactions.put r o.self } := ⟨Int.le_refl _, rfl⟩
  exact h₁.trans (lowers_calls ..)

theorem lowers_clientDid (w : Registration) (r : ℕ)
    (o : Outcome TransactionClient ClientCallback ClientRest) : Lowers w (w.clientDid A S r o) := by
  unfold clientDid
  split
  · exact (lowers_putClient w r o).trans ⟨Int.le_refl _, rfl⟩
  · extract_lets p
    have hp : Lowers w p.1 := (lowers_putClient w r o).trans (lowers_onClientCallback ..)
    split
    · exact hp.trans ⟨Int.le_refl _, rfl⟩
    · exact hp

theorem lowers_returns (w : Registration) : Lowers w w.returns := by
  unfold returns
  split
  · exact .refl w
  · next r k stack _ =>
    split
    · exact ⟨Int.le_refl _, rfl⟩
    · next t _ =>
      have h₁ : Lowers w
          { w with stack := stack, transactions := w.transactions.put r (t.resume k).1 } :=
        ⟨Int.le_refl _, rfl⟩
      exact h₁.trans (lowers_calls ..)

theorem lowers_onTimeout (w : Registration) (n : RenewalTimerName) :
    Lowers w (w.onTimeout A S n) := by
  unfold onTimeout
  split
  · exact .refl w
  · split
    · extract_lets w₁
      have h₁ : Lowers w w₁ := lowers_setTimer w _ n
      split
      · exact h₁.trans (lowers_registerAgain _)
      · exact h₁
    · exact .refl w

/-! ## The invariant -/

/-- The renew time is at most the one that was configured. -/
def Configured (w : Registration) : Prop := w.client.renewTime ≤ configured w.log

theorem Configured.lowers {w w' : Registration} (h : w.Configured) (hw' : Lowers w w') :
    w'.Configured := by
  unfold Configured
  rw [hw'.configured]
  exact Int.le_trans hw'.renewTime h

theorem configured_perform {w : Registration} (h : w.Configured) (c : RegistrationCall) :
    ((w.observe (.called c)).perform A S c).Configured := by
  cases c with
  | loopRegister expireTime renewTime =>
    -- the configured time is the new one
    have h₁ : Configured { w.observe (.called (.loopRegister expireTime renewTime)) with
        client.expireTime := expireTime
        client.renewTime := renewTime
        client.attemptTo := none
        client.registrationTo := none
        client.loop := true } := Int.le_refl renewTime
    exact h₁.lowers (lowers_register ..)
  | register =>
    have h₁ : (w.observe (.called .register)).Configured := h
    exact h₁.lowers (lowers_registerAgain _)
  | registerFor expireTime =>
    have h₁ : (w.observe (.called (.registerFor expireTime))).Configured := h
    exact h₁.lowers (lowers_register ..)
  | registerWithBody expireTime contentType body =>
    have h₁ : (w.observe (.called (.registerWithBody expireTime contentType body))).Configured := h
    exact h₁.lowers (lowers_register ..)
  | unregister =>
    have h₁ : (w.observe (.called .unregister)).Configured := h
    exact h₁.lowers (lowers_register ..)
  | unregisterall =>
    have h₁ : (w.observe (.called .unregisterall)).Configured := h
    exact h₁.lowers (lowers_unregisterall _)
  | halt =>
    unfold perform halt
    dsimp only
    split
    · exact h
    · exact h
  | run =>
    have h₁ : Configured { w.observe (.called .run) with client.isRunning := true } := h
    exact h₁.lowers (lowers_runRound _)

theorem configured_step {w : Registration} (h : w.Configured) (e : RegistrationEvent) :
    (w.step A S e).Configured := by
  cases e with
  | call c => exact configured_perform h c
  | recv m =>
    unfold step receive
    dsimp only
    split
    · exact h
    · split
      · exact h
      · exact h.lowers (lowers_clientDid ..)
  | expire r n =>
    unfold step expire
    dsimp only
    split
    · exact h
    · exact h.lowers (lowers_clientDid ..)
  | renewal n => exact h.lowers (lowers_onTimeout w n)
  | wake =>
    unfold step
    dsimp only
    split
    · have h₁ : Configured { w with sleepers := w.sleepers - 1 } := h
      exact h₁.lowers (lowers_runRound _)
    · exact h
  | interrupt =>
    unfold step
    dsimp only
    split
    · exact h
    · exact h
  | ret => exact h.lowers (lowers_returns w)

/-- **In every run, the renew time is at most the one that was configured.** -/
theorem renewTime_le_configured (es : List RegistrationEvent) :
    (run (step A S) (new A) es).client.renewTime ≤ configured (run (step A S) (new A) es).log :=
  run_invariant (I := Configured) (fun _ e h => configured_step h e) es (Int.le_refl _)

/-! ## The time that is granted -/

/-- The smallest positive time is at most every positive one. -/
theorem foldl_smallest_spec (l : List ℤ) {a : ℤ} (ha : 0 ≤ a) {r : ℤ}
    (hr : l.foldl (fun expires e =>
      if 0 < e ∧ (expires = 0 ∨ e < expires) then e else expires) a = r) :
    (0 < a → 0 < r ∧ r ≤ a) ∧ ∀ e ∈ l, 0 < e → 0 < r ∧ r ≤ e := by
  induction l generalizing a with
  | nil =>
    obtain rfl : a = r := hr
    exact ⟨fun h => ⟨h, Int.le_refl _⟩, nofun⟩
  | cons e l ih =>
    rw [List.foldl_cons] at hr
    split at hr
    · next hsmaller =>
      obtain ⟨hfirst, hrest⟩ := ih (Int.le_of_lt hsmaller.1) hr
      have hle := hfirst hsmaller.1
      refine ⟨fun h => ⟨hle.1, by omega⟩, fun e' he' hpos => ?_⟩
      rcases List.mem_cons.mp he' with rfl | he'
      · exact hle
      · exact hrest e' he' hpos
    · next hlarger =>
      obtain ⟨hfirst, hrest⟩ := ih ha hr
      refine ⟨hfirst, fun e' he' hpos => ?_⟩
      rcases List.mem_cons.mp he' with rfl | he'
      · have hle := hfirst (by omega)
        exact ⟨hle.1, by omega⟩
      · exact hrest e' he' hpos

/-- Without an Expires header the client takes a time that is at most that of any contact. -/
theorem grantedExpires_le {m : SipMessage} (hm : m.expires = none) {e : ℤ}
    (he : e ∈ m.contactExpires) (hpos : 0 < e) : 0 < m.grantedExpires ∧ m.grantedExpires ≤ e := by
  have heq : m.grantedExpires = m.contactExpires.foldl (fun expires e =>
      if 0 < e ∧ (expires = 0 ∨ e < expires) then e else expires) 0 := by
    simp [SipMessage.grantedExpires, hm]
  exact (foldl_smallest_spec _ (Int.le_refl 0) heq.symm).2 e he hpos

/-- The renew time after a success response. -/
def shortened (renewTime expires : ℤ) : ℤ :=
  if 0 < expires ∧ expires < renewTime then expires else renewTime

theorem shortened_le (renewTime expires : ℤ) : shortened renewTime expires ≤ renewTime := by
  unfold shortened
  split <;> omega

theorem shortened_nonneg_iff (renewTime expires : ℤ) :
    0 ≤ shortened renewTime expires ↔ 0 ≤ renewTime := by
  unfold shortened
  split <;> omega

/-- **When the renew time becomes at most the granted time.** -/
theorem shortened_le_iff {m : SipMessage} {c : Calendar IsDate} {now : ℤ} {values : List Text}
    (hvalues : m.expires = none → m.HasContacts c now values) {own : Option Text}
    (hown : ∀ v ∈ own, v ∈ values) {g : ℤ} (hg : g ∈ m.granted c now own) (renewTime : ℤ) :
    shortened renewTime m.grantedExpires ≤ g ↔
      renewTime ≤ g ∨ (0 < g ∧ ∀ h ∈ m.expires, 0 < h ∧ h ≤ g) := by
  cases hm : m.expires with
  | some h =>
    have heq : m.grantedExpires = h := by simp [SipMessage.grantedExpires, hm]
    rw [heq]
    unfold shortened
    simp only [Option.mem_some_iff, forall_eq']
    split <;> omega
  | none =>
    -- then the time is that of a contact
    have hmem : 0 ≤ g ∧ g ∈ m.contactExpires := by
      unfold SipMessage.granted at hg
      rw [hm] at hg
      split at hg
      · next e he =>
        split at hg
        · next hpos =>
          obtain rfl := Option.some.inj hg
          obtain ⟨v, hv, he⟩ := Option.bind_eq_some_iff.mp he
          have hread := List.mem_map_of_mem (f := ContactHeader.getExpires c now) (hown v hv)
          rw [hvalues hm, he] at hread
          exact ⟨hpos, by simpa using hread⟩
        · cases hg
      · cases hg
    have hle := grantedExpires_le hm hmem.2
    unfold shortened
    simp only [Option.mem_def, reduceCtorEq, IsEmpty.forall_iff, implies_true, and_true]
    split
    · next hless =>
      refine ⟨fun h => .inr (by omega), fun h => ?_⟩
      rcases h with h | h
      · omega
      · exact (hle h).2
    · next hless =>
      refine ⟨.inl, fun h => ?_⟩
      rcases h with h | h
      · exact h
      · have hboth := hle h
        omega

/-! ## The next REGISTER -/

/-- The response is one to a REGISTER that waits for it. -/
def Succeeds (w : Registration) (m : SipMessage) : Prop :=
  ∃ r t code, w.sipListeners (.transactionClient m) = some r ∧ w.transactions.get r = some t ∧
    t.status.isPending = true ∧ t.listener = true ∧ m.code? = some code ∧ 200 ≤ code ∧ code < 300

/-- Between the two states, a timer of this time is started for the next REGISTER. -/
def Schedules (w w' : Registration) (time : ℤ) : Prop :=
  ∃ l, w'.log = l ++ w.log ∧ ∃ n, .scheduled n time ∈ l

/-- The next REGISTER is scheduled, and in time: before the granted time is over, and not after the
configured one. -/
def RenewsInTime (w w' : Registration) (granted : Option ℤ) : Prop :=
  ∃ time, Schedules w w' time ∧ (∀ g ∈ granted, time ≤ g * 1000) ∧
    time ≤ configured w.log * 1000

theorem schedules_iff_of_log {w w' : Registration} {l : List RegistrationObs}
    (hl : w'.log = l ++ w.log) {time : ℤ} : Schedules w w' time ↔ ∃ n, .scheduled n time ∈ l := by
  refine ⟨fun ⟨l', hl', h⟩ => ?_, fun h => ⟨l, hl, h⟩⟩
  rw [hl] at hl'
  rwa [List.append_cancel_right hl']

/-- What a REGISTER that is made adds to the log, and no timer. -/
theorem registerAgain_log (w : Registration) : ∃ l, (w.registerAgain A S).1.log = l ++ w.log ∧
    ∀ n time, .scheduled n time ∉ l := by
  obtain ⟨req, h⟩ := registers_register (A := A) (S := S) w w.client.expireTime none none
  refine ⟨req.toList.map .sent ++ [.registering w.client.expireTime], ?_, by simp⟩
  exact h.log.trans (by simp)

theorem schedule_log (w : Registration) (n : RenewalTimerName) (time : ℤ) :
    ∃ l, (w.schedule A S n time).1.log = l ++ w.log ∧
      ∀ n' time', .scheduled n' time' ∈ l ↔ 0 ≤ time ∧ n' = n ∧ time' = time := by
  unfold schedule
  extract_lets w₁ w₂
  split
  · next hneg => exact ⟨[], rfl, fun n' time' => by simp; omega⟩
  · next hpos =>
    have hnew : ∀ n' time', RegistrationObs.scheduled n' time' ∈ [RegistrationObs.scheduled n time] ↔
        0 ≤ time ∧ n' = n ∧ time' = time := by
      intro n' time'
      rw [List.mem_singleton, RegistrationObs.scheduled.injEq,
        and_iff_right (show 0 ≤ time by omega)]
    split
    · obtain ⟨l, hl, hother⟩ := registerAgain_log (A := A) (S := S) w₂
      refine ⟨l ++ [.scheduled n time], hl.trans (by simp [w₂, w₁, observe]), fun n' time' => ?_⟩
      rw [List.mem_append, hnew, or_iff_right (hother n' time')]
    · exact ⟨[.scheduled n time], rfl, hnew⟩

theorem onTransSuccessResponse_log {w : Registration} (hloop : w.client.loop = true)
    (m : SipMessage) : ∃ l, (w.onTransSuccessResponse A S m).1.log = l ++ w.log ∧
      ∀ n time, .scheduled n time ∈ l ↔ 0 ≤ shortened w.client.renewTime m.grantedExpires * 1000 ∧
        n = .registration ∧ time = shortened w.client.renewTime m.grantedExpires * 1000 := by
  unfold onTransSuccessResponse
  extract_lets expires c₁ w₁ c₂ p
  obtain ⟨l, hl, hmem⟩ := schedule_log (A := A) (S := S)
    { w₁ with client := { w₁.client with attemptTo := none } } .registration
    (w₁.client.renewTime * 1000)
  have hp : p.1.log = l ++ w.log := by
    rw [show p = _ from if_pos (show w₁.client.loop = true from hloop)]
    exact hl
  split
  · refine ⟨.onRegistrationSuccess expires m.code :: l, congrArg (List.cons _) hp, fun n time => ?_⟩
    rw [List.mem_cons, or_iff_right nofun]
    exact hmem n time
  · exact ⟨l, hp, hmem⟩

/-- A success response starts a timer of the renew time. -/
theorem schedules_recv_iff {w : Registration} (hloop : w.client.loop = true) {m : SipMessage}
    (hm : w.Succeeds m) {time : ℤ} :
    Schedules w (w.step A S (.recv m)) time ↔ 0 ≤ w.client.renewTime ∧
      time = shortened w.client.renewTime m.grantedExpires * 1000 := by
  obtain ⟨r, t, code, hr, hget, hpending, hlistener, hcode, hlow, hhigh⟩ := hm
  have hcallback := TransactionClient.callback_of_success hpending hlistener hcode hlow hhigh
  set w₁ := w.putClient r (t.onReceivedMessage m)
  obtain ⟨hclient, -, -, hlog₁⟩ := calls_spec
    { w with transactions := w.transactions.put r (t.onReceivedMessage m).self } r
    (t.onReceivedMessage m).calls
  have hloop₁ : w₁.client.loop = true := (congrArg RegistrationClient.loop hclient).trans hloop
  have hrenew : w₁.client.renewTime = w.client.renewTime :=
    congrArg RegistrationClient.renewTime hclient
  obtain ⟨l, hl, hmem⟩ := onTransSuccessResponse_log (A := A) (S := S) hloop₁ m
  have hlog : (w.step A S (.recv m)).log =
      l ++ sents (t.onReceivedMessage m).calls ++ w.log := by
    unfold step receive
    dsimp only
    rw [hr]
    dsimp only
    rw [hget]
    dsimp only
    unfold clientDid
    rw [hcallback]
    dsimp only
    rw [List.append_assoc, ← hlog₁]
    split <;> exact hl
  rw [schedules_iff_of_log hlog, ← shortened_nonneg_iff _ m.grantedExpires, ← hrenew]
  constructor
  · rintro ⟨n, hn⟩
    rcases List.mem_append.mp hn with hn | hn
    · have h := (hmem n time).mp hn
      exact ⟨by omega, h.2.2⟩
    · obtain ⟨m', -, hm'⟩ := sendMessage_of_mem_sents hn
      cases hm'
  · rintro ⟨hpos, rfl⟩
    exact ⟨.registration, List.mem_append_left _ ((hmem _ _).mpr ⟨by omega, rfl, rfl⟩)⟩

/-- Alice wants to register every half hour. -/
def sampleLoop : Registration :=
  run (step sampleAccount {}) (new sampleAccount) [.call (.loopRegister 3600 1800)]

/-- Her contact in the response. -/
def sampleValues : List Text := ["<sip:alice@host>;expires=60".toList]

/-- The response, with or without an Expires header. -/
def sampleSuccess (expires : Option ℤ) : SipMessage :=
  { sampleResponse (sampleRegister 0) 200 with expires := expires, contactExpires := [60] }

theorem sampleLoop_succeeds (expires : Option ℤ) :
    sampleLoop.Succeeds (sampleSuccess expires) := by
  have hlistener :
      sampleLoop.sipListeners (.transactionClient (sampleResponse (sampleRegister 0) 200)) =
        some 0 := by
    decide +kernel
  exact ⟨0, _, 200, hlistener, rfl, rfl, rfl, rfl, by decide, by decide⟩

theorem sampleSuccess_hasContacts (expires : Option ℤ) :
    (sampleSuccess expires).HasContacts (.ofOffset 0) 0 sampleValues := by
  show sampleValues.map (ContactHeader.getExpires (.ofOffset 0) 0) = [some 60]
  decide +kernel

end Registration
end SoftPhone
