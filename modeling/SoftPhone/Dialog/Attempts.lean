import SoftPhone.Dialog.LocalCSeq
import SoftPhone.Registration.Transactions

/-!
# The attempts to authenticate

An `ExtendedInviteDialog` counts its answers to challenges, and a success takes the count
back.  A success pays for the attempts up to the next one: what was sent again and what may
still be sent again is never more than what the start and the successes have paid for
(`Paid`).  `authentication_bounded` puts this bound beside the one of the registration
client.
-/

namespace SoftPhone

open Machine

namespace World

variable {S : SipStack}

/-- What counts for the attempts. -/
inductive Trial where
  /-- The dialog gets a success response. -/
  | success (m : SipMessage)
  /-- The dialog sends a challenged request again, as `req`. -/
  | resend (req : SipMessage)
  deriving DecidableEq, Repr

/-- The trials of an event. -/
def trials (S : SipStack) (w : World) (e : Event) : List Trial :=
  match w.clientCallback S e with
  | some (_, _, .onTransSuccessResponse m) => [.success m]
  | some (_, _, .onTransFailureResponse _) => (w.started S e).map .resend
  | _ => []

/-- How often a request was sent again. -/
def resends (ts : List Trial) : ℕ :=
  ts.countP fun
    | .resend _ => true
    | .success _ => false

/-- How many success responses came. -/
def successes (ts : List Trial) : ℕ :=
  ts.countP fun
    | .resend _ => false
    | .success _ => true

/-- The requests that were sent again and the attempts that are left are paid for. -/
def Paid (ts : List Trial) (w : World) : Prop :=
  resends ts + (maxAttempts - w.dlg.attempts) ≤ maxAttempts * (1 + successes ts)

theorem Paid.le {ts : List Trial} {w : World} (h : Paid ts w) :
    resends ts ≤ maxAttempts * (1 + successes ts) :=
  Nat.le_trans (Nat.le_add_right ..) h

/-- A challenge is taken as long as there are attempts left. -/
theorem attempts_lt_of_challenge {w : World} {m : SipMessage} {ch : Challenge}
    (h : w.challenge m = some ch) : w.dlg.attempts < maxAttempts := by
  unfold challenge at h
  split at h
  · next hlt => exact hlt
  · cases h

theorem Paid.same {ts : List Trial} {w w' : World} (h : Paid ts w)
    (hattempts : w'.dlg.attempts = w.dlg.attempts) : Paid (ts ++ []) w' := by
  unfold Paid
  rw [List.append_nil, hattempts]
  exact h

/-- A success pays for `MAX_ATTEMPTS` attempts. -/
theorem Paid.success {ts : List Trial} {w w' : World} (h : Paid ts w) (m : SipMessage) :
    Paid (ts ++ [.success m]) w' := by
  have hle := h.le
  have hresends : resends (ts ++ [.success m]) = resends ts := by
    simp [resends]
  have hsuccesses : successes (ts ++ [.success m]) = successes ts + 1 := by
    simp [successes]
  have hmul : maxAttempts * (1 + (successes ts + 1)) =
      maxAttempts * (1 + successes ts) + maxAttempts := Nat.mul_succ ..
  unfold Paid
  rw [hresends, hsuccesses, hmul]
  omega

/-- A request that is sent again takes one of the attempts that are left. -/
theorem Paid.resend {ts : List Trial} {w w' : World} (h : Paid ts w)
    (hattempts : w'.dlg.attempts = w.dlg.attempts + 1) (hlt : w.dlg.attempts < maxAttempts)
    {reqs : List SipMessage} (hreqs : reqs.length ≤ 1) :
    Paid (ts ++ reqs.map .resend) w' := by
  have hresends : resends (ts ++ reqs.map .resend) = resends ts + reqs.length := by
    simp [resends, List.countP_map, Function.comp_def]
  have hsuccesses : successes (ts ++ reqs.map .resend) = successes ts := by
    simp [successes, List.countP_map, Function.comp_def]
  unfold Paid at h ⊢
  rw [hresends, hsuccesses, hattempts]
  omega

theorem Paid.step {ts : List Trial} {w : World} (h : Paid ts w) (e : Event) :
    Paid (ts ++ w.trials S e) (w.step S e) := by
  cases hc : w.clientCallback S e with
  | none =>
    simp only [trials, hc]
    exact h.same (calm_step hc).attempts
  | some p =>
    obtain ⟨a, req, c⟩ := p
    cases c with
    | onTransProvisionalResponse m =>
      have hspec := step_provisional hc
      simp only [trials, hc]
      split at hspec
      · exact h.same hspec.attempts
      · exact h.same hspec.attempts
    | onTransSuccessResponse m =>
      simp only [trials, hc]
      exact h.success m
    | onTransFailureResponse m =>
      have hspec := step_failure hc
      simp only [trials, hc]
      split at hspec
      · next ch hch =>
        have hchallenge : w.challenge m = some ch := by
          split at hch
          · exact hch
          · cases hch
        refine h.resend hspec.attempts (attempts_lt_of_challenge hchallenge) ?_
        by_cases hcan : S.CanAnswer ch
        · obtain ⟨req', hstarts⟩ := hspec.starts hcan
          rw [started_of_launches hstarts.toLaunches]
          exact Nat.le_refl _
        · rw [started_of_still (hspec.still hcan)]
          exact Nat.zero_le _
      · rw [started_of_still hspec.toStill]
        exact h.same hspec.attempts
    | onTransTimeout =>
      simp only [trials, hc]
      exact h.same (step_timeout hc).attempts

/-- A dialog sends at most `MAX_ATTEMPTS` requests again for each success, and as many
before the first one. -/
theorem resends_le {w : World} (h : Start S w) (es : List Event) :
    resends (outputs (step S) (trials S) w es) ≤
      maxAttempts * (1 + successes (outputs (step S) (trials S) w es)) := by
  have hstart : Paid [] w := by
    unfold Paid
    rw [h.silent.attempts]
    show resends [] + (maxAttempts - 0) ≤ maxAttempts * (1 + successes [])
    decide
  exact (outputs_invariant (I := fun _ ts w => Paid ts w) hstart
    (fun _ _ _ e h => h.step e) es).le

end World

/-- **Authentication does not loop.**  A registration client starts at most
`1 + regc_auth_attempts` transactions for each registration, and a dialog sends at most
`MAX_ATTEMPTS` requests again for each success, and as many before the first one. -/
theorem authentication_bounded (S : SipStack) (A : RegistrationAccount)
    (es : List RegistrationEvent) {w : World} (hw : World.Start S w) (es' : List Event) :
    (run (Registration.step A S) (Registration.new A) es).transactions.next ≤
      (1 + A.regcAuthAttempts) *
        Registration.registrations (run (Registration.step A S) (Registration.new A) es).log ∧
    World.resends (outputs (World.step S) (World.trials S) w es') ≤ World.maxAttempts *
      (1 + World.successes (outputs (World.step S) (World.trials S) w es')) :=
  ⟨Registration.transactions_le A S es, World.resends_le hw es'⟩

/-- Alice's INFO is challenged and sent again. -/
theorem authentication_bounded_challenged :
    (run (Registration.step Registration.sampleAccount sampleStack)
      (Registration.new Registration.sampleAccount) [.call .register]).transactions.next ≤
      (1 + Registration.sampleAccount.regcAuthAttempts) *
        Registration.registrations (run (Registration.step Registration.sampleAccount sampleStack)
          (Registration.new Registration.sampleAccount) [.call .register]).log ∧
    World.resends (outputs (World.step sampleStack) (World.trials sampleStack)
        (World.init sampleStack) World.sampleChallenged) ≤ World.maxAttempts *
      (1 + World.successes (outputs (World.step sampleStack) (World.trials sampleStack)
        (World.init sampleStack) World.sampleChallenged)) :=
  authentication_bounded sampleStack Registration.sampleAccount [.call .register] .init
    World.sampleChallenged

end SoftPhone
