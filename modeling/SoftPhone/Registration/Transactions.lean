import SoftPhone.Registration.Moves

/-!
# The transactions of a registration client

How many there are, and with which branches.

A registration pays for its own transaction and for all the times it can be challenged: as
long as the attempts are not used up, what is left of them is paid for (`Paid`).  So there
are never more than `1 + regc_auth_attempts` transactions for a registration
(`transactions_le`).

Every REGISTER made from nothing and every answer to a 401 has a branch of its own.  The
answer to a 407 goes out with the branch of the challenged request; where no 407 is
answered, the branches of all transactions are different (`distinct_branches`).
-/

namespace SoftPhone
namespace Registration

open Machine

variable {A : RegistrationAccount} {S : SipStack} {w₀ : Registration} {e : RegistrationEvent}

/-! ## How many -/

/-- How often `register` or `unregisterall` was entered. -/
def registrations (log : List RegistrationObs) : ℕ :=
  log.countP fun
    | .registering _ => true
    | _ => false

/-- The transactions that were started and the attempts that are left are paid for. -/
def Paid (A : RegistrationAccount) (w : Registration) : Prop :=
  (w.transactions.next = 0 ∧ registrations w.log = 0) ∨
    w.transactions.next + (A.regcAuthAttempts - w.client.attempts) ≤
      (1 + A.regcAuthAttempts) * registrations w.log

theorem Paid.le {w : Registration} (h : Paid A w) :
    w.transactions.next ≤ (1 + A.regcAuthAttempts) * registrations w.log := by
  rcases h with ⟨hnext, -⟩ | h
  · omega
  · exact Nat.le_trans (Nat.le_add_right ..) h

theorem registrations_append {l : List RegistrationObs}
    (hl : ∀ o ∈ l, ∀ expireTime, o ≠ .registering expireTime) (log : List RegistrationObs) :
    registrations (l ++ log) = registrations log := by
  unfold registrations
  rw [List.countP_append, Nat.add_eq_right, List.countP_eq_zero]
  intro o ho
  cases o with
  | registering expireTime => exact absurd rfl (hl _ ho expireTime)
  | _ => simp

theorem registrations_sent (req : Option SipMessage) (log : List RegistrationObs) :
    registrations (req.toList.map .sent ++ log) = registrations log :=
  registrations_append (by simp) log

theorem Paid.congr {w w' : Registration} (h : Paid A w)
    (hnext : w'.transactions.next = w.transactions.next)
    (hlog : registrations w'.log = registrations w.log)
    (hattempts : w'.client.attempts = w.client.attempts) : Paid A w' := by
  unfold Paid
  rw [hnext, hlog, hattempts]
  exact h

/-- There are transactions when there is something to answer. -/
theorem next_pos_of_answered {p : SipMessage × SipMessage × Challenge}
    (hp : p ∈ w₀.answered A e) : 0 < w₀.transactions.next := by
  unfold answered at hp
  split at hp
  · next m =>
    cases hlisten : w₀.sipListeners (.transactionClient m) with
    | none =>
      rw [hlisten] at hp
      cases hp
    | some r =>
      rw [hlisten, Option.bind_some] at hp
      cases hget : w₀.transactions.get r with
      | none =>
        rw [hget] at hp
        cases hp
      | some t => exact Nat.lt_of_le_of_lt (Nat.zero_le r) (Heap.lt_next_of_get hget)
  · cases hp

theorem Paid.move {w w' : Registration} (hm : Move A S w₀ e w w')
    (h : w₀.transactions.next ≤ w.transactions.next ∧ Paid A w) :
    w₀.transactions.next ≤ w'.transactions.next ∧ Paid A w' := by
  obtain ⟨hle, hpaid⟩ := h
  cases hm with
  | quiet hq =>
    obtain ⟨l, hl, hminor⟩ := hq.log
    have hnext := hq.transactions.next
    refine ⟨Nat.le_trans hle (Nat.le_of_eq hnext.symm), hpaid.congr hnext ?_ hq.attempts⟩
    rw [hl]
    refine registrations_append (fun o ho expireTime heq => ?_) w.log
    rw [heq] at ho
    exact hminor _ ho
  | called => exact ⟨hle, hpaid.congr rfl rfl rfl⟩
  | halts =>
    refine ⟨?_, ?_⟩
    · unfold halt
      split <;> exact hle
    · unfold halt
      split <;> exact hpaid.congr rfl rfl rfl
  | loops _ hw' hattempts =>
    refine ⟨?_, hpaid.congr ?_ ?_ hattempts⟩
    · rw [hw']; exact hle
    · rw [hw']
    · rw [hw']
  | @registers _ _ _ req _ hr =>
    have hnext := hr.transactions.next
    have hlen : req.toList.length ≤ 1 := by cases req <;> simp
    have hcount : registrations w'.log = registrations w.log + 1 := by
      rw [hr.log, registrations_sent]
      simp [registrations]
    have hmul : (1 + A.regcAuthAttempts) * (registrations w.log + 1) =
        (1 + A.regcAuthAttempts) * registrations w.log + (1 + A.regcAuthAttempts) := Nat.mul_succ ..
    have hpaid' := hpaid.le
    refine ⟨by omega, .inr ?_⟩
    rw [hcount, hr.attempts, hnext]
    omega
  | @answers _ _ _ req hp ha =>
    have hnext := ha.transactions.next
    have hlen : req.toList.length ≤ 1 := by cases req <;> simp
    have hpos := next_pos_of_answered hp
    have hcount : registrations w'.log = registrations w.log := by
      rw [ha.log, registrations_sent]
    have hbound := ha.bound
    refine ⟨by omega, .inr ?_⟩
    rcases hpaid with ⟨hzero, -⟩ | hpaid
    · omega
    · rw [hcount, ha.attempts, hnext]
      omega

/-- **A registration takes at most `1 + regc_auth_attempts` transactions.** -/
theorem transactions_le (A : RegistrationAccount) (S : SipStack) (es : List RegistrationEvent) :
    (run (step A S) (new A) es).transactions.next ≤
      (1 + A.regcAuthAttempts) * registrations (run (step A S) (new A) es).log := by
  have hrun : Paid A (run (step A S) (new A) es) := by
    refine run_invariant (fun w e hw => ?_) es (.inl ⟨rfl, rfl⟩)
    exact (invariant_step (I := fun v => w.transactions.next ≤ v.transactions.next ∧ Paid A v)
      (fun _ _ => Paid.move (S := S)) ⟨Nat.le_refl _, hw⟩).2
  exact hrun.le

/-! ## The branches -/

/-- No 407 is answered. -/
def ServersOnly (A : RegistrationAccount) (w : Registration) (e : RegistrationEvent) : Prop :=
  ∀ p ∈ w.answered A e, p.2.2.Answerable A → p.1.code = 401

instance (A : RegistrationAccount) (w : Registration) (e : RegistrationEvent) :
    Decidable (ServersOnly A w e) :=
  inferInstanceAs (Decidable (∀ p ∈ w.answered A e, p.2.2.Answerable A → p.1.code = 401))

/-- The branches are different, and they are ones that were picked. -/
structure Branched (S : SipStack) (w : Registration) : Prop where
  distinct : Heap.Distinct (SipMessage.branch ∘ TransactionClient.request) w.transactions
  picked : ∀ r t, w.transactions.get r = some t →
    ∃ i < w.branches, t.request.branch = some (S.pickBranch i)

/-- The heap grows by at most a request with the next branch. -/
theorem Branched.extends (hinj : S.pickBranch.Injective) {w w' : Registration} (h : Branched S w)
    {req : Option SipMessage}
    (hext : w.transactions.Extends TransactionClient.request w'.transactions req.toList)
    (hmade : ∀ r ∈ req, r.branch = some (S.pickBranch w.branches))
    (hle : w.branches ≤ w'.branches) (hlt : req ≠ none → w.branches < w'.branches) :
    Branched S w' := by
  constructor
  · refine hext.distinct h.distinct (by cases req <;> simp) fun m hm r t ht heq => ?_
    obtain ⟨i, hi, hbranch⟩ := h.picked r t ht
    rw [hmade m (Option.mem_toList.mp hm), hbranch] at heq
    exact absurd (hinj (Option.some.inj heq)) (by omega)
  · refine hext.forall (P := fun m => ∃ i < w'.branches, m.branch = some (S.pickBranch i))
      (fun r t ht => ?_) fun m hm => ?_
    · obtain ⟨i, hi, hbranch⟩ := h.picked r t ht
      exact ⟨i, by omega, hbranch⟩
    · have hm' := Option.mem_toList.mp hm
      exact ⟨w.branches, hlt (Option.ne_none_iff_exists'.mpr ⟨m, hm'⟩), hmade m hm'⟩

theorem Branched.move (hinj : S.pickBranch.Injective) (hserver : ServersOnly A w₀ e)
    {w w' : Registration} (hm : Move A S w₀ e w w') (h : Branched S w) : Branched S w' := by
  cases hm with
  | quiet hq =>
    have hext : w.transactions.Extends TransactionClient.request w'.transactions
        (none : Option SipMessage).toList := hq.transactions
    exact h.extends hinj hext (by simp) (Nat.le_of_eq hq.branches.symm) (by simp)
  | called => exact ⟨h.distinct, h.picked⟩
  | halts =>
    unfold halt
    split <;> exact ⟨h.distinct, h.picked⟩
  | loops _ hw' =>
    rw [hw']
    exact ⟨h.distinct, h.picked⟩
  | registers _ hr =>
    have hbranches := hr.branches
    exact h.extends hinj hr.transactions (fun r hr' => (hr.made r hr').2) (by omega)
      fun _ => by omega
  | @answers _ _ _ req hp ha =>
    have hbranches := ha.branches
    have hcode (hreq : req ≠ none) := hserver _ hp (ha.answerable hreq)
    refine h.extends hinj ha.transactions (fun r hr => ?_) (by omega) fun hreq => ?_
    · have hbranch := (ha.made r hr).2
      rwa [if_pos (hcode (Option.ne_none_iff_exists'.mpr ⟨r, hr⟩))] at hbranch
    · rw [if_pos (hcode hreq)] at hbranches
      omega

/-- Where no 407 is answered, no two transactions have the same branch. -/
theorem distinct_branches (hinj : S.pickBranch.Injective) {es : List RegistrationEvent}
    (hes : Meets (step A S) (ServersOnly A) (new A) es) :
    Heap.Distinct (SipMessage.branch ∘ TransactionClient.request)
      (run (step A S) (new A) es).transactions := by
  have hnew : Branched S (new A) := ⟨fun _ _ _ _ h => (nomatch h), fun _ _ h => (nomatch h)⟩
  have hrun : Branched S (run (step A S) (new A) es) :=
    run_invariant_of_meets (fun w e hserver hw =>
      invariant_step (fun _ _ => Branched.move hinj hserver) hw) hes hnew
  exact hrun.distinct

end Registration
end SoftPhone
