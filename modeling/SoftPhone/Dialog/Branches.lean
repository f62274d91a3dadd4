import SoftPhone.Dialog.LocalCSeq
import SoftPhone.Registration.Transactions

/-!
# The branches of the requests

`pickBranch` gives every request that the dialog makes, and every answer to a challenge, a
branch of its own.  What it gives out later is different from all branches in use
(`Branched`), provided that the branches in the messages of the user are not among those
that it will give out.

`fresh_branches` puts the dialog and the registration client side by side.
-/

namespace SoftPhone

open Machine

namespace World

variable {S : SipStack}

/-- The request of a client transaction. -/
def request? (w : World) : Agent → Option SipMessage
  | .inviteClient r => (w.inviteClients.get r).map (·.request)
  | .client r => (w.clients.get r).map (·.request)
  | _ => none

/-- The client transaction `a` has a request other than ACK and CANCEL with the branch
`branch`. -/
def Uses (w : World) (a : Agent) (branch : String) : Prop :=
  ∃ m, w.request? a = some m ∧ m.Counts ∧ m.branch = some branch

/-- No branch is used by two client transactions. -/
def DistinctBranches (w : World) : Prop :=
  ∀ a b branch, w.Uses a branch → w.Uses b branch → a = b

/-- The branch in a message of the user is not used, and `pickBranch` will not return it. -/
def FreshBranch (S : SipStack) (w : World) (e : Event) : Prop :=
  ∀ m, w.origin S e = some (.given m) → m.Counts → ∀ branch ∈ m.branch,
    (∀ a, ¬ w.Uses a branch) ∧ ∀ i, w.provider.branches ≤ i → S.pickBranch i ≠ branch

/-- The branches in use are different, and `pickBranch` will not return them again. -/
structure Branched (S : SipStack) (w : World) : Prop where
  distinct : w.DistinctBranches
  picked : ∀ a branch, w.Uses a branch → ∀ i, w.provider.branches ≤ i → S.pickBranch i ≠ branch

theorem request_still {w w' : World} (h : Still w w') {a : Agent} {m : SipMessage}
    (hm : w'.request? a = some m) : w.request? a = some m := by
  cases a with
  | inviteClient r =>
    obtain ⟨t, hget, rfl⟩ := Option.map_eq_some_iff.mp hm
    rcases h.inviteClients.cases hget with ⟨t', hget', heq⟩ | ⟨i, -, hi⟩
    · exact Option.map_eq_some_iff.mpr ⟨t', hget', heq⟩
    · cases hi
  | client r =>
    obtain ⟨t, hget, rfl⟩ := Option.map_eq_some_iff.mp hm
    rcases h.clients.cases hget with ⟨t', hget', heq⟩ | ⟨i, -, hi⟩
    · exact Option.map_eq_some_iff.mpr ⟨t', hget', heq⟩
    · cases hi
  | _ => cases hm

/-- The requests after one was started: one transaction has the new one. -/
theorem request_launches {w w' : World} {req : SipMessage} (h : Launches req w w') :
    ∃ new, ∀ a m, w'.request? a = some m → w.request? a = some m ∨ (a = new ∧ m = req) := by
  have hone {i : ℕ} {m : SipMessage} (hi : [req][i]? = some m) : i = 0 ∧ m = req := by
    cases i with
    | zero => exact ⟨rfl, (Option.some.inj hi).symm⟩
    | succ i => cases hi
  rcases h.heaps with ⟨hinvite, hclients⟩ | ⟨hinvite, hclients⟩
  · refine ⟨.inviteClient w.inviteClients.next, fun a m hm => ?_⟩
    cases a with
    | inviteClient r =>
      obtain ⟨t, hget, rfl⟩ := Option.map_eq_some_iff.mp hm
      rcases hinvite.cases hget with ⟨t', hget', heq⟩ | ⟨i, hr, hi⟩
      · exact .inl (Option.map_eq_some_iff.mpr ⟨t', hget', heq⟩)
      · obtain ⟨rfl, hreq⟩ := hone hi
        exact .inr ⟨by rw [hr, Nat.add_zero], hreq⟩
    | client r =>
      obtain ⟨t, hget, rfl⟩ := Option.map_eq_some_iff.mp hm
      rcases hclients.cases hget with ⟨t', hget', heq⟩ | ⟨i, -, hi⟩
      · exact .inl (Option.map_eq_some_iff.mpr ⟨t', hget', heq⟩)
      · cases hi
    | _ => cases hm
  · refine ⟨.client w.clients.next, fun a m hm => ?_⟩
    cases a with
    | inviteClient r =>
      obtain ⟨t, hget, rfl⟩ := Option.map_eq_some_iff.mp hm
      rcases hinvite.cases hget with ⟨t', hget', heq⟩ | ⟨i, -, hi⟩
      · exact .inl (Option.map_eq_some_iff.mpr ⟨t', hget', heq⟩)
      · cases hi
    | client r =>
      obtain ⟨t, hget, rfl⟩ := Option.map_eq_some_iff.mp hm
      rcases hclients.cases hget with ⟨t', hget', heq⟩ | ⟨i, hr, hi⟩
      · exact .inl (Option.map_eq_some_iff.mpr ⟨t', hget', heq⟩)
      · obtain ⟨rfl, hreq⟩ := hone hi
        exact .inr ⟨by rw [hr, Nat.add_zero], hreq⟩
    | _ => cases hm

theorem Branched.still {w w' : World} (h : Branched S w) (hstill : Still w w') :
    Branched S w' := by
  have huses {a : Agent} {branch : String} (hu : w'.Uses a branch) : w.Uses a branch := by
    obtain ⟨m, hm, hrest⟩ := hu
    exact ⟨m, request_still hstill hm, hrest⟩
  exact ⟨fun a b branch ha hb => h.distinct a b branch (huses ha) (huses hb),
    fun a branch ha i hi => h.picked a branch (huses ha) i (Nat.le_trans hstill.branches hi)⟩

/-- A request is started whose branch is new. -/
theorem Branched.launches {w w' : World} (h : Branched S w) {req : SipMessage}
    (hl : Launches req w w')
    (hfresh : req.Counts → ∀ branch ∈ req.branch, (∀ a, ¬ w.Uses a branch) ∧
      ∀ i, w'.provider.branches ≤ i → S.pickBranch i ≠ branch) : Branched S w' := by
  obtain ⟨new, hnew⟩ := request_launches hl
  have huses {a : Agent} {branch : String} (hu : w'.Uses a branch) :
      w.Uses a branch ∨ (a = new ∧ req.Counts ∧ req.branch = some branch) := by
    obtain ⟨m, hm, hcounts, hbranch⟩ := hu
    rcases hnew a m hm with hold | ⟨ha, rfl⟩
    · exact .inl ⟨m, hold, hcounts, hbranch⟩
    · exact .inr ⟨ha, hcounts, hbranch⟩
  constructor
  · intro a b branch ha hb
    rcases huses ha with ha | ⟨rfl, hcounts, hbranch⟩ <;>
      rcases huses hb with hb | ⟨rfl, hcounts', hbranch'⟩
    · exact h.distinct a b branch ha hb
    · exact absurd ha ((hfresh hcounts' branch hbranch').1 a)
    · exact absurd hb ((hfresh hcounts branch hbranch).1 b)
    · rfl
  · intro a branch ha i hi
    rcases huses ha with ha | ⟨-, hcounts, hbranch⟩
    · exact h.picked a branch ha i (Nat.le_trans hl.branches hi)
    · exact (hfresh hcounts branch hbranch).2 i hi

theorem Branched.step (hinj : S.pickBranch.Injective) {w : World} {e : Event}
    (hfresh : FreshBranch S w e) (h : Branched S w) : Branched S (w.step S e) := by
  rcases starts_step (S := S) w e with hstill | ⟨⟨o, req⟩, ho, hstarts⟩
  · exact h.still hstill
  · refine h.launches hstarts.toLaunches fun hcounts branch hbranch => ?_
    have hreq := hstarts.branch
    have hle := hstarts.branches
    cases o with
    | given m =>
      have hm : m.branch = some branch := by
        rw [← Option.mem_def.mp hbranch]
        exact hreq.symm
      obtain ⟨hunused, hlater⟩ := hfresh m ho (hstarts.counts.mp hcounts) branch hm
      exact ⟨hunused, fun i hi => hlater i (Nat.le_trans hle hi)⟩
    | made | opened | retried =>
      obtain ⟨i, hi, hlt, hb⟩ := hreq
      have hpicked : S.pickBranch i = branch := by
        rw [Option.mem_def.mp hbranch] at hb
        exact (Option.some.inj hb).symm
      refine ⟨fun a ha => h.picked a branch ha i hi hpicked, fun j hj heq => ?_⟩
      have hsame : i = j := hinj (hpicked.trans heq.symm)
      omega

theorem branched_run (hinj : S.pickBranch.Injective) {w : World} (h : Start S w)
    {es : List Event} (hes : Meets (step S) (FreshBranch S) w es) :
    Branched S (run (step S) w es) := by
  have hinit : Branched S (World.init S) := by
    have hnone (a : Agent) (branch : String) : ¬ (World.init S).Uses a branch := by
      rintro ⟨m, hm, -⟩
      cases a <;> cases hm
    exact ⟨fun a b branch ha => absurd ha (hnone a branch),
      fun a branch ha => absurd ha (hnone a branch)⟩
  exact run_invariant_of_meets (fun w e hfresh hw => hw.step hinj hfresh) hes
    (hinit.still h.silent.toStill)

end World

/-- **Fresh branches.**  No two transactions of a registration client that answers no 407,
and no two of a dialog whose user passes fresh branches, have the same branch. -/
theorem fresh_branches {S : SipStack} (hinj : S.pickBranch.Injective) (A : RegistrationAccount)
    {es : List RegistrationEvent}
    (hes : Meets (Registration.step A S) (Registration.ServersOnly A) (Registration.new A) es)
    {w : World} (hw : World.Start S w) {es' : List Event}
    (hes' : Meets (World.step S) (World.FreshBranch S) w es') :
    Heap.Distinct (SipMessage.branch ∘ TransactionClient.request)
      (run (Registration.step A S) (Registration.new A) es).transactions ∧
    (run (World.step S) w es').DistinctBranches :=
  ⟨Registration.distinct_branches hinj hes, (World.branched_run hinj hw hes').distinct⟩

theorem pickBranch_injective : sampleStack.pickBranch.Injective := by
  intro n k h
  have hdigits := congrArg (fun s : String => Nat.ofDigitChars 10 s.toList 0) h
  simpa [sampleStack] using hdigits

/-- Alice registers, and gets the challenge `code`. -/
def Registration.sampleRegistration (code : ℤ) : List RegistrationEvent :=
  [.call .register, .recv { sampleResponse (sampleRegister 0) code with
    wwwAuthenticate := sampleChallenge, proxyAuthenticate := sampleChallenge }, .ret]

/-- Alice calls bob, and gets the challenge of a proxy. -/
def World.sampleProxy : List Event :=
  [.api (.invite (sampleName "bob") (sampleName "alice") none "sdp"),
    .recv { sampleResponse (sampleRequest .invite 1 none "0") 407 with
      proxyAuthenticate := sampleChallenge }, .ret]

theorem fresh_branches_challenged :
    Heap.Distinct (SipMessage.branch ∘ TransactionClient.request)
      (run (Registration.step Registration.sampleAccount sampleStack)
        (Registration.new Registration.sampleAccount)
        (Registration.sampleRegistration 401)).transactions ∧
    (run (World.step sampleStack) (World.init sampleStack) World.sampleProxy).DistinctBranches := by
  have hnot {o : Option Origin} (m : SipMessage)
      (ho : (o.all fun | .given _ => false | _ => true) = true) : o ≠ some (.given m) := by
    rintro rfl
    cases ho
  exact fresh_branches pickBranch_injective Registration.sampleAccount (by decide +kernel) .init
    ⟨fun m hm => absurd hm (hnot m (by decide +kernel)),
      fun m hm => absurd hm (hnot m (by decide +kernel)),
      fun m hm => absurd hm (hnot m (by decide +kernel)), trivial⟩

/-- **The answer to a 407 reuses the branch** of the REGISTER that the proxy challenged. -/
theorem branch_reused : sampleStack.pickBranch.Injective ∧
    ¬ Heap.Distinct (SipMessage.branch ∘ TransactionClient.request)
      (run (Registration.step Registration.sampleAccount sampleStack)
        (Registration.new Registration.sampleAccount)
        (Registration.sampleRegistration 407)).transactions := by
  refine ⟨pickBranch_injective, fun hdistinct => ?_⟩
  set w := run (Registration.step Registration.sampleAccount sampleStack)
    (Registration.new Registration.sampleAccount) (Registration.sampleRegistration 407) with hw
  obtain ⟨t, hget, t', hget', heq⟩ : ∃ t ∈ w.transactions.get 0, ∃ t' ∈ w.transactions.get 1,
      t.request.branch = t'.request.branch := by
    rw [hw]
    decide +kernel
  exact absurd (hdistinct 0 1 t t' hget hget' heq) (by decide)

end SoftPhone
