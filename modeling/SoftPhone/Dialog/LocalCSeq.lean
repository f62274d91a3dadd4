import SoftPhone.Dialog.Origins

/-!
# The local sequence numbers

The number of the next request is kept in two places.  `DialogInfo` counts the requests
that the dialog makes; the answer to a challenge takes the next number of the challenged
request, and `DialogInfo` is not told.  So the numbers of a run go up (`counted_up`) as
long as whoever numbers a request looks at the requests that the other has numbered:

* when the dialog makes a request, no request that it did not make itself has a number
  above `local_cseq`;
* when a challenge is answered, the challenged request has the highest number so far;
* a request of the user has a number above all others.

That the requests which the dialog made itself never get ahead of `local_cseq` is an
invariant, not a condition.
-/

namespace SoftPhone

open Machine

namespace World

variable {S : SipStack}

/-- The requests of the client transactions that the event starts. -/
def started (S : SipStack) (w : World) (e : Event) : List SipMessage :=
  ((w.step S e).inviteClients.since w.inviteClients.next).map (·.request) ++
    ((w.step S e).clients.since w.clients.next).map (·.request)

/-- The requests other than ACK and CANCEL that the event sends, with their origin. -/
def issued (S : SipStack) (w : World) (e : Event) : List (Option Origin × SipMessage) :=
  ((w.started S e).filter (·.Counts)).map fun m => (w.origin S e, m)

theorem started_of_still {w : World} {e : Event} (h : Still w (w.step S e)) :
    w.started S e = [] := by
  unfold started
  rw [h.inviteClients.since, h.clients.since]
  rfl

theorem started_of_launches {w : World} {e : Event} {req : SipMessage}
    (h : Launches req w (w.step S e)) : w.started S e = [req] := by
  unfold started
  rcases h.heaps with ⟨hinvite, hclients⟩ | ⟨hinvite, hclients⟩
  · rw [hinvite.since, hclients.since]
    rfl
  · rw [hinvite.since, hclients.since]
    rfl

/-- An event sends at most one request. -/
theorem issued_step (w : World) (e : Event) :
    w.issued S e = [] ∨ ∃ p, w.origin S e = some p.1 ∧ p.1.Counts ∧
      Starts S (w.counter S e) p w (w.step S e) ∧ w.issued S e = [(some p.1, p.2)] := by
  unfold issued
  rcases starts_step (S := S) w e with hstill | ⟨p, hp, hstarts⟩
  · rw [started_of_still hstill]
    exact .inl rfl
  · rw [started_of_launches hstarts.toLaunches, hp]
    by_cases hcounts : p.2.Counts
    · refine .inr ⟨p, rfl, hstarts.counts.mp hcounts, hstarts, ?_⟩
      rw [List.filter_cons_of_pos (by simpa using hcounts)]
      rfl
    · left
      rw [List.filter_cons_of_neg (by simpa using hcounts)]
      rfl

/-- The counter is not behind the dialog. -/
theorem localCSeq_le_counter (w : World) (e : Event) :
    w.dlg.info.localCSeq ≤ w.counter S e := by
  unfold counter
  split
  · exact (silent_early w _).localCSeq
  · exact Int.le_refl _

theorem localCSeq_step (w : World) (e : Event) :
    w.dlg.info.localCSeq ≤ (w.step S e).dlg.info.localCSeq := by
  rcases starts_step (S := S) w e with hstill | ⟨p, -, hstarts⟩
  · exact hstill.localCSeq
  · exact hstarts.localCSeq

/-- Whoever numbers the next request looks at the requests that were sent before. -/
def CountsUp (S : SipStack) (p : World × List (Option Origin × SipMessage)) (e : Event) : Prop :=
  match p.1.origin S e with
  | none => True
  | some .made => ∀ q ∈ p.2, q.1 ≠ some .made → q.2.cseq ≤ p.1.counter S e
  | some .opened => ∀ q ∈ p.2, q.2.cseq < pickInitialCSeq
  | some (.given m) => m.Counts → ∀ q ∈ p.2, q.2.cseq < m.cseq
  | some (.retried req) => req.Counts → ∀ q ∈ p.2, q.2.cseq ≤ req.cseq

instance (p : World × List (Option Origin × SipMessage)) (e : Event) :
    Decidable (CountsUp S p e) := by
  unfold CountsUp
  split <;> infer_instance

/-- The numbers go up, and the dialog knows the ones that it gave. -/
structure Counted (p : World × List (Option Origin × SipMessage)) : Prop where
  increasing : p.2.Pairwise fun a b => a.2.cseq < b.2.cseq
  made : ∀ q ∈ p.2, q.1 = some .made → q.2.cseq ≤ p.1.dlg.info.localCSeq

/-- The next number is above all others. -/
theorem Counted.lt {p : World × List (Option Origin × SipMessage)} (h : Counted p) {e : Event}
    (hup : CountsUp S p e) {o : Origin} (ho : p.1.origin S e = some o) (hcounts : o.Counts) :
    ∀ q ∈ p.2, q.2.cseq < o.cseq (p.1.counter S e) := by
  intro q hq
  unfold CountsUp at hup
  rw [ho] at hup
  cases o with
  | made =>
    have hle : q.2.cseq ≤ p.1.counter S e := by
      by_cases hmade : q.1 = some .made
      · exact Int.le_trans (h.made q hq hmade) (localCSeq_le_counter ..)
      · exact hup q hq hmade
    show q.2.cseq < p.1.counter S e + 1
    omega
  | opened => exact hup q hq
  | given m => exact hup hcounts q hq
  | retried req =>
    have hle := hup hcounts q hq
    show q.2.cseq < req.cseq + 1
    omega

theorem Counted.step {p : World × List (Option Origin × SipMessage)} {e : Event}
    (hup : CountsUp S p e) (h : Counted p) :
    Counted (recording (World.step S) (issued S) p e) := by
  have hmade (q) (hq : q ∈ p.2) (ho : q.1 = some .made) :
      q.2.cseq ≤ (p.1.step S e).dlg.info.localCSeq :=
    Int.le_trans (h.made q hq ho) (localCSeq_step p.1 e)
  rcases issued_step (S := S) p.1 e with hnone | ⟨q, ho, hcounts, hstarts, hissued⟩
  · have hsame : recording (World.step S) (issued S) p e = (p.1.step S e, p.2) := by
      rw [recording, hnone, List.append_nil]
    rw [hsame]
    exact ⟨h.increasing, hmade⟩
  · have hnew : recording (World.step S) (issued S) p e =
        (p.1.step S e, p.2 ++ [(some q.1, q.2)]) := by
      rw [recording, hissued]
    rw [hnew]
    constructor
    · refine List.pairwise_append.mpr ⟨h.increasing, List.pairwise_singleton .., ?_⟩
      intro a ha b hb
      rw [List.mem_singleton.mp hb, hstarts.cseq]
      exact h.lt hup ho hcounts a ha
    · intro a ha hmade'
      rcases List.mem_append.mp ha with ha | ha
      · exact hmade a ha hmade'
      · rw [List.mem_singleton.mp ha] at hmade' ⊢
        exact hstarts.counted (Option.some.inj hmade')

/-- **The sequence numbers of a run go up.** -/
theorem counted_up {w : World} {es : List Event}
    (hes : Meets (recording (step S) (issued S)) (CountsUp S) (w, []) es) :
    (outputs (step S) (issued S) w es).Pairwise fun a b => a.2.cseq < b.2.cseq :=
  (outputs_of_meets (I := Counted) (fun _ _ => Counted.step) hes ⟨.nil, by simp⟩).increasing

/-- Alice's INFO with the number `cseq` and the branch `branch`. -/
def sampleInfo (cseq : ℤ) (branch : String) : SipMessage :=
  sampleRequest .info cseq (some "tag") branch

/-- A call of alice in which her INFO is challenged and sent again. -/
def sampleChallenged : List Event :=
  [.api (.inviteMessage sampleInvite), .recv (sampleResponse sampleInvite 200), .ret, .ret, .ret,
    .ret, .ret, .ret, .api (.info none none),
    .recv { sampleResponse (sampleInfo 2 "1") 401 with wwwAuthenticate := sampleChallenge }, .ret,
    .recv (sampleResponse (sampleInfo 3 "2") 200), .ret, .ret]

theorem counted_up_challenged :
    (outputs (step sampleStack) (issued sampleStack) (World.init sampleStack)
      sampleChallenged).Pairwise fun a b => a.2.cseq < b.2.cseq :=
  counted_up (by decide +kernel)

/-- **A number is used twice**: the INFO after the one that was sent again. -/
theorem counted_twice :
    ((outputs (step sampleStack) (issued sampleStack) (World.init sampleStack)
      (sampleChallenged ++ [.api (.info none none)])).map fun p => (p.2.is .info, p.2.cseq)) =
        [(false, 1), (true, 2), (true, 3), (true, 3)] ∧
    ¬ (outputs (step sampleStack) (issued sampleStack) (World.init sampleStack)
      (sampleChallenged ++ [.api (.info none none)])).Pairwise fun a b => a.2.cseq < b.2.cseq := by
  decide +kernel

end World
end SoftPhone
