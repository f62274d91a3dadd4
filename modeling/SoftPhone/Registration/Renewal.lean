import SoftPhone.Registration.Moves

/-!
# What the user asked for, and what the client goes on doing

After `halt` the client should schedule no further registration, and after `unregister`
it should send no REGISTER that registers something, until the user asks for it again.
`Obeyed` says so about the log of a run.

Neither holds of every run.  `halt` clears the loop only while `run` is running, although
it is `loopRegister` that sets it; and `unregister` is `register(0)`, which leaves the loop
and the expiration time as they are.  And a REGISTER that was sent before `unregister` is
sent again after it, by its transaction and when it is challenged.  `Deliberate` leaves
these cases out, and then the user is obeyed (`obeyed_of_deliberate`).
-/

namespace SoftPhone

/-- A call of the user. -/
def RegistrationObs.isCall : RegistrationObs → Bool
  | .called _ => true
  | _ => false

namespace Registration

open Machine

/-! ## What the user asked for -/

/-- Of the calls of `halt` and `loopRegister`, the last one was of `halt`. -/
def halted : List RegistrationObs → Bool
  | [] => false
  | .called .halt :: _ => true
  | .called (.loopRegister _ _) :: _ => false
  | _ :: log => halted log

/-- Of the calls of `unregister` and of the methods that register, the last one was of
`unregister`. -/
def unregistered : List RegistrationObs → Bool
  | [] => false
  | .called .unregister :: _ => true
  | .called .register :: _ => false
  | .called (.registerFor _) :: _ => false
  | .called (.registerWithBody _ _ _) :: _ => false
  | .called (.loopRegister _ _) :: _ => false
  | _ :: log => unregistered log

/-- What is observed after `earlier` is what the user asked for: after `halt` no timer for
the next registration is started, and `register` is entered only when the user has called
something; after `unregister` every REGISTER that is sent has an expiration time of zero. -/
def Obeys (earlier : List RegistrationObs) : RegistrationObs → Prop
  | .scheduled _ _ => halted earlier = false
  | .registering _ => halted earlier = true → earlier.head?.any RegistrationObs.isCall = true
  | .sent m => unregistered earlier = true → m.expires = some 0
  | _ => True

/-- Everything that was observed is what the user asked for. -/
def Obeyed (log : List RegistrationObs) : Prop :=
  ∀ l ∈ log.tails, ∀ o ∈ l.head?, Obeys l.tail o

instance (earlier : List RegistrationObs) : DecidablePred (Obeys earlier)
  | .scheduled _ _ => inferInstanceAs (Decidable (halted earlier = false))
  | .registering _ => inferInstanceAs (Decidable (halted earlier = true → _ = true))
  | .sent m => inferInstanceAs (Decidable (unregistered earlier = true → m.expires = some 0))
  | .called _ | .onRegistrationSuccess _ _ | .onRegistrationFailure _ => isTrue trivial

instance (log : List RegistrationObs) : Decidable (Obeyed log) :=
  inferInstanceAs (Decidable (∀ l ∈ log.tails, ∀ o ∈ l.head?, Obeys l.tail o))

theorem obeyed_nil : Obeyed [] := by
  simp [Obeyed]

theorem obeyed_cons {o : RegistrationObs} {log : List RegistrationObs} :
    Obeyed (o :: log) ↔ Obeys log o ∧ Obeyed log := by
  simp [Obeyed]

/-- `halt` is called when it works or has nothing to do; `unregister` is called when the
loop is off or registers for no time; and after it no challenge is answered and no
retransmission made for a REGISTER that registers something. -/
structure Deliberate (A : RegistrationAccount) (w : Registration) (e : RegistrationEvent) :
    Prop where
  halt : e = .call .halt → w.client.loop = false ∨ w.client.isRunning = true
  unregister : e = .call .unregister → w.client.loop = false ∨ w.client.expireTime = 0
  answered : unregistered w.log = true →
    ∀ p ∈ w.answered A e, p.2.2.Answerable A → p.2.1.expires = some 0
  resent : unregistered w.log = true → ∀ m ∈ w.resent e, m.expires = some 0

instance (A : RegistrationAccount) (w : Registration) (e : RegistrationEvent) :
    Decidable (w.Deliberate A e) :=
  decidable_of_iff
    ((e = .call .halt → w.client.loop = false ∨ w.client.isRunning = true) ∧
      (e = .call .unregister → w.client.loop = false ∨ w.client.expireTime = 0) ∧
      (unregistered w.log = true →
        ∀ p ∈ w.answered A e, p.2.2.Answerable A → p.2.1.expires = some 0) ∧
      (unregistered w.log = true → ∀ m ∈ w.resent e, m.expires = some 0))
    ⟨fun h => ⟨h.1, h.2.1, h.2.2.1, h.2.2.2⟩, fun h => ⟨h.1, h.2, h.3, h.4⟩⟩

/-! ## The log -/

theorem halted_cons {o : RegistrationObs} (ho : o.isCall = false)
    (log : List RegistrationObs) : halted (o :: log) = halted log := by
  cases o with
  | called => cases ho
  | _ => rfl

theorem unregistered_cons {o : RegistrationObs} (ho : o.isCall = false)
    (log : List RegistrationObs) : unregistered (o :: log) = unregistered log := by
  cases o with
  | called => cases ho
  | _ => rfl

/-- What depends on the calls only is not changed by anything else that is observed. -/
theorem append_of_not_isCall {α : Type*} {f : List RegistrationObs → α}
    (hf : ∀ {o : RegistrationObs}, o.isCall = false → ∀ log, f (o :: log) = f log)
    {l : List RegistrationObs} (hl : ∀ o ∈ l, o.isCall = false) (log : List RegistrationObs) :
    f (l ++ log) = f log := by
  induction l with
  | nil => rfl
  | cons o l ih =>
    rw [List.cons_append, hf (hl o (List.mem_cons_self ..)),
      ih fun o' ho' => hl o' (List.mem_cons_of_mem o ho')]

theorem halted_append {l : List RegistrationObs} (hl : ∀ o ∈ l, o.isCall = false)
    (log : List RegistrationObs) : halted (l ++ log) = halted log :=
  append_of_not_isCall halted_cons hl log

theorem unregistered_append {l : List RegistrationObs} (hl : ∀ o ∈ l, o.isCall = false)
    (log : List RegistrationObs) : unregistered (l ++ log) = unregistered log :=
  append_of_not_isCall unregistered_cons hl log

theorem Minor.isCall {w₀ w : Registration} {e : RegistrationEvent} {o : RegistrationObs}
    (h : Minor w₀ e w o) : o.isCall = false := by
  cases o with
  | called => exact absurd h id
  | _ => rfl

/-- After a call that registers nothing is unregistered. -/
theorem unregistered_of_registers {log : List RegistrationObs} {c : RegistrationCall}
    (h : log.head? = some (.called c)) (hc : c.Registers) : unregistered log = false := by
  cases log with
  | nil => cases h
  | cons o log =>
    obtain rfl := Option.some.inj h
    cases c with
    | register | registerFor | registerWithBody | loopRegister => rfl
    | unregister | unregisterall | halt | run => exact absurd hc id

theorem halted_of_loopRegister {log : List RegistrationObs} {expireTime renewTime : ℤ}
    (h : log.head? = some (.called (.loopRegister expireTime renewTime))) : halted log = false := by
  cases log with
  | nil => cases h
  | cons o log =>
    obtain rfl := Option.some.inj h
    rfl

/-! ## The invariant -/

/-- The user is obeyed so far, and the loop is off where it has to be. -/
structure Obeying (w₀ : Registration) (e : RegistrationEvent) (w : Registration) : Prop where
  obeyed : Obeyed w.log
  halted : halted w.log = true → w.client.loop = false
  unregistered : unregistered w.log = true → w.client.loop = false ∨ w.client.expireTime = 0
  /-- Until the user calls something, nothing is asked for. -/
  same : (∀ c, e ≠ .call c) → Registration.unregistered w.log = Registration.unregistered w₀.log

variable {A : RegistrationAccount} {S : SipStack} {w₀ : Registration} {e : RegistrationEvent}

theorem not_call_of_answered {p : SipMessage × SipMessage × Challenge}
    (hp : p ∈ w₀.answered A e) (c : RegistrationCall) : e ≠ .call c := by
  rintro rfl
  cases hp

theorem not_call_of_resent {m : SipMessage} (hm : m ∈ w₀.resent e) (c : RegistrationCall) :
    e ≠ .call c := by
  rintro rfl
  cases hm

theorem Obeying.quiet {w w' : Registration} (hd : w₀.Deliberate A e) (h : Obeying w₀ e w)
    (hq : Quiet w₀ e w w') : Obeying w₀ e w' := by
  obtain ⟨l, hl, hminor⟩ := hq.log
  have hown : ∀ o ∈ l, o.isCall = false := fun o ho => (hminor o ho).isCall
  have hhalted : Registration.halted w'.log = Registration.halted w.log := by
    rw [hl, halted_append hown]
  have hunreg : Registration.unregistered w'.log = Registration.unregistered w.log := by
    rw [hl, unregistered_append hown]
  refine ⟨?_, ?_, ?_, fun he => hunreg.trans (h.same he)⟩
  · rw [hl]
    -- the entries are checked from the oldest on
    clear hl hhalted hunreg
    induction l with
    | nil => exact h.obeyed
    | cons o l ih =>
      have hown' : ∀ o ∈ l, o.isCall = false :=
        fun o' ho' => hown o' (List.mem_cons_of_mem o ho')
      have hlog : Obeyed (l ++ w.log) :=
        ih (fun o' ho' => hminor o' (List.mem_cons_of_mem o ho')) hown'
      have ho := hminor o (List.mem_cons_self ..)
      rw [List.cons_append]
      cases o with
      | called | registering => exact absurd ho id
      | onRegistrationSuccess | onRegistrationFailure => exact obeyed_cons.mpr ⟨trivial, hlog⟩
      | sent m =>
        refine obeyed_cons.mpr ⟨fun hun => ?_, hlog⟩
        rw [unregistered_append hown', h.same (not_call_of_resent ho)] at hun
        exact hd.resent hun m ho
      | scheduled n time =>
        refine obeyed_cons.mpr ⟨?_, hlog⟩
        show Registration.halted (l ++ w.log) = false
        rw [halted_append hown']
        cases hhalted : Registration.halted w.log with
        | false => rfl
        | true => exact absurd ((h.halted hhalted).symm.trans ho) nofun
  · rw [hhalted, hq.loop]
    exact h.halted
  · rw [hunreg, hq.loop, hq.expires]
    exact h.unregistered

theorem Obeying.registers {w w' : Registration} (h : Obeying w₀ e w) {expireTime : ℤ}
    {req : Option SipMessage} (hdue : w.Due expireTime)
    (hr : Registers S expireTime req w w') : Obeying w₀ e w' := by
  have hown : ∀ o ∈ req.toList.map RegistrationObs.sent, o.isCall = false := by
    simp [RegistrationObs.isCall]
  have hentered : (RegistrationObs.registering expireTime).isCall = false := rfl
  have hunreg : Registration.unregistered w'.log = Registration.unregistered w.log := by
    rw [hr.log, unregistered_append hown, unregistered_cons hentered]
  -- what the client registers for on its own is nothing, once the user has unregistered
  have hzero (hun : Registration.unregistered w.log = true) : expireTime = 0 := by
    cases hdue with
    | asked hlog hc =>
      refine hc.resolve_left fun hc => ?_
      rw [unregistered_of_registers hlog hc] at hun
      cases hun
    | loop hloop hexpire =>
      rcases h.unregistered hun with hoff | hexpire'
      · rw [hloop] at hoff
        cases hoff
      · rw [hexpire, hexpire']
  refine ⟨?_, ?_, ?_, fun he => hunreg.trans (h.same he)⟩
  · have hentry : Obeyed (.registering expireTime :: w.log) := by
      refine obeyed_cons.mpr ⟨fun hhalted => ?_, h.obeyed⟩
      cases hdue with
      | asked hlog hc =>
        rw [hlog]
        rfl
      | loop hloop hexpire =>
        rw [h.halted hhalted] at hloop
        cases hloop
    rw [hr.log]
    cases req with
    | none => exact hentry
    | some m =>
      refine obeyed_cons.mpr ⟨fun hun => ?_, hentry⟩
      rw [(hr.made m rfl).1, hzero hun]
  · rw [hr.log, halted_append hown, halted_cons hentered, hr.loop]
    exact h.halted
  · intro hun
    rw [hunreg] at hun
    rw [hr.loop, hr.expires, hzero hun, if_neg (by omega)]
    exact h.unregistered hun

theorem Obeying.answers {w w' : Registration} (hd : w₀.Deliberate A e) (h : Obeying w₀ e w)
    {p : SipMessage × SipMessage × Challenge} {req : Option SipMessage}
    (hp : p ∈ w₀.answered A e) (ha : Answers A S p req w w') : Obeying w₀ e w' := by
  have hown : ∀ o ∈ req.toList.map RegistrationObs.sent, o.isCall = false := by
    simp [RegistrationObs.isCall]
  have hunreg : Registration.unregistered w'.log = Registration.unregistered w.log := by
    rw [ha.log, unregistered_append hown]
  refine ⟨?_, ?_, ?_, fun he => hunreg.trans (h.same he)⟩
  · rw [ha.log]
    cases req with
    | none => exact h.obeyed
    | some m =>
      refine obeyed_cons.mpr ⟨fun hun => ?_, h.obeyed⟩
      replace hun : Registration.unregistered w.log = true := hun
      rw [h.same (not_call_of_answered hp)] at hun
      rw [(ha.made m rfl).1]
      exact hd.answered hun p hp (ha.answerable (by simp))
  · rw [ha.log, halted_append hown, ha.loop]
    exact h.halted
  · rw [hunreg, ha.loop, ha.expires]
    exact h.unregistered

/-- A call of the user other than `halt`. -/
theorem Obeying.called (hd : w₀.Deliberate A e) (h : Obeying w₀ e w₀) {c : RegistrationCall}
    (he : e = .call c) (hc : c ≠ .halt) : Obeying w₀ e (w₀.observe (.called c)) := by
  refine ⟨obeyed_cons.mpr ⟨trivial, h.obeyed⟩, ?_, ?_, fun hne => absurd he (hne c)⟩
  · cases c with
    | loopRegister => exact fun hhalted => nomatch hhalted
    | halt => exact absurd rfl hc
    | _ => exact h.halted
  · cases c with
    | unregister => exact fun _ => hd.unregister he
    | unregisterall | halt | run => exact h.unregistered
    | _ => exact fun hun => nomatch hun

theorem Obeying.halts (hd : w₀.Deliberate A e) (h : Obeying w₀ e w₀) (he : e = .call .halt) :
    Obeying w₀ e (w₀.observe (.called .halt)).halt := by
  unfold halt
  by_cases hrun : w₀.client.isRunning = true
  · rw [show (w₀.observe (.called .halt)).client.isRunning = true from hrun, if_pos rfl]
    exact ⟨obeyed_cons.mpr ⟨trivial, h.obeyed⟩, fun _ => rfl, fun _ => .inl rfl,
      fun hne => absurd he (hne .halt)⟩
  · rw [show (w₀.observe (.called .halt)).client = w₀.client from rfl, if_neg hrun]
    exact ⟨obeyed_cons.mpr ⟨trivial, h.obeyed⟩, fun _ => (hd.halt he).resolve_right hrun,
      h.unregistered, fun hne => absurd he (hne .halt)⟩

theorem Obeying.move {w w' : Registration} (hd : w₀.Deliberate A e) (hm : Move A S w₀ e w w')
    (h : Obeying w₀ e w) : Obeying w₀ e w' := by
  cases hm with
  | quiet hq => exact h.quiet hd hq
  | called he hc => exact h.called hd he hc
  | halts he => exact h.halts hd he
  | loops hlog hw' hattempts =>
    have hlog' : w'.log = w.log := by rw [hw']
    refine ⟨hlog' ▸ h.obeyed, fun hhalted => ?_, fun hun => ?_, fun he => ?_⟩
    · rw [hlog', halted_of_loopRegister hlog] at hhalted
      cases hhalted
    · rw [hlog', unregistered_of_registers hlog trivial] at hun
      cases hun
    · rw [hlog']
      exact h.same he
  | registers hdue hr => exact h.registers hdue hr
  | answers hp ha => exact h.answers hd hp ha

theorem Obeying.step {w : Registration} (hd : w.Deliberate A e) (h : Obeying w e w) :
    Obeying (w.step A S e) e (w.step A S e) := by
  have h' := invariant_step (fun _ _ => Obeying.move (S := S) hd) h
  exact ⟨h'.obeyed, h'.halted, h'.unregistered, fun _ => rfl⟩

/-- **The user is obeyed.** -/
theorem obeyed_of_deliberate {es : List RegistrationEvent}
    (hes : Meets (step A S) (Deliberate A) (new A) es) :
    Obeyed (run (step A S) (new A) es).log := by
  have hnew : ∀ e, Obeying (new A) e (new A) := fun e =>
    ⟨obeyed_nil, fun h => (nomatch h), fun h => (nomatch h), fun _ => rfl⟩
  have hrun : ∀ e, Obeying (run (step A S) (new A) es) e (run (step A S) (new A) es) := by
    refine run_invariant_of_meets (I := fun w => ∀ e, Obeying w e w) (fun w e hd h e' => ?_) hes hnew
    have h' := (h e).step (S := S) hd
    exact ⟨h'.obeyed, h'.halted, h'.unregistered, fun _ => rfl⟩
  exact (hrun .ret).obeyed

/-- Alice registers in a loop, in `run`, halts it, and unregisters with credentials. -/
theorem obeyed_of_deliberate_unregister :
    Obeyed (run (step sampleAccount {}) (new sampleAccount)
      [.call (.loopRegister 3600 1800), .recv (sampleResponse (sampleRegister 0) 200), .ret,
        .call .run, .recv (sampleResponse (sampleRegister 1) 200), .ret, .call .halt, .wake,
        .call .unregister,
        .recv { sampleResponse (sampleRegister 2) 401 with wwwAuthenticate := sampleChallenge },
        .ret, .recv (sampleResponse { sampleRegister 2 with cseq := 2, branch := "3" } 200),
        .ret]).log :=
  obeyed_of_deliberate (by decide +kernel)

/-- **Neither is obeyed.**  The answer to the REGISTER of `loopRegister` comes after `halt`
and the next registration is scheduled; the timer expires after `unregister` and the contact
is registered again. -/
theorem not_obeyed :
    ¬ Obeyed (run (step sampleAccount {}) (new sampleAccount)
      [.call (.loopRegister 3600 1800), .call .halt,
        .recv (sampleResponse (sampleRegister 0) 200)]).log ∧
    ¬ Obeyed (run (step sampleAccount {}) (new sampleAccount)
      [.call (.loopRegister 3600 1800), .recv (sampleResponse (sampleRegister 0) 200), .ret,
        .call .unregister, .renewal .registration]).log := by
  decide +kernel

end Registration
end SoftPhone
