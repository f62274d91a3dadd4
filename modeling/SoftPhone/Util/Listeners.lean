import SoftPhone.Util.Counted

/-!
# A listener is called once

A timer calls its listener while it is running, and has none any more when it is terminated.  So
each listener is called at most once (`Calling`), and after a timer has been started, a call of
`halt` is the end of it.  But `halt` does nothing if the timer is not running, so a timer may be
halted first and then started (`called_after_halt`).

`Run.bookkeeping` puts together what holds in each run.
-/

namespace SoftPhone
namespace Util

/-! ## What a step does with a timer -/

/-- What a step may do with the fields of a timer: nothing, stop it, start it, or both. -/
inductive Moves (x : Timer) : Timer → Prop where
  | refl : Moves x x
  | stop : x.isRunning = true → Moves x x.stopped
  | run (daemon : Bool) (now : ℤ) :
      x.isRunning = false → 0 ≤ x.time → Moves x (x.running daemon now)
  | fire (daemon : Bool) (now : ℤ) :
      x.isRunning = false → 0 ≤ x.time → Moves x (x.running daemon now).stopped

namespace State

variable {α : Type} {s : State α}

theorem discount_fields (s : State α) :
    s.discount.timer = s.timer ∧ s.discount.callbacks = s.callbacks ∧ s.discount.calls = s.calls ∧
      s.discount.executing = s.executing := by
  unfold discount
  dsimp only
  split
  · split
    · exact ⟨rfl, rfl, rfl, rfl⟩
    · exact ⟨rfl, rfl, rfl, rfl⟩
  · exact ⟨rfl, rfl, rfl, rfl⟩

theorem scheduleTask_fields (t : α) (id : ℕ) (time now : ℤ) (daemon : Bool) (n : ℕ) (s : State α) :
    (scheduleTask t id time now daemon n s).timer = s.timer ∧
      (scheduleTask t id time now daemon n s).callbacks = s.callbacks ∧
      (scheduleTask t id time now daemon n s).calls = s.calls := by
  induction n generalizing s with
  | zero => exact ⟨rfl, rfl, rfl⟩
  | succ n ih =>
    have hset (s : State α) (c : Option ℕ) : (s.setCurrent daemon c).timer = s.timer ∧
        (s.setCurrent daemon c).callbacks = s.callbacks ∧
        (s.setCurrent daemon c).calls = s.calls := by
      cases daemon <;> exact ⟨rfl, rfl, rfl⟩
    have hcreate : (s.create daemon).2.timer = s.timer ∧
        (s.create daemon).2.callbacks = s.callbacks ∧ (s.create daemon).2.calls = s.calls := by
      unfold create
      split
      · exact ⟨rfl, rfl, rfl⟩
      · exact hset s _
    rw [scheduleTask]
    split
    · exact hcreate
    · split
      · obtain ⟨htimer, hcallbacks, hcalls⟩ := ih ((s.create daemon).2.setCurrent daemon none)
        obtain ⟨htimer', hcallbacks', hcalls'⟩ := hset (s.create daemon).2 none
        rw [htimer, hcallbacks, hcalls, htimer', hcallbacks', hcalls']
        exact hcreate
      · exact hcreate

theorem finish_fields (s : State α) (θ : Thread) :
    (s.finish θ).timer = s.timer ∧ (s.finish θ).callbacks = s.callbacks ∧
      (s.finish θ).calls = s.calls := by
  cases θ with
  | user n => exact ⟨rfl, rfl, rfl⟩
  | scheduler c =>
    unfold finish
    dsimp only
    split <;> exact ⟨rfl, rfl, rfl⟩

variable [DecidableEq α]

theorem timer_terminate (s : State α) (t : α) : (s.terminate t).timer =
    if (s.timer t).isRunning then Function.update s.timer t (s.timer t).stopped else s.timer := by
  rcases terminate_cases s t with ⟨hstopped, heq⟩ | ⟨hrunning, -, heq⟩ | ⟨hcounted, heq⟩
  · rw [heq, hstopped]
    rfl
  · rw [heq, hrunning]
    rfl
  · rw [heq, hcounted.1, (discount_fields _).1]
    rfl

theorem terminate_fields (s : State α) (t : α) :
    (s.terminate t).callbacks = s.callbacks ∧ (s.terminate t).calls = s.calls ∧
      (s.terminate t).executing = s.executing := by
  rcases terminate_cases s t with ⟨-, heq⟩ | ⟨-, -, heq⟩ | ⟨-, heq⟩
  · rw [heq]
    exact ⟨rfl, rfl, rfl⟩
  · rw [heq]
    exact ⟨rfl, rfl, rfl⟩
  · rw [heq]
    exact (discount_fields _).2

theorem callbacks_terminate (s : State α) (t : α) : (s.terminate t).callbacks = s.callbacks :=
  (terminate_fields s t).1

theorem calls_terminate (s : State α) (t : α) : (s.terminate t).calls = s.calls :=
  (terminate_fields s t).2.1

theorem executing_terminate (s : State α) (t : α) : (s.terminate t).executing = s.executing :=
  (terminate_fields s t).2.2

/-- A timer that is terminated is not running. -/
theorem isRunning_terminate (s : State α) (t : α) :
    ((s.terminate t).timer t).isRunning = false := by
  rw [timer_terminate]
  by_cases h : (s.timer t).isRunning = true
  · rw [if_pos h, Function.update_self]
    rfl
  · rw [if_neg h]
    simpa using h

theorem moves_terminate (s : State α) (t t' : α) :
    Moves (s.timer t') ((s.terminate t).timer t') := by
  rw [timer_terminate]
  by_cases h : (s.timer t).isRunning = true
  · rw [if_pos h]
    by_cases ht : t' = t
    · subst ht
      rw [Function.update_self]
      exact .stop h
    · rw [Function.update_of_ne ht]
      exact .refl
  · rw [if_neg h]
    exact .refl

theorem moves_processInnerTimeout (s : State α) (θ : Thread) (t t' : α) :
    Moves (s.timer t') ((s.processInnerTimeout θ t).timer t') := by
  unfold processInnerTimeout
  split
  · exact .refl
  · exact moves_terminate s t t'

theorem moves_start (s : State α) (θ : Thread) (t : α) (daemon : Bool) (now : ℤ) (t' : α) :
    Moves (s.timer t') ((s.start θ t daemon now).timer t') := by
  unfold start
  split
  · exact .refl
  · rename_i hstart
    rw [not_or, not_lt] at hstart
    have hstopped : (s.timer t).isRunning = false := by simpa using hstart.2
    by_cases ht : t' = t
    · subst ht
      have hself : (s.running t' daemon now).timer t' = (s.timer t').running daemon now :=
        timer_setTimer t' _
      split
      · rw [(scheduleTask_fields ..).1]
        show Moves _ ((s.running t' daemon now).timer t')
        rw [hself]
        exact .run daemon now hstopped hstart.1
      · unfold processInnerTimeout
        split
        · show Moves _ ((s.running t' daemon now).timer t')
          rw [hself]
          exact .run daemon now hstopped hstart.1
        · have hrunning : ((s.running t' daemon now).timer t').isRunning = true := by
            rw [hself]
            rfl
          rw [timer_terminate, if_pos hrunning, Function.update_self, hself]
          exact .fire daemon now hstopped hstart.1
    · have hother : (s.running t daemon now).timer t' = s.timer t' := timer_setTimer_of_ne ht _
      split
      · rw [(scheduleTask_fields ..).1]
        show Moves _ ((s.running t daemon now).timer t')
        rw [hother]
        exact .refl
      · rw [← hother]
        exact moves_processInnerTimeout _ θ t t'

/-- **What a step does with a timer.** -/
theorem moves_apply (s : State α) (e : Event α) (t : α) : Moves (s.timer t) ((apply s e).timer t) := by
  cases e with
  | start θ t' daemon now => exact moves_start s θ t' daemon now t
  | halt θ t' => exact moves_terminate s t' t
  | take task => exact .refl
  | expire c =>
    unfold apply
    dsimp only
    split
    · exact .refl
    · rw [(finish_fields ..).1]
      exact moves_processInnerTimeout s _ _ t
  | ret θ =>
    unfold apply
    dsimp only
    split
    · exact .refl
    · rw [(finish_fields ..).1]
      exact moves_terminate (s.pop θ _) _ t

/-- **What a step does with the number of calls**: it changes only for a timer with a listener that
is running or whose time is not negative. -/
theorem calls_apply (s : State α) (e : Event α) (t : α) : (apply s e).calls t = s.calls t ∨
    (s.timer t).listener = true ∧ ((s.timer t).isRunning = true ∨ 0 ≤ (s.timer t).time) := by
  have hinner (s : State α) (θ : Thread) (t' : α) : (s.processInnerTimeout θ t').calls t = s.calls t ∨
      (s.timer t).listener = true ∧ (s.timer t).isRunning = true ∧ t = t' := by
    unfold processInnerTimeout
    split
    · rename_i hboth
      by_cases ht : t = t'
      · subst ht
        exact .inr ⟨hboth.2, hboth.1, rfl⟩
      · exact .inl (Function.update_of_ne ht ..)
    · rw [calls_terminate]
      exact .inl rfl
  cases e with
  | start θ t' daemon now =>
    unfold apply start
    dsimp only
    split
    · exact .inl rfl
    · rename_i hstart
      rw [not_or, not_lt] at hstart
      split
      · rw [(scheduleTask_fields ..).2.2]
        exact .inl rfl
      · rcases hinner (s.running t' daemon now) θ t' with hsame | ⟨hlistener, -, rfl⟩
        · exact .inl hsame
        · unfold running at hlistener
          rw [timer_setTimer] at hlistener
          exact .inr ⟨hlistener, .inr hstart.1⟩
  | halt θ t' =>
    unfold apply
    rw [calls_terminate]
    exact .inl rfl
  | take task => exact .inl rfl
  | expire c =>
    unfold apply
    dsimp only
    split
    · exact .inl rfl
    · rename_i task htask
      rw [(finish_fields ..).2.2]
      exact (hinner s (.scheduler c) task.timer).imp id fun h => ⟨h.1, .inl h.2.1⟩
  | ret θ =>
    unfold apply
    dsimp only
    split
    · exact .inl rfl
    · rw [(finish_fields ..).2.2, calls_terminate]
      exact .inl rfl

end State

namespace Moves

variable {x y : Timer}

theorem time (h : Moves x y) : y.time = x.time := by
  cases h <;> rfl

/-- A listener that is gone does not come back. -/
theorem listener (h : Moves x y) (hx : x.listener = false) : y.listener = false := by
  cases h <;> first | exact hx | rfl

theorem nonneg (h : Moves x y) (hx : x.isRunning = true → 0 ≤ x.time) (hy : y.isRunning = true) :
    0 ≤ y.time := by
  cases h with
  | refl => exact hx hy
  | stop => exact nomatch hy
  | run daemon now hstopped htime => exact htime
  | fire => exact nomatch hy

end Moves

/-- The listener is not called any more. -/
def Timer.Silent (x : Timer) : Prop := x.listener = false ∨ x.time < 0 ∧ x.isRunning = false

/-- The timer has been started. -/
def Timer.Started (x : Timer) : Prop := x.Silent ∨ x.isRunning = true

theorem Moves.silent {x y : Timer} (h : Moves x y) (hx : x.Silent) : y.Silent := by
  rcases hx with hlistener | ⟨htime, hstopped⟩
  · exact .inl (h.listener hlistener)
  · cases h with
    | refl => exact .inr ⟨htime, hstopped⟩
    | stop => exact .inl rfl
    | run daemon now _ hle => omega
    | fire daemon now _ hle => exact .inl rfl

theorem Moves.started {x y : Timer} (h : Moves x y) (hx : x.Started) : y.Started := by
  rcases hx with hsilent | hrunning
  · exact .inl (h.silent hsilent)
  · cases h with
    | refl => exact .inr hrunning
    | stop => exact .inl (.inl rfl)
    | run daemon now hstopped =>
      rw [hrunning] at hstopped
      exact nomatch hstopped
    | fire => exact .inl (.inl rfl)

/-! ## Callbacks -/

namespace State

/-- **The bookkeeping of the listeners**: a listener is called at most once; and if it was called and
is still there, the call is in progress. -/
structure Calling {α : Type} (s : State α) : Prop where
  called : ∀ θ, ∀ t ∈ s.callbacks θ, s.calls t = 1
  once : ∀ t, s.calls t ≤ 1
  listener : ∀ t, s.calls t = 1 → (s.timer t).listener = true →
    (s.timer t).isRunning = true ∧ ∃ θ, t ∈ s.callbacks θ
  nonneg : ∀ t, (s.timer t).isRunning = true → 0 ≤ (s.timer t).time

namespace Calling

variable {α : Type} [DecidableEq α] {s : State α}

/-- `terminate`. -/
theorem terminate (h : s.Calling) (t : α) : (s.terminate t).Calling := by
  refine ⟨?_, ?_, fun t' hcalls hlistener => ?_, fun t' => ?_⟩
  · rw [callbacks_terminate, calls_terminate]
    exact h.called
  · rw [calls_terminate]
    exact h.once
  · rw [calls_terminate] at hcalls
    rw [callbacks_terminate]
    by_cases hsame : (s.terminate t).timer t' = s.timer t'
    · rw [hsame] at hlistener ⊢
      exact h.listener t' hcalls hlistener
    · rw [timer_terminate] at hlistener hsame
      split at hlistener
      · rename_i hrunning
        rw [if_pos hrunning] at hsame
        by_cases ht : t' = t
        · subst ht
          rw [Function.update_self] at hlistener
          exact nomatch hlistener
        · exact absurd (Function.update_of_ne ht ..) hsame
      · rename_i hrunning
        rw [if_neg hrunning] at hsame
        exact absurd rfl hsame
  · exact (moves_terminate s t t').nonneg (h.nonneg t')

/-- The listener is called, if it is not being called already. -/
theorem processInnerTimeout (h : s.Calling) {t : α} (θ : Thread)
    (hfree : (s.timer t).listener = true → ∀ θ', t ∉ s.callbacks θ') :
    (s.processInnerTimeout θ t).Calling := by
  unfold State.processInnerTimeout
  split
  · rename_i hboth
    have hzero : s.calls t = 0 := by
      have hle := h.once t
      have hne : s.calls t ≠ 1 := fun hone => by
        obtain ⟨-, θ', hθ'⟩ := h.listener t hone hboth.2
        exact hfree hboth.2 θ' hθ'
      omega
    have hself : (s.onTimeout θ t).calls t = 1 := by
      show Function.update s.calls t (s.calls t + 1) t = 1
      rw [Function.update_self, hzero]
    have hother {t' : α} (ht : t' ≠ t) : (s.onTimeout θ t).calls t' = s.calls t' :=
      Function.update_of_ne ht ..
    have hcallbacks (θ' : Thread) (t' : α) :
        t' ∈ (s.onTimeout θ t).callbacks θ' ↔ θ' = θ ∧ t' = t ∨ t' ∈ s.callbacks θ' := by
      show t' ∈ Function.update s.callbacks θ (t :: s.callbacks θ) θ' ↔ _
      by_cases hθ : θ' = θ
      · subst hθ
        rw [Function.update_self, List.mem_cons]
        simp
      · rw [Function.update_of_ne hθ]
        simp [hθ]
    refine ⟨fun θ' t' ht' => ?_, fun t' => ?_, fun t' hcalls hlistener => ?_, h.nonneg⟩
    · by_cases ht : t' = t
      · rw [ht, hself]
      · rw [hother ht]
        rcases (hcallbacks θ' t').mp ht' with ⟨-, heq⟩ | hmem
        · exact absurd heq ht
        · exact h.called θ' t' hmem
    · by_cases ht : t' = t
      · rw [ht, hself]
      · rw [hother ht]
        exact h.once t'
    · by_cases ht : t' = t
      · rw [ht]
        exact ⟨hboth.1, θ, (hcallbacks θ t).mpr (.inl ⟨rfl, rfl⟩)⟩
      · rw [hother ht] at hcalls
        obtain ⟨hrunning, θ', hθ'⟩ := h.listener t' hcalls hlistener
        exact ⟨hrunning, θ', (hcallbacks θ' t').mpr (.inr hθ')⟩
  · exact h.terminate t

/-- A timer that was not running is running; its listener is not being called. -/
theorem running (h : s.Calling) {t : α} (hstopped : (s.timer t).isRunning = false)
    (htime : 0 ≤ (s.timer t).time) (daemon : Bool) (now : ℤ) :
    (s.running t daemon now).Calling ∧
      ((s.timer t).listener = true → ∀ θ, t ∉ s.callbacks θ) := by
  have hcalls : (s.timer t).listener = true → s.calls t ≠ 1 := fun hlistener hone => by
    rw [(h.listener t hone hlistener).1] at hstopped
    exact nomatch hstopped
  have hself : (s.running t daemon now).timer t = (s.timer t).running daemon now :=
    timer_setTimer t _
  have hother {t' : α} (ht : t' ≠ t) : (s.running t daemon now).timer t' = s.timer t' :=
    timer_setTimer_of_ne ht _
  refine ⟨⟨h.called, h.once, fun t' hone hlistener => ?_, fun t' hrunning => ?_⟩,
    fun hlistener θ hmem => hcalls hlistener (h.called θ t hmem)⟩
  · by_cases ht : t' = t
    · subst ht
      rw [hself] at hlistener
      exact absurd hone (hcalls hlistener)
    · rw [hother ht] at hlistener ⊢
      exact h.listener t' hone hlistener
  · by_cases ht : t' = t
    · subst ht
      rw [hself]
      exact htime
    · rw [hother ht] at hrunning ⊢
      exact h.nonneg t' hrunning

omit [DecidableEq α] in
/-- Only the fields of the timers, the callbacks and the calls matter. -/
theorem congr {s' : State α} (h : s.Calling) (htimer : s'.timer = s.timer)
    (hcallbacks : s'.callbacks = s.callbacks) (hcalls : s'.calls = s.calls) : s'.Calling := by
  refine ⟨?_, ?_, ?_, ?_⟩
  · rw [hcallbacks, hcalls]
    exact h.called
  · rw [hcalls]
    exact h.once
  · rw [hcallbacks, hcalls, htimer]
    exact h.listener
  · rw [htimer]
    exact h.nonneg

/-- `start(daemon_mode)`. -/
theorem start (h : s.Calling) (θ : Thread) (t : α) (daemon : Bool) (now : ℤ) :
    (s.start θ t daemon now).Calling := by
  unfold State.start
  split
  · exact h
  · rename_i hstart
    rw [not_or, not_lt] at hstart
    obtain ⟨hrunning, hfree⟩ := h.running (by simpa using hstart.2) hstart.1 daemon now
    split
    · obtain ⟨htimer, hcallbacks, hcalls⟩ := scheduleTask_fields t s.tasks (s.timer t).time now daemon
        maxAttempts ((s.running t daemon now).newTask t)
      exact hrunning.congr htimer hcallbacks hcalls
    · refine hrunning.processInnerTimeout θ fun hlistener => ?_
      unfold State.running at hlistener
      rw [timer_setTimer] at hlistener
      exact hfree hlistener

/-- A listener returns, and its timer is terminated. -/
theorem ret (h : s.Calling) {θ : Thread} {t : α} {rest : List α} (hθ : s.callbacks θ = t :: rest) :
    ((s.pop θ rest).terminate t).Calling := by
  have hsub (θ' : Thread) (t' : α) (ht' : t' ∈ (s.pop θ rest).callbacks θ') :
      t' ∈ s.callbacks θ' := by
    by_cases heq : θ' = θ
    · subst heq
      have hrest : (s.pop θ' rest).callbacks θ' = rest := Function.update_self ..
      rw [hrest] at ht'
      rw [hθ]
      exact List.mem_cons_of_mem t ht'
    · have hsame : (s.pop θ rest).callbacks θ' = s.callbacks θ' := Function.update_of_ne heq ..
      rwa [hsame] at ht'
  have hback (θ' : Thread) {t' : α} (ht : t' ≠ t) (ht' : t' ∈ s.callbacks θ') :
      t' ∈ (s.pop θ rest).callbacks θ' := by
    by_cases heq : θ' = θ
    · subst heq
      have hrest : (s.pop θ' rest).callbacks θ' = rest := Function.update_self ..
      rw [hθ] at ht'
      rw [hrest]
      exact List.mem_of_ne_of_mem ht ht'
    · have hsame : (s.pop θ rest).callbacks θ' = s.callbacks θ' := Function.update_of_ne heq ..
      rwa [hsame]
  refine ⟨fun θ' t' ht' => ?_, fun t' => ?_, fun t' hcalls hlistener => ?_, fun t' => ?_⟩
  · rw [callbacks_terminate] at ht'
    rw [calls_terminate]
    exact h.called θ' t' (hsub θ' t' ht')
  · rw [calls_terminate]
    exact h.once t'
  · rw [calls_terminate] at hcalls
    have hbefore : (s.timer t').listener = true := by
      by_contra hnot
      have hgone : (s.timer t').listener = false := by simpa using hnot
      rw [(moves_terminate (s.pop θ rest) t t').listener hgone] at hlistener
      exact nomatch hlistener
    obtain ⟨hrunning, θ', hθ'⟩ := h.listener t' hcalls hbefore
    have ht : t' ≠ t := by
      -- the timer of the callback was running, so it has lost its listener
      rintro rfl
      rw [timer_terminate, if_pos (show ((s.pop θ rest).timer t').isRunning = true from hrunning),
        Function.update_self] at hlistener
      exact nomatch hlistener
    have hsame : ((s.pop θ rest).terminate t).timer t' = s.timer t' := by
      rw [timer_terminate]
      split
      · exact Function.update_of_ne ht ..
      · rfl
    rw [hsame, callbacks_terminate]
    exact ⟨hrunning, θ', hback θ' ht hθ'⟩
  · exact (moves_terminate (s.pop θ rest) t t').nonneg (h.nonneg t')

/-- **One step.** -/
theorem apply (h : s.Calling) {e : Event α} (he : Enabled s e) : (apply s e).Calling := by
  cases e with
  | start θ t daemon now => exact h.start θ t daemon now
  | halt θ t => exact h.terminate t
  | take task => exact h.congr rfl rfl rfl
  | expire c =>
    obtain ⟨hidle, task, htask, hfree⟩ := he
    have hnone (θ : Thread) : task.timer ∉ s.callbacks θ := by
      by_cases hθ : θ = .scheduler c
      · rw [hθ, hidle]
        exact List.not_mem_nil
      · exact hfree θ hθ
    unfold Util.apply
    dsimp only
    rw [htask]
    obtain ⟨htimer, hcallbacks, hcalls⟩ :=
      finish_fields (s.processInnerTimeout (.scheduler c) task.timer) (.scheduler c)
    exact (h.processInnerTimeout (.scheduler c) fun _ => hnone).congr htimer hcallbacks hcalls
  | ret θ =>
    unfold Util.apply
    dsimp only
    split
    · exact h
    · rename_i t rest hθ
      obtain ⟨htimer, hcallbacks, hcalls⟩ := finish_fields ((s.pop θ rest).terminate t) θ
      exact (h.ret hθ).congr htimer hcallbacks hcalls

end Calling

/-- **One step**, if the scheduler accepts the time. -/
theorem Scheduling.apply {α : Type} [DecidableEq α] {s : State α} (h : s.Scheduling) {e : Event α}
    (he : Enabled s e)
    (hrange : ∀ θ t daemon now, e = .start θ t daemon now → now + (s.timer t).time < 2 ^ 63) :
    (apply s e).Scheduling := by
  cases e with
  | start θ t daemon now => exact h.start he.1 (hrange θ t daemon now rfl)
  | halt θ t => exact h.terminate t
  | take task => exact h.take he.2
  | expire c =>
    obtain ⟨hidle, task, htask, -⟩ := he
    unfold Util.apply
    dsimp only
    rw [htask]
    refine (h.processInnerTimeout fun c' hc' => ?_).finish fun c' task' hc' hdone htask' => ?_
    · obtain rfl : c = c' := Thread.scheduler.inj hc'
      refine ⟨task, htask, ?_⟩
      rw [hidle]
      rfl
    · -- no callback was begun, so the timer has been terminated
      obtain rfl : c = c' := Thread.scheduler.inj hc'
      unfold State.processInnerTimeout at hdone htask' ⊢
      split at hdone
      · have hone : (s.onTimeout (.scheduler c) task.timer).callbacks (.scheduler c) =
            task.timer :: s.callbacks (.scheduler c) := Function.update_self ..
        rw [hone] at hdone
        exact absurd hdone (List.cons_ne_nil _ _)
      · rename_i hnot
        rw [if_neg hnot, executing_terminate, htask] at htask'
        rw [if_neg hnot, ← Option.some.inj htask']
        exact isRunning_terminate s task.timer
  | ret θ =>
    unfold Util.apply
    dsimp only
    split
    · exact h
    · rename_i t rest hθ
      refine ((h.pop hθ).terminate t).finish fun c task hc hdone htask => ?_
      subst hc
      -- this was the outermost callback, so it is the one of the task
      obtain ⟨task', htask', hlast⟩ := h.callback c (by rw [hθ]; exact List.cons_ne_nil _ _)
      have hrest : (s.pop (.scheduler c) rest).callbacks (.scheduler c) = rest :=
        Function.update_self ..
      rw [callbacks_terminate, hrest] at hdone
      rw [executing_terminate] at htask
      have hsame : task' = task := Option.some.inj (htask'.symm.trans htask)
      rw [hθ, hdone, hsame] at hlast
      rw [← Option.some.inj (show some t = some task.timer from hlast)]
      exact isRunning_terminate _ t

end State

/-! ## Runs -/

section Runs

variable {α : Type} [DecidableEq α] {time : α → ℤ} {listener : α → Bool}

/-- A call of `start` is a start, or there is nothing to start. -/
theorem started_start (s : State α) (θ : Thread) (t : α) (daemon : Bool) (now : ℤ) :
    ((s.start θ t daemon now).timer t).Started := by
  have hself : (s.running t daemon now).timer t = (s.timer t).running daemon now :=
    State.timer_setTimer t _
  have hrunning : ((s.running t daemon now).timer t).isRunning = true := by
    rw [hself]
    rfl
  unfold State.start
  split
  · rename_i hstart
    by_cases hrun : (s.timer t).isRunning = true
    · exact .inr hrun
    · exact .inl (.inr ⟨hstart.resolve_right hrun, by simpa using hrun⟩)
  · split
    · rw [(State.scheduleTask_fields ..).1]
      exact .inr hrunning
    · unfold State.processInnerTimeout
      split
      · exact .inr hrunning
      · rw [State.timer_terminate, if_pos hrunning, Function.update_self]
        exact .inl (.inl rfl)

/-- A timer that has been started is silent when it is halted. -/
theorem silent_terminate {s : State α} {t : α} (h : (s.timer t).Started) :
    ((s.terminate t).timer t).Silent := by
  rcases h with hsilent | hrunning
  · exact (State.moves_terminate s t t).silent hsilent
  · rw [State.timer_terminate, if_pos hrunning, Function.update_self]
    exact .inl rfl

/-- The listener of a silent timer is not called. -/
theorem calls_apply_of_silent {s : State α} {t : α} (h : (s.timer t).Silent) (e : Event α) :
    (apply s e).calls t = s.calls t := by
  rcases State.calls_apply s e t with hsame | ⟨hlistener, hwhen⟩
  · exact hsame
  · rcases h with hgone | ⟨htime, hstopped⟩
    · rw [hlistener] at hgone
      exact nomatch hgone
    · rcases hwhen with hrunning | hle
      · rw [hrunning] at hstopped
        exact nomatch hstopped
      · omega

namespace Run

variable {es : List (Event α)} {s : State α}

theorem time_eq (h : Run (initial time listener) es s) (t : α) : (s.timer t).time = time t := by
  induction h with
  | nil => rfl
  | snoc hrun he ih => rw [(State.moves_apply _ _ t).time, ih]

theorem calling (h : Run (initial time listener) es s) : s.Calling := by
  induction h with
  | nil =>
    exact {
      called := fun _ _ ht => absurd ht List.not_mem_nil
      once := fun _ => Nat.zero_le 1
      listener := fun _ hone => nomatch hone
      nonneg := fun _ hrunning => nomatch hrunning }
  | snoc hrun he ih => exact ih.apply he

/-- A timer that has been started remains so. -/
theorem started (h : Run (initial time listener) es s) {θ : Thread} {t : α} {daemon : Bool} {now : ℤ}
    (hmem : .start θ t daemon now ∈ es) : (s.timer t).Started := by
  induction h with
  | nil => exact absurd hmem List.not_mem_nil
  | @snoc es s e hrun he ih =>
    rcases List.mem_append.mp hmem with hmem | hmem
    · exact (State.moves_apply s e t).started (ih hmem)
    · rw [← List.mem_singleton.mp hmem]
      exact started_start s θ t daemon now

/-- A silent timer remains so. -/
theorem silent {s₀ : State α} (h : Run s₀ es s) {t : α} (ht : (s₀.timer t).Silent) :
    (s.timer t).Silent ∧ s.calls t = s₀.calls t := by
  induction h with
  | nil => exact ⟨ht, rfl⟩
  | @snoc es s e hrun he ih =>
    exact ⟨(State.moves_apply s e t).silent ih.1, (calls_apply_of_silent ih.1 e).trans ih.2⟩

end Run

/-- The scheduler accepts the time of a timer that is started: the time it expires at is in the range
of a `long`. -/
def Event.Accepted (time : α → ℤ) : Event α → Prop
  | .start _ t _ now => now + time t < 2 ^ 63
  | _ => True

namespace Run

variable {es : List (Event α)} {s : State α}

theorem scheduling (h : Run (initial time listener) es s) (hes : ∀ e ∈ es, e.Accepted time) :
    s.Scheduling := by
  induction h with
  | nil =>
    have hempty : (initial time listener).counted = ∅ :=
      Set.eq_empty_iff_forall_notMem.mpr fun t ht => nomatch ht.1
    exact {
      finite := by
        rw [hempty]
        exact Set.finite_empty
      count := by
        rw [hempty, Set.ncard_empty]
        rfl
      alive := fun hne => absurd rfl hne
      daemonAlive := nofun
      distinct := nofun
      created := fun daemon c hc => by cases daemon <;> exact nomatch hc
      cancelledCreated := nofun
      pending := fun _ hrunning => nomatch hrunning
      callback := fun _ hne => absurd rfl hne }
  | @snoc es s e hrun he ih =>
    refine (ih fun e' he' => hes e' (List.mem_append_left _ he')).apply he ?_
    rintro θ t daemon now rfl
    rw [hrun.time_eq t]
    exact hes _ (List.mem_append_right _ (List.mem_singleton.mpr rfl))

/-- **The bookkeeping of all runs.**  If the scheduler accepts the times, the number of scheduled
tasks is the number of running timers that are no daemons and have a positive time; and the task of
each running timer with a positive time waits in a scheduler that is not cancelled, or is being
executed.  Whether or not it does, each listener is called at most once, and never after a call of
`halt`, if the timer had been started. -/
theorem bookkeeping (h : Run (initial time listener) es s) :
    ((∀ e ∈ es, e.Accepted time) →
        s.counted.Finite ∧ s.scheduledTasks = s.counted.ncard ∧
        ∀ t, (s.timer t).isRunning = true → 0 < (s.timer t).time → s.Waiting t ∨ s.Executed t) ∧
      (∀ t, s.calls t ≤ 1) ∧
      ∀ θ t, (∃ θ' daemon now, .start θ' t daemon now ∈ es) → Enabled s (.halt θ t) →
        ∀ es' s', Run (apply s (.halt θ t)) es' s' → s'.calls t = s.calls t := by
  refine ⟨fun hes => ?_, h.calling.once, ?_⟩
  · have hscheduling := h.scheduling hes
    exact ⟨hscheduling.finite, hscheduling.count, hscheduling.pending⟩
  · rintro θ t ⟨θ', daemon, now, hmem⟩ - es' s' hrun
    rw [(hrun.silent (silent_terminate (h.started hmem))).2]
    exact congrFun (State.calls_terminate s t) t

end Run

end Runs

/-! ## One timer -/

/-- A timer with this time. -/
def one (time : ℤ) : State Unit := initial (fun _ => time) fun _ => true

/-- The state when it has been started at the time one. -/
def oneStarted (time : ℤ) : State Unit := apply (one time) (.start (.user 0) () false 1)

theorem run_oneStarted (time : ℤ) :
    Run (one time) [.start (.user 0) () false 1] (oneStarted time) :=
  .snoc .nil ⟨trivial, fun _ _ => List.not_mem_nil⟩

/-- A timer that is started is counted, and its task waits; when it is halted its listener is not
called. -/
theorem bookkeeping_oneStarted :
    (oneStarted 500).scheduledTasks = (oneStarted 500).counted.ncard ∧
      ((oneStarted 500).Waiting () ∨ (oneStarted 500).Executed ()) ∧
      (apply (oneStarted 500) (.halt (.user 0) ())).calls () = 0 := by
  have hall := Run.bookkeeping (run_oneStarted 500)
  obtain ⟨-, hcount, hpending⟩ := hall.1 (by
    intro e he
    rw [List.mem_singleton.mp he]
    show (1 : ℤ) + 500 < 2 ^ 63
    decide)
  refine ⟨hcount, hpending () rfl (by decide), ?_⟩
  exact hall.2.2 (.user 0) () ⟨.user 0, false, 1, List.mem_singleton.mpr rfl⟩
    ⟨trivial, fun _ _ => List.not_mem_nil⟩ [] _ .nil

/-- **A timer that is halted first** calls its listener when it is started; and a timer **whose time
is out of range** is running, but has no task and is not counted. -/
theorem called_after_halt :
    Enabled (one 500) (.halt (.user 0) ()) ∧
      (∃ s, Run (apply (one 500) (.halt (.user 0) ()))
          [.start (.user 0) () false 1, .take ⟨0, (), 0⟩, .expire 0] s ∧ s.calls () = 1) ∧
      Run (one (2 ^ 63 - 1)) [.start (.user 0) () false 1] (oneStarted (2 ^ 63 - 1)) ∧
      ((oneStarted (2 ^ 63 - 1)).timer ()).Counted ∧
      (oneStarted (2 ^ 63 - 1)).scheduledTasks = 0 ∧ (oneStarted (2 ^ 63 - 1)).queue = [] := by
  refine ⟨⟨trivial, fun _ _ => List.not_mem_nil⟩, ⟨_, ((Run.nil.snoc ?_).snoc ?_).snoc ?_, ?_⟩,
    run_oneStarted _, ?_, ?_, ?_⟩
  · exact ⟨trivial, fun _ _ => List.not_mem_nil⟩
  · exact ⟨List.mem_cons_self .., rfl⟩
  · exact ⟨rfl, ⟨0, (), 0⟩, rfl, fun _ _ => List.not_mem_nil⟩
  · rfl
  · exact ⟨rfl, rfl, by decide⟩
  · rfl
  · rfl

end Util
end SoftPhone
