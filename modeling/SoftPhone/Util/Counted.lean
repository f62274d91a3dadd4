import Mathlib.Data.Set.Card
import SoftPhone.Util.Timer

/-!
# The scheduled tasks are counted

The number of scheduled tasks is the number of running timers that are no daemons and have a
positive time (`Scheduling`).  So their scheduler is cancelled only if there is none of them, and the
task of a running timer waits in a scheduler that is not cancelled, until it is executed.
-/

namespace SoftPhone
namespace Util

/-- The timers that are counted: those that are running, are no daemons and have a positive time. -/
def Timer.Counted (x : Timer) : Prop :=
  x.isRunning = true ∧ x.daemonMode = false ∧ 0 < x.time

namespace State

section

variable {α : Type} (s : State α)

/-- The timers that are counted. -/
def counted : Set α := {t | (s.timer t).Counted}

/-- The task of the last start of the timer waits in the scheduler for such timers, and this is not
cancelled. -/
def Waiting (t : α) : Prop :=
  ∃ task ∈ s.queue, task.id = s.last t ∧ task.timer = t ∧
    s.current (s.timer t).daemonMode = some task.scheduler ∧ s.cancelled task.scheduler = false

/-- The task of the last start of the timer is being executed. -/
def Executed (t : α) : Prop :=
  ∃ c task, s.executing c = some task ∧ task.id = s.last t ∧ task.timer = t

/-- **The bookkeeping of the schedulers.** -/
structure Scheduling : Prop where
  finite : s.counted.Finite
  count : s.scheduledTasks = s.counted.ncard
  alive : s.scheduledTasks ≠ 0 → ∃ c, s.current false = some c ∧ s.cancelled c = false
  daemonAlive : ∀ c, s.current true = some c → s.cancelled c = false
  distinct : ∀ c, s.current true = some c → s.current false ≠ some c
  created : ∀ daemon c, s.current daemon = some c → c < s.schedulers
  cancelledCreated : ∀ c, s.cancelled c = true → c < s.schedulers
  pending : ∀ t, (s.timer t).isRunning = true → 0 < (s.timer t).time → s.Waiting t ∨ s.Executed t
  callback : ∀ c, s.callbacks (.scheduler c) ≠ [] →
    ∃ task, s.executing c = some task ∧ (s.callbacks (.scheduler c)).getLast? = some task.timer

end

/-! ## The static fields -/

section

variable {α : Type} {s : State α}

@[simp] theorem current_setCurrent (daemon : Bool) (c : Option ℕ) :
    (s.setCurrent daemon c).current daemon = c := by
  cases daemon <;> rfl

@[simp] theorem current_setCurrent_of_ne {d daemon : Bool} (h : d ≠ daemon) (c : Option ℕ) :
    (s.setCurrent daemon c).current d = s.current d := by
  cases d <;> cases daemon
  · exact absurd rfl h
  · rfl
  · rfl
  · exact absurd rfl h

theorem setCurrent_setCurrent (daemon : Bool) (c c' : Option ℕ) :
    (s.setCurrent daemon c).setCurrent daemon c' = s.setCurrent daemon c' := by
  cases daemon <;> rfl

theorem setCurrent_current {daemon : Bool} {c : Option ℕ} (h : s.current daemon = c) :
    s.setCurrent daemon c = s := by
  subst h
  cases daemon <;> rfl

theorem schedulers_setCurrent (daemon : Bool) (c : Option ℕ) :
    (s.setCurrent daemon c).schedulers = s.schedulers := by
  cases daemon <;> rfl

theorem cancelled_setCurrent (daemon : Bool) (c : Option ℕ) :
    (s.setCurrent daemon c).cancelled = s.cancelled := by
  cases daemon <;> rfl

/-- The state with this scheduler, and this number of them. -/
def withScheduler (s : State α) (daemon : Bool) (c n : ℕ) : State α :=
  { s.setCurrent daemon (some c) with schedulers := n }

/-- **A task is scheduled** in the scheduler there is, or in a new one if there is none or it is
cancelled: the second attempt is always enough. -/
theorem scheduleTask_eq {t : α} {id : ℕ} {time now : ℤ} {daemon : Bool}
    (hcancelled : ∀ c, s.cancelled c = true → c < s.schedulers)
    (hcreated : ∀ c, s.current daemon = some c → c < s.schedulers) (hrange : now + time < 2 ^ 63) :
    ∃ c n, scheduleTask t id time now daemon maxAttempts s =
        (s.withScheduler daemon c n).enqueue ⟨id, t, c⟩ daemon ∧
      s.schedulers ≤ n ∧ c < n ∧ s.cancelled c = false ∧
      (s.current daemon = some c ∨
        c = s.schedulers ∧ ∀ c', s.current daemon = some c' → s.cancelled c' = true) := by
  have hnew : s.cancelled s.schedulers = false := by
    by_contra h
    exact absurd (hcancelled _ (by simpa using h)) (lt_irrefl _)
  have hin : ¬2 ^ 63 ≤ now + time := by omega
  cases hcurrent : s.current daemon with
  | none =>
    refine ⟨s.schedulers, s.schedulers + 1, ?_, by omega, by omega, hnew, .inr ⟨rfl, nofun⟩⟩
    have hcreate : s.create daemon =
        (s.schedulers, s.withScheduler daemon s.schedulers (s.schedulers + 1)) := by
      unfold create
      rw [hcurrent]
      rfl
    have halive : (s.withScheduler daemon s.schedulers (s.schedulers + 1)).cancelled s.schedulers =
        false := (congrFun (cancelled_setCurrent daemon _) _).trans hnew
    unfold maxAttempts scheduleTask
    rw [hcreate]
    dsimp only
    rw [if_neg hin, halive, if_neg (by decide)]
  | some c =>
    have hcreate : s.create daemon = (c, s) := by
      unfold create
      rw [hcurrent]
    by_cases hc : s.cancelled c = true
    · refine ⟨s.schedulers, s.schedulers + 1, ?_, by omega, by omega, hnew, .inr ⟨rfl, ?_⟩⟩
      · have hcreate' : (s.setCurrent daemon none).create daemon =
            (s.schedulers, s.withScheduler daemon s.schedulers (s.schedulers + 1)) := by
          unfold create
          rw [current_setCurrent, setCurrent_setCurrent, schedulers_setCurrent]
          rfl
        have halive : (s.withScheduler daemon s.schedulers (s.schedulers + 1)).cancelled s.schedulers =
            false := (congrFun (cancelled_setCurrent daemon _) _).trans hnew
        unfold maxAttempts scheduleTask
        rw [hcreate]
        dsimp only
        rw [if_neg hin, if_pos hc]
        unfold scheduleTask
        rw [hcreate']
        dsimp only
        rw [if_neg hin, halive, if_neg (by decide)]
      · intro c' hc'
        rw [← Option.some.inj hc']
        exact hc
    · refine ⟨c, s.schedulers, ?_, le_rfl, hcreated c hcurrent, by simpa using hc, .inl rfl⟩
      unfold maxAttempts scheduleTask
      rw [hcreate]
      dsimp only
      rw [if_neg hin, if_neg hc]
      unfold withScheduler
      rw [setCurrent_current hcurrent]

end

/-! ## The methods -/

section

variable {α : Type} [DecidableEq α] {s : State α}

@[simp] theorem timer_setTimer (t : α) (x : Timer) : (s.setTimer t x).timer t = x :=
  Function.update_self ..

@[simp] theorem timer_setTimer_of_ne {t t' : α} (h : t' ≠ t) (x : Timer) :
    (s.setTimer t x).timer t' = s.timer t' :=
  Function.update_of_ne h ..

/-- What `terminate` does. -/
theorem terminate_cases (s : State α) (t : α) :
    ((s.timer t).isRunning = false ∧ s.terminate t = s) ∨
      ((s.timer t).isRunning = true ∧ ¬(s.timer t).Counted ∧
        s.terminate t = s.setTimer t (s.timer t).stopped) ∨
      ((s.timer t).Counted ∧ s.terminate t = (s.setTimer t (s.timer t).stopped).discount) := by
  unfold terminate
  by_cases hrunning : (s.timer t).isRunning = true
  · rw [if_pos hrunning]
    by_cases hcounted : (s.timer t).daemonMode = false ∧ 0 < (s.timer t).time
    · exact .inr (.inr ⟨⟨hrunning, hcounted⟩, if_pos hcounted⟩)
    · exact .inr (.inl ⟨hrunning, fun h => hcounted h.2, if_neg hcounted⟩)
  · exact .inl ⟨by simpa using hrunning, if_neg hrunning⟩

omit [DecidableEq α] in
/-- What `discount` does, if there is a scheduler. -/
theorem discount_cases {s : State α} {c : ℕ} (h : s.current false = some c) :
    (s.scheduledTasks - 1 ≠ 0 ∧ s.discount = { s with scheduledTasks := s.scheduledTasks - 1 }) ∨
      (s.scheduledTasks - 1 = 0 ∧ s.discount = { s with
        scheduledTasks := s.scheduledTasks - 1
        cancelled := Function.update s.cancelled c true
        queue := s.queue.filter (·.scheduler ≠ c) }) := by
  have hc : s.scheduler = some c := h
  unfold discount
  dsimp only
  by_cases hzero : s.scheduledTasks - 1 = 0
  · rw [if_pos hzero, hc]
    exact .inr ⟨hzero, rfl⟩
  · exact .inl ⟨hzero, if_neg hzero⟩

/-- A timer that is stopped is not counted, and the others are as before. -/
theorem counted_stopped (s : State α) (t : α) :
    (s.setTimer t (s.timer t).stopped).counted = s.counted \ {t} := by
  ext t'
  by_cases ht : t' = t
  · subst ht
    have hnot : ¬((s.timer t').stopped).Counted := fun h => absurd h.1 (by simp [Timer.stopped])
    show ((s.setTimer t' (s.timer t').stopped).timer t').Counted ↔ _
    rw [timer_setTimer]
    simpa using hnot
  · show ((s.setTimer t (s.timer t).stopped).timer t').Counted ↔ _
    rw [timer_setTimer_of_ne ht]
    exact ⟨fun h => ⟨h, ht⟩, fun h => h.1⟩

namespace Scheduling

/-- What a timer is waiting for does not depend on the other ones. -/
theorem pending_setTimer (h : s.Scheduling) {t t' : α} (ht : t' ≠ t) (x : Timer)
    (hrunning : ((s.setTimer t x).timer t').isRunning = true)
    (htime : 0 < ((s.setTimer t x).timer t').time) :
    (s.setTimer t x).Waiting t' ∨ (s.setTimer t x).Executed t' := by
  rw [timer_setTimer_of_ne ht] at hrunning htime
  rcases h.pending t' hrunning htime with ⟨task, hmem, hid, htimer, hcurrent, halive⟩ | hexecuted
  · refine .inl ⟨task, hmem, hid, htimer, ?_, halive⟩
    rw [timer_setTimer_of_ne ht]
    exact hcurrent
  · exact .inr hexecuted

/-- A timer that is stopped waits for nothing. -/
theorem pending_stopped (h : s.Scheduling) (t : α) {t' : α}
    (hrunning : ((s.setTimer t (s.timer t).stopped).timer t').isRunning = true)
    (htime : 0 < ((s.setTimer t (s.timer t).stopped).timer t').time) :
    t' ≠ t ∧ ((s.setTimer t (s.timer t).stopped).Waiting t' ∨
      (s.setTimer t (s.timer t).stopped).Executed t') := by
  by_cases ht : t' = t
  · subst ht
    rw [timer_setTimer] at hrunning
    exact absurd hrunning (by simp [Timer.stopped])
  · exact ⟨ht, h.pending_setTimer ht _ hrunning htime⟩

/-- **A timer that was counted is terminated.** -/
theorem discount (h : s.Scheduling) {t : α} (ht : (s.timer t).Counted) :
    (s.setTimer t (s.timer t).stopped).discount.Scheduling := by
  have hpos : 0 < s.counted.ncard := (Set.ncard_pos h.finite).mpr ⟨t, ht⟩
  have hncard : (s.counted \ {t}).ncard = s.counted.ncard - 1 :=
    Set.ncard_sdiff_singleton_of_mem ht
  have hcount := h.count
  obtain ⟨c, hc, halive⟩ := h.alive (by omega)
  have hfinite : (s.setTimer t (s.timer t).stopped).counted.Finite := by
    rw [counted_stopped]
    exact h.finite.sdiff
  have hless : s.scheduledTasks - 1 =
      ((s.setTimer t (s.timer t).stopped).counted.ncard : ℤ) := by
    rw [counted_stopped, hncard]
    omega
  rcases discount_cases (s := s.setTimer t (s.timer t).stopped) hc with
    ⟨hzero, heq⟩ | ⟨hzero, heq⟩
  · rw [heq]
    exact {
      finite := hfinite
      count := hless
      alive := fun _ => ⟨c, hc, halive⟩
      daemonAlive := h.daemonAlive
      distinct := h.distinct
      created := h.created
      cancelledCreated := h.cancelledCreated
      pending := fun t' hrunning htime => (h.pending_stopped t hrunning htime).2
      callback := h.callback }
  · -- the last one: the scheduler is cancelled
    have hempty : s.counted \ {t} = ∅ := by
      rw [← Set.ncard_eq_zero h.finite.sdiff, hncard]
      have hzero' : s.scheduledTasks - 1 = 0 := hzero
      omega
    rw [heq]
    exact {
      finite := hfinite
      count := hless
      alive := fun hne => absurd hzero hne
      daemonAlive := fun c' hc' => by
        have hne : c' ≠ c := by
          rintro rfl
          exact h.distinct c' hc' hc
        show Function.update s.cancelled c true c' = false
        rw [Function.update_of_ne hne]
        exact h.daemonAlive c' hc'
      distinct := h.distinct
      created := h.created
      cancelledCreated := fun c' hc' => by
        by_cases hne : c' = c
        · rw [hne]
          exact h.created false c hc
        · refine h.cancelledCreated c' ?_
          rw [← hc']
          exact (Function.update_of_ne hne ..).symm
      pending := fun t' hrunning htime => by
        obtain ⟨hne, hpending⟩ := h.pending_stopped t hrunning htime
        have hrunning' : (s.timer t').isRunning = true := by
          rw [← timer_setTimer_of_ne hne (s.timer t).stopped]
          exact hrunning
        have htime' : 0 < (s.timer t').time := by
          rw [← timer_setTimer_of_ne hne (s.timer t).stopped]
          exact htime
        have hdaemon : (s.timer t').daemonMode = true := by
          by_contra hnot
          have hmem : t' ∈ s.counted \ {t} := ⟨⟨hrunning', by simpa using hnot, htime'⟩, hne⟩
          rw [hempty] at hmem
          exact hmem
        rcases hpending with ⟨task, hmem, hid, htimer, hcurrent, hcancelled⟩ | hexecuted
        · have hother : task.scheduler ≠ c := by
            rintro rfl
            rw [timer_setTimer_of_ne hne, hdaemon] at hcurrent
            exact h.distinct _ hcurrent hc
          refine .inl ⟨task, List.mem_filter.mpr ⟨hmem, by simpa using hother⟩, hid, htimer,
            hcurrent, ?_⟩
          show Function.update s.cancelled c true task.scheduler = false
          rw [Function.update_of_ne hother]
          exact hcancelled
        · exact .inr hexecuted
      callback := h.callback }

/-- **`terminate` keeps the bookkeeping.** -/
theorem terminate (h : s.Scheduling) (t : α) : (s.terminate t).Scheduling := by
  rcases terminate_cases s t with ⟨-, heq⟩ | ⟨-, hcounted, heq⟩ | ⟨hcounted, heq⟩
  · rw [heq]
    exact h
  · have hsame : s.counted \ {t} = s.counted := Set.sdiff_singleton_eq_self hcounted
    rw [heq]
    exact {
      finite := by
        rw [counted_stopped, hsame]
        exact h.finite
      count := by
        rw [counted_stopped, hsame]
        exact h.count
      alive := h.alive
      daemonAlive := h.daemonAlive
      distinct := h.distinct
      created := h.created
      cancelledCreated := h.cancelledCreated
      pending := fun t' hrunning htime => (h.pending_stopped t hrunning htime).2
      callback := h.callback }
  · rw [heq]
    exact h.discount hcounted

/-- A thread begins a callback: a scheduler does so for the task it executes. -/
theorem onTimeout (h : s.Scheduling) {θ : Thread} {t : α}
    (hθ : ∀ c, θ = .scheduler c →
      ∃ task, s.executing c = some task ∧ (t :: s.callbacks θ).getLast? = some task.timer) :
    (s.onTimeout θ t).Scheduling :=
  { h with
    callback := fun c hc => by
      by_cases hc' : (.scheduler c : Thread) = θ
      · subst hc'
        obtain ⟨task, htask, hlast⟩ := hθ c rfl
        refine ⟨task, htask, ?_⟩
        show (Function.update s.callbacks (.scheduler c) _ _).getLast? = _
        rw [Function.update_self, hlast]
      · have hsame : (s.onTimeout θ t).callbacks (.scheduler c) = s.callbacks (.scheduler c) :=
          Function.update_of_ne hc' ..
        rw [hsame] at hc ⊢
        exact h.callback c hc }

omit [DecidableEq α] in
/-- The innermost callback of a thread ends. -/
theorem pop (h : s.Scheduling) {θ : Thread} {t : α} {rest : List α} (hθ : s.callbacks θ = t :: rest) :
    (s.pop θ rest).Scheduling :=
  { h with
    callback := fun c hc => by
      unfold State.pop at hc ⊢
      dsimp only at hc ⊢
      by_cases hc' : (.scheduler c : Thread) = θ
      · subst hc'
        rw [Function.update_self] at hc ⊢
        obtain ⟨task, htask, hlast⟩ := h.callback c (by rw [hθ]; exact List.cons_ne_nil _ _)
        refine ⟨task, htask, ?_⟩
        rw [← hlast, hθ, List.getLast?_cons_of_ne_nil hc]
      · rw [Function.update_of_ne hc'] at hc ⊢
        exact h.callback c hc }

omit [DecidableEq α] in
/-- A scheduler is done with its task if the timer is not running. -/
theorem finish (h : s.Scheduling) {θ : Thread}
    (hθ : ∀ c task, θ = .scheduler c → s.callbacks (.scheduler c) = [] →
      s.executing c = some task → (s.timer task.timer).isRunning = false) :
    (s.finish θ).Scheduling := by
  cases θ with
  | user n => exact h
  | scheduler c =>
    unfold State.finish
    dsimp only
    by_cases hc : s.callbacks (.scheduler c) = []
    · rw [if_pos hc]
      refine { h with pending := fun t hrunning htime => ?_, callback := fun c' hc' => ?_ }
      · rcases h.pending t hrunning htime with hwaiting | ⟨c', task, htask, hid, htimer⟩
        · exact .inl hwaiting
        · have hne : c' ≠ c := by
            rintro rfl
            have hstopped := hθ c' task rfl hc htask
            rw [htimer, show (s.timer t).isRunning = true from hrunning] at hstopped
            exact nomatch hstopped
          refine .inr ⟨c', task, ?_, hid, htimer⟩
          show Function.update s.executing c none c' = _
          rw [Function.update_of_ne hne, htask]
      · have hne : c' ≠ c := by
          rintro rfl
          exact hc' hc
        obtain ⟨task, htask, hlast⟩ := h.callback c' hc'
        refine ⟨task, ?_, hlast⟩
        show Function.update s.executing c none c' = _
        rw [Function.update_of_ne hne, htask]
    · rw [if_neg hc]
      exact h

/-- A scheduler takes a task. -/
theorem take (h : s.Scheduling) {task : Task α} (hidle : s.executing task.scheduler = none) :
    ({ s with
      queue := s.queue.filter (· ≠ task)
      executing := Function.update s.executing task.scheduler (some task) } : State α).Scheduling := by
  refine { h with pending := fun t hrunning htime => ?_, callback := fun c hc => ?_ }
  · rcases h.pending t hrunning htime with
      ⟨task', hmem, hid, htimer, hcurrent, halive⟩ | ⟨c, task', htask, hid, htimer⟩
    · by_cases heq : task' = task
      · subst heq
        exact .inr ⟨task'.scheduler, task', Function.update_self .., hid, htimer⟩
      · exact .inl ⟨task', List.mem_filter.mpr ⟨hmem, by simpa using heq⟩, hid, htimer, hcurrent,
          halive⟩
    · have hne : c ≠ task.scheduler := by
        rintro rfl
        rw [hidle] at htask
        exact nomatch htask
      refine .inr ⟨c, task', ?_, hid, htimer⟩
      show Function.update s.executing _ _ c = _
      rw [Function.update_of_ne hne, htask]
  · obtain ⟨task', htask, hlast⟩ := h.callback c hc
    have hne : c ≠ task.scheduler := by
      rintro rfl
      rw [hidle] at htask
      exact nomatch htask
    refine ⟨task', ?_, hlast⟩
    show Function.update s.executing _ _ c = _
    rw [Function.update_of_ne hne, htask]

/-- `processInnerTimeout`, up to the end or to the callback. -/
theorem processInnerTimeout (h : s.Scheduling) {θ : Thread} {t : α}
    (hθ : ∀ c, θ = .scheduler c →
      ∃ task, s.executing c = some task ∧ (t :: s.callbacks θ).getLast? = some task.timer) :
    (s.processInnerTimeout θ t).Scheduling := by
  unfold State.processInnerTimeout
  split
  · exact h.onTimeout hθ
  · exact h.terminate t

/-- A timer whose time is not positive is running, but is not counted. -/
theorem running_zero (h : s.Scheduling) {t : α} (hstopped : (s.timer t).isRunning = false)
    (hzero : ¬0 < (s.timer t).time) (daemon : Bool) (now : ℤ) :
    (s.running t daemon now).Scheduling := by
  have hsame : (s.running t daemon now).counted = s.counted := by
    ext t'
    by_cases ht : t' = t
    · subst ht
      have hbefore : ¬(s.timer t').Counted := fun h => by
        rw [h.1] at hstopped
        exact nomatch hstopped
      have hafter : ¬((s.running t' daemon now).timer t').Counted := fun h => by
        unfold running at h
        rw [timer_setTimer] at h
        exact hzero h.2.2
      exact ⟨fun h => absurd h hafter, fun h => absurd h hbefore⟩
    · show ((s.running t daemon now).timer t').Counted ↔ _
      unfold running
      rw [timer_setTimer_of_ne ht]
      exact Iff.rfl
  exact {
    finite := by
      rw [hsame]
      exact h.finite
    count := by
      rw [hsame]
      exact h.count
    alive := h.alive
    daemonAlive := h.daemonAlive
    distinct := h.distinct
    created := h.created
    cancelledCreated := h.cancelledCreated
    pending := fun t' hrunning htime => by
      have ht : t' ≠ t := by
        rintro rfl
        unfold running at htime
        rw [timer_setTimer] at htime
        exact hzero htime
      exact h.pending_setTimer ht _ hrunning htime
    callback := h.callback }

end Scheduling

/-- What a timer leaves that is started with a positive time, where `c` is the scheduler of its task
and there are `n` of them. -/
def started (s : State α) (t : α) (daemon : Bool) (now : ℤ) (c n : ℕ) : State α :=
  { s with
    timer := Function.update s.timer t ((s.timer t).running daemon now)
    scheduledTasks := if daemon then s.scheduledTasks else s.scheduledTasks + 1
    scheduler := if daemon then s.scheduler else some c
    daemonScheduler := if daemon then some c else s.daemonScheduler
    schedulers := n
    tasks := s.tasks + 1
    queue := s.queue ++ [⟨s.tasks, t, c⟩]
    last := Function.update s.last t s.tasks }

section Started

variable {t : α} {daemon : Bool} {now : ℤ} {c n : ℕ}

theorem timer_started :
    (s.started t daemon now c n).timer t = (s.timer t).running daemon now :=
  Function.update_self ..

theorem timer_started_of_ne {t' : α} (h : t' ≠ t) :
    (s.started t daemon now c n).timer t' = s.timer t' :=
  Function.update_of_ne h ..

theorem current_started : (s.started t daemon now c n).current daemon = some c := by
  cases daemon <;> rfl

theorem current_started_of_ne {d : Bool} (h : d ≠ daemon) :
    (s.started t daemon now c n).current d = s.current d := by
  cases d <;> cases daemon
  · exact absurd rfl h
  · rfl
  · rfl
  · exact absurd rfl h

/-- A timer that was not running is counted, unless it is a daemon. -/
theorem counted_started (hpos : 0 < (s.timer t).time) (hstopped : (s.timer t).isRunning = false) :
    t ∉ s.counted ∧ (s.started t daemon now c n).counted =
      if daemon then s.counted else insert t s.counted := by
  have hnot : t ∉ s.counted := fun h => by
    rw [show (s.timer t).isRunning = true from h.1] at hstopped
    exact nomatch hstopped
  refine ⟨hnot, ?_⟩
  ext t'
  by_cases ht : t' = t
  · subst ht
    show ((s.started t' daemon now c n).timer t').Counted ↔ _
    rw [timer_started]
    cases daemon with
    | false => exact ⟨fun _ => Set.mem_insert .., fun _ => ⟨rfl, rfl, hpos⟩⟩
    | true => exact ⟨fun h => absurd h.2.1 (by simp [Timer.running]), fun h => absurd h hnot⟩
  · show ((s.started t daemon now c n).timer t').Counted ↔ _
    rw [timer_started_of_ne ht]
    cases daemon with
    | false =>
      show _ ↔ t' ∈ insert t s.counted
      rw [Set.mem_insert_iff, or_iff_right ht]
      exact Iff.rfl
    | true => exact Iff.rfl

end Started

namespace Scheduling

/-- **A timer with a positive time is started**: its task waits in a scheduler that is not
cancelled, and so do those of the others. -/
theorem started (h : s.Scheduling) {t : α} {daemon : Bool} {now : ℤ} {c n : ℕ}
    (hstopped : (s.timer t).isRunning = false) (hpos : 0 < (s.timer t).time)
    (hn : s.schedulers ≤ n) (hc : c < n) (halive : s.cancelled c = false)
    (hcurrent : s.current daemon = some c ∨
      c = s.schedulers ∧ ∀ c', s.current daemon = some c' → s.cancelled c' = true) :
    (s.started t daemon now c n).Scheduling := by
  obtain ⟨hnot, hcounted⟩ := @counted_started _ _ s t daemon now c n hpos hstopped
  have hfresh {d : Bool} (hd : s.current d = some c) (hne : d ≠ daemon) :
      s.current daemon = some c :=
    hcurrent.resolve_right fun hnew => by
      have hlt := h.created d c hd
      omega
  refine
    { finite := ?_, count := ?_, alive := ?_, daemonAlive := ?_, distinct := ?_, created := ?_,
      cancelledCreated := ?_, pending := ?_, callback := h.callback }
  · rw [hcounted]
    cases daemon with
    | false => exact h.finite.insert t
    | true => exact h.finite
  · rw [hcounted]
    show (if daemon then s.scheduledTasks else s.scheduledTasks + 1) = _
    have hcount := h.count
    cases daemon with
    | false =>
      rw [if_neg (by decide), if_neg (by decide), Set.ncard_insert_of_notMem hnot h.finite]
      omega
    | true => exact hcount
  · intro hne
    cases daemon with
    | false => exact ⟨c, rfl, halive⟩
    | true => exact h.alive hne
  · intro c' hc'
    cases daemon with
    | false => exact h.daemonAlive c' hc'
    | true =>
      rw [← Option.some.inj (show some c = some c' from hc')]
      exact halive
  · intro c' htrue hfalse
    cases daemon with
    | false =>
      rw [← Option.some.inj (show some c = some c' from hfalse)] at htrue
      exact h.distinct c htrue (hfresh (d := true) htrue (by decide))
    | true =>
      rw [← Option.some.inj (show some c = some c' from htrue)] at hfalse
      exact h.distinct c (hfresh (d := false) hfalse (by decide)) hfalse
  · intro d c' hc'
    by_cases hd : d = daemon
    · subst hd
      rw [current_started] at hc'
      rw [← Option.some.inj hc']
      exact hc
    · rw [current_started_of_ne hd] at hc'
      exact lt_of_lt_of_le (h.created d c' hc') hn
  · exact fun c' hc' => lt_of_lt_of_le (h.cancelledCreated c' hc') hn
  · intro t' hrunning htime
    by_cases ht : t' = t
    · subst ht
      refine .inl ⟨⟨s.tasks, t', c⟩, List.mem_append_right _ (List.mem_singleton.mpr rfl), ?_, rfl, ?_,
        halive⟩
      · show s.tasks = Function.update s.last t' s.tasks t'
        rw [Function.update_self]
      · rw [timer_started]
        exact current_started
    · have hlast : (s.started t daemon now c n).last t' = s.last t' := Function.update_of_ne ht ..
      unfold Waiting Executed
      rw [timer_started_of_ne ht] at hrunning htime ⊢
      rw [hlast]
      rcases h.pending t' hrunning htime with
        ⟨task, hmem, hid, htimer, hwhere, hwaits⟩ | hexecuted
      · refine .inl ⟨task, List.mem_append_left _ hmem, hid, htimer, ?_, hwaits⟩
        by_cases hd : (s.timer t').daemonMode = daemon
        · -- the scheduler was not cancelled, so it is the same one
          rw [hd] at hwhere ⊢
          rcases hcurrent with hsame | ⟨-, hall⟩
          · rw [current_started, ← hsame, hwhere]
          · rw [hall _ hwhere] at hwaits
            exact nomatch hwaits
        · rw [current_started_of_ne hd, hwhere]
      · exact .inr hexecuted

/-- `start(daemon_mode)`, if the scheduler accepts the time. -/
theorem start (h : s.Scheduling) {θ : Thread} {t : α} {daemon : Bool} {now : ℤ}
    (hθ : Active s θ) (hrange : now + (s.timer t).time < 2 ^ 63) :
    (s.start θ t daemon now).Scheduling := by
  unfold State.start
  split
  · exact h
  · rename_i hstart
    rw [not_or] at hstart
    have hstopped : (s.timer t).isRunning = false := by simpa using hstart.2
    split
    · rename_i hpos
      obtain ⟨c, n, heq, hn, hc, halive, hcurrent⟩ :=
        @scheduleTask_eq _ ((s.running t daemon now).newTask t) t s.tasks (s.timer t).time now daemon
          h.cancelledCreated (h.created daemon) hrange
      have hrecord : (((s.running t daemon now).newTask t).withScheduler daemon c n).enqueue
          ⟨s.tasks, t, c⟩ daemon = s.started t daemon now c n := by
        cases daemon <;> rfl
      rw [heq, hrecord]
      exact h.started hstopped hpos hn hc halive hcurrent
    · rename_i hzero
      refine (h.running_zero hstopped hzero daemon now).processInnerTimeout fun c hc => ?_
      subst hc
      obtain ⟨task, htask, hlast⟩ := h.callback c hθ
      refine ⟨task, htask, ?_⟩
      rw [← hlast]
      exact List.getLast?_cons_of_ne_nil hθ

end Scheduling

end

end State

end Util
end SoftPhone
