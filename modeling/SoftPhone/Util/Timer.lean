import Mathlib.Algebra.Group.Int.Defs
import Mathlib.Data.Int.Notation
import Mathlib.Data.Nat.Notation
import Mathlib.Logic.Function.Basic
import Mathlib.Tactic.Common

/-!
# Class `Timer` of the utilities

A timer that is started schedules a task in one of two schedulers, which all timers share: one for
daemon timers, and one for the others.  The tasks of the others are counted, and when there are none
their scheduler is cancelled; the next timer makes a new one.

The methods `start`, `halt` and `processInnerTimeout` hold the lock of their timer, and are one step
each; but `processInnerTimeout` calls the listener in between, so it is one step that begins the
callback and one that ends it.  In a callback, a thread may start and halt timers, and this may
begin further callbacks.

A scheduler takes one of its tasks at a time, and executes it as soon as the lock is free.
-/

namespace SoftPhone
namespace Util

/-- Class `Timer`.  The listener is only there or not. -/
structure Timer where
  time : ℤ
  daemonMode : Bool := false
  startTime : ℤ := 0
  isRunning : Bool := false
  listener : Bool := true
  deriving DecidableEq, Repr

/-- What `terminate` leaves of a timer. -/
def Timer.stopped (x : Timer) : Timer := { x with isRunning := false, listener := false }

/-- The fields that `start` sets. -/
def Timer.running (x : Timer) (daemon : Bool) (now : ℤ) : Timer :=
  { x with daemonMode := daemon, startTime := now, isRunning := true }

/-- The threads: one for each scheduler, and any others. -/
inductive Thread where
  | user (n : ℕ)
  | scheduler (c : ℕ)
  deriving DecidableEq, Repr

/-- A `TimerTask`: the timer it belongs to, and the scheduler it is in. -/
structure Task (α : Type) where
  id : ℕ
  timer : α
  scheduler : ℕ
  deriving DecidableEq, Repr

/-- The timers, the static fields of their class, and the schedulers.  `callbacks` are the timers
that a thread is calling the listeners of, the innermost one first.  The last two fields are no
fields of the source: the task of the last start of a timer, and how often its listener was
called. -/
structure State (α : Type) where
  timer : α → Timer
  scheduledTasks : ℤ := 0
  scheduler : Option ℕ := none
  daemonScheduler : Option ℕ := none
  schedulers : ℕ := 0
  cancelled : ℕ → Bool := fun _ => false
  tasks : ℕ := 0
  queue : List (Task α) := []
  executing : ℕ → Option (Task α) := fun _ => none
  callbacks : Thread → List α := fun _ => []
  last : α → ℕ := fun _ => 0
  calls : α → ℕ := fun _ => 0

/-- The maximum number of attempts to schedule the task. -/
def maxAttempts : ℕ := 2

namespace State

variable {α : Type}

/-- The static field for daemon timers, or for the others. -/
def current (s : State α) (daemon : Bool) : Option ℕ :=
  if daemon then s.daemonScheduler else s.scheduler

/-- Sets this field. -/
def setCurrent (s : State α) (daemon : Bool) (c : Option ℕ) : State α :=
  if daemon then { s with daemonScheduler := c } else { s with scheduler := c }

/-- The scheduler; if there is none, a new one. -/
def create (s : State α) (daemon : Bool) : ℕ × State α :=
  match s.current daemon with
  | some c => (c, s)
  | none =>
    (s.schedulers, { s.setCurrent daemon (some s.schedulers) with schedulers := s.schedulers + 1 })

/-- The task is in the queue of the scheduler, and is counted unless it is a daemon. -/
def enqueue (s : State α) (task : Task α) (daemon : Bool) : State α :=
  { s with
    queue := s.queue ++ [task]
    scheduledTasks := if daemon then s.scheduledTasks else s.scheduledTasks + 1 }

/-- `scheduleTask`, with this number of attempts left.  The scheduler throws an
IllegalArgumentException if the time is out of range, and this is passed on; and it throws an
IllegalStateException if it is cancelled. -/
def scheduleTask (t : α) (id : ℕ) (time now : ℤ) (daemon : Bool) : ℕ → State α → State α
  | 0, s => s
  | n + 1, s =>
    let p := s.create daemon
    if 2 ^ 63 ≤ now + time then p.2
    else if p.2.cancelled p.1 then
      scheduleTask t id time now daemon n (p.2.setCurrent daemon none)
    else p.2.enqueue ⟨id, t, p.1⟩ daemon

/-- One task less; if there is none left, the scheduler is cancelled.  With no scheduler there would
be a null pointer. -/
def discount (s : State α) : State α :=
  let s := { s with scheduledTasks := s.scheduledTasks - 1 }
  if s.scheduledTasks = 0 then
    match s.scheduler with
    | some c =>
      { s with
        cancelled := Function.update s.cancelled c true
        queue := s.queue.filter (·.scheduler ≠ c) }
    | none => s
  else s

variable [DecidableEq α]

/-- Sets the fields of a timer. -/
def setTimer (s : State α) (t : α) (x : Timer) : State α :=
  { s with timer := Function.update s.timer t x }

/-- `terminate`. -/
def terminate (s : State α) (t : α) : State α :=
  if (s.timer t).isRunning then
    let s' := s.setTimer t (s.timer t).stopped
    if (s.timer t).daemonMode = false ∧ 0 < (s.timer t).time then s'.discount else s'
  else s

/-- The thread calls the listener of the timer. -/
def onTimeout (s : State α) (θ : Thread) (t : α) : State α :=
  { s with
    callbacks := Function.update s.callbacks θ (t :: s.callbacks θ)
    calls := Function.update s.calls t (s.calls t + 1) }

/-- The innermost callback of the thread ends. -/
def pop (s : State α) (θ : Thread) (rest : List α) : State α :=
  { s with callbacks := Function.update s.callbacks θ rest }

/-- `processInnerTimeout`, up to the end or to the callback. -/
def processInnerTimeout (s : State α) (θ : Thread) (t : α) : State α :=
  if (s.timer t).isRunning ∧ (s.timer t).listener then s.onTimeout θ t else s.terminate t

/-- The timer is running. -/
def running (s : State α) (t : α) (daemon : Bool) (now : ℤ) : State α :=
  s.setTimer t ((s.timer t).running daemon now)

/-- A new task for the timer. -/
def newTask (s : State α) (t : α) : State α :=
  { s with tasks := s.tasks + 1, last := Function.update s.last t s.tasks }

/-- `start(daemon_mode)`. -/
def start (s : State α) (θ : Thread) (t : α) (daemon : Bool) (now : ℤ) : State α :=
  if (s.timer t).time < 0 ∨ (s.timer t).isRunning then s
  else if 0 < (s.timer t).time then
    scheduleTask t s.tasks (s.timer t).time now daemon maxAttempts
      ((s.running t daemon now).newTask t)
  else (s.running t daemon now).processInnerTimeout θ t

/-- A scheduler with no callback in progress is done with its task. -/
def finish (s : State α) : Thread → State α
  | .user _ => s
  | .scheduler c =>
    if s.callbacks (.scheduler c) = [] then
      { s with executing := Function.update s.executing c none }
    else s

end State

/-! ## Steps -/

/-- The steps: `start` and `halt`, called by a thread; a scheduler takes a task, or executes the one
it has taken; and a listener returns. -/
inductive Event (α : Type) where
  | start (θ : Thread) (t : α) (daemon : Bool) (now : ℤ)
  | halt (θ : Thread) (t : α)
  | take (task : Task α)
  | expire (c : ℕ)
  | ret (θ : Thread)

section Steps

variable {α : Type} (s : State α)

/-- No other thread holds the lock of the timer. -/
def Free (θ : Thread) (t : α) : Prop := ∀ θ', θ' ≠ θ → t ∉ s.callbacks θ'

/-- The thread runs code that calls methods of timers: a scheduler does so in a callback only. -/
def Active : Thread → Prop
  | .user _ => True
  | .scheduler c => s.callbacks (.scheduler c) ≠ []

/-- The step can be taken. -/
def Enabled : Event α → Prop
  | .start θ t _ _ => Active s θ ∧ Free s θ t
  | .halt θ t => Active s θ ∧ Free s θ t
  | .take task => task ∈ s.queue ∧ s.executing task.scheduler = none
  | .expire c =>
    s.callbacks (.scheduler c) = [] ∧
      ∃ task, s.executing c = some task ∧ Free s (.scheduler c) task.timer
  | .ret θ => s.callbacks θ ≠ []

variable [DecidableEq α]

/-- What the step does. -/
def apply : Event α → State α
  | .start θ t daemon now => s.start θ t daemon now
  | .halt _ t => s.terminate t
  | .take task =>
    { s with
      queue := s.queue.filter (· ≠ task)
      executing := Function.update s.executing task.scheduler (some task) }
  | .expire c =>
    match s.executing c with
    | none => s
    | some task => (s.processInnerTimeout (.scheduler c) task.timer).finish (.scheduler c)
  | .ret θ =>
    match s.callbacks θ with
    | [] => s
    | t :: rest => ((s.pop θ rest).terminate t).finish θ

end Steps

/-- The timers as they are constructed. -/
def initial {α : Type} (time : α → ℤ) (listener : α → Bool) : State α where
  timer t := { time := time t, listener := listener t }

/-- The runs. -/
inductive Run {α : Type} [DecidableEq α] (s₀ : State α) : List (Event α) → State α → Prop where
  | nil : Run s₀ [] s₀
  | snoc {es : List (Event α)} {s : State α} {e : Event α} :
      Run s₀ es s → Enabled s e → Run s₀ (es ++ [e]) (apply s e)

end Util
end SoftPhone
