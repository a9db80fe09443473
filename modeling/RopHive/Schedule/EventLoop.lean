import Mathlib.Data.Int.Order.Basic
import RopHive.Data.PriorityQueue
import RopHive.Schedule.IOWorker
import RopHive.Transition.System

namespace RopHive.Schedule

open PriorityQueue Transition

/-! The loop of `EventLoop::run` and the threads that call it, from outside or
from its callbacks.  Each locked section, each access to `exit_requested_` and
each system call is one step. -/

namespace EventLoop

/-- Which of several timers of least deadline is on top of `timers_`. -/
abbrev TimerRule (Task : Type) := TopRule (@TimerTask.deadline Task)

inductive Thread (Outside : Type) where
  | outside (thread : Outside)
  | loop
  deriving DecidableEq

/-- `none` is an empty function. -/
inductive Request (Task : Type) where
  | post (task : Option Task)
  | postDelayed (task : Option Task) (delay : Int)
  | requestExit
  | requestWakeUp
  deriving DecidableEq

inductive Call (Task : Type) where
  | idle
  | push (task : Task)
  | pushTimer (task : Task) (delay : Int)
  | storeExit
  | notify
  deriving DecidableEq

/-- A timer that has been collected keeps its deadline here for the log. -/
inductive Point (Task : Type) where
  | unstarted
  | checkExit
  | timeoutExit
  | timeoutLock
  | enterWait (timeout : Int)
  | waiting (timeout : Int)
  | dispatching (woken : Bool)
  | timersClock
  | collect (now : Int)
  | expired (now : Int) (rest : List (TimerTask Task))
  | runningTimer (now : Int) (rest : List (TimerTask Task))
  | swapTasks
  | ready (rest : List Task)
  | runningTask (rest : List Task)
  | returned
  deriving DecidableEq

inductive Event (Task : Type) where
  | posted (task : Task)
  | delayed (timer : TimerTask Task)
  | startedTask (task : Task)
  | startedTimer (timer : TimerTask Task) (now : Int)
  deriving DecidableEq

structure State (Outside Task : Type) where
  tasks : List Task
  timers : List (TimerTask Task)
  exitRequested : Bool
  /-- The counter of the wakeup eventfd. -/
  wakeup : Nat
  clock : Int
  point : Point Task
  calls : Thread Outside → Call Task
  log : List (Event Task)

/-- `loop` takes the next step of the loop; `woken` says that the wait reports
the eventfd, and the heap resolves ties by `rule` in this step. -/
inductive Label (Outside Task : Type) where
  | call (thread : Thread Outside) (request : Request Task)
  | advance (thread : Thread Outside)
  | loop (woken : Bool) (rule : TimerRule Task)
  | tick (nanos : Nat)

section Steps

variable {Outside Task : Type}

def initialState : State Outside Task where
  tasks := []
  timers := []
  exitRequested := false
  wakeup := 0
  clock := 0
  point := .unstarted
  calls := fun _ => .idle
  log := []

namespace State

variable (rule : TimerRule Task) (state : State Outside Task)

def goto (point : Point Task) : State Outside Task := { state with point }

def record (event : Event Task) : State Outside Task :=
  { state with log := state.log ++ [event] }

/-- User code runs on the thread. -/
def mayCall : Thread Outside → Bool
  | .outside _ => true
  | .loop =>
      match state.point with
      | .dispatching _ | .runningTimer _ _ | .runningTask _ => true
      | _ => false

def enter : Request Task → Call Task
  | .post (some task) => .push task
  | .postDelayed (some task) delay => .pushTimer task delay
  | .post none | .postDelayed none _ => .idle
  | .requestExit => .storeExit
  | .requestWakeUp => .notify

def callEffect : Call Task → Option (State Outside Task × Call Task)
  | .idle => none
  | .push task =>
      some ({ state with
        tasks := state.tasks ++ [task] }.record (.posted task), .notify)
  | .pushTimer task delay =>
      let timer := ⟨timeAfter state.clock delay, task⟩
      some ({ state with
        timers := state.timers ++ [timer] }.record (.delayed timer), .notify)
  | .storeExit => some ({ state with exitRequested := true }, .notify)
  | .notify => some ({ state with wakeup := state.wakeup + 1 }, .idle)

/-- `timers_.top().deadline`. -/
def topDeadline : Option Int :=
  (state.timers[rule.index state.timers]?).map TimerTask.deadline

/-- The locked part of `computeTimeoutMs`. -/
def timeoutMs : Int :=
  if state.tasks ≠ [] then 0
  else
    match state.topDeadline rule with
    | none => -1
    | some deadline => timeoutUntil deadline state.clock

def loopStep (woken : Bool) : Option (State Outside Task) :=
  match state.point with
  | .unstarted => some (state.goto .checkExit)
  | .checkExit =>
      some (state.goto
        (if state.exitRequested then .returned else .timeoutExit))
  | .timeoutExit =>
      some (state.goto
        (if state.exitRequested then .enterWait 0 else .timeoutLock))
  | .timeoutLock => some (state.goto (.enterWait (state.timeoutMs rule)))
  | .enterWait timeout => some (state.goto (.waiting timeout))
  | .waiting _ =>
      if woken ∧ state.wakeup = 0 then none
      else some (state.goto (.dispatching woken))
  | .dispatching true =>
      -- The handler reads the eventfd until there is nothing to read.
      if state.wakeup = 0 then some (state.goto (.dispatching false))
      else some { state with wakeup := 0 }
  | .dispatching false => some (state.goto .timersClock)
  | .timersClock => some (state.goto (.collect state.clock))
  | .collect now =>
      let popped := popDue rule now state.timers.length state.timers
      some { state with
        timers := popped.2
        point := .expired now popped.1 }
  | .expired _ [] => some (state.goto .swapTasks)
  | .expired now (timer :: rest) =>
      some ((state.goto (.runningTimer now rest)).record
        (.startedTimer timer now))
  | .runningTimer now rest => some (state.goto (.expired now rest))
  | .swapTasks =>
      some { state with
        tasks := []
        point := .ready state.tasks }
  | .ready [] => some (state.goto .checkExit)
  | .ready (task :: rest) =>
      some ((state.goto (.runningTask rest)).record (.startedTask task))
  | .runningTask rest => some (state.goto (.ready rest))
  | .returned => none

variable [DecidableEq Outside]

def setCall (thread : Thread Outside) (call : Call Task) :
    State Outside Task :=
  { state with calls := Function.update state.calls thread call }

def callStep (thread : Thread Outside) : Option (State Outside Task) :=
  (state.callEffect (state.calls thread)).map fun effect =>
    effect.1.setCall thread effect.2

def step : Label Outside Task → Option (State Outside Task)
  | .call thread request =>
      match state.calls thread with
      | .idle =>
          if state.mayCall thread then
            some (state.setCall thread (enter request))
          else none
      | _ => none
  | .advance thread => state.callStep thread
  -- The loop goes on when the call made on its thread has returned.
  | .loop woken rule =>
      match state.calls .loop with
      | .idle => state.loopStep rule woken
      | _ => none
  | .tick nanos => some { state with clock := state.clock + nanos }

end State

def machine (Outside : Type) [DecidableEq Outside] (Task : Type) :
    System (State Outside Task) (Label Outside Task) where
  initial := fun state => state = initialState
  step := fun state label => state.step label

namespace State

variable [DecidableEq Outside] {rule : TimerRule Task}
  {state after : State Outside Task}

theorem step_call {thread : Thread Outside} {request : Request Task}
    (stepped : state.step (.call thread request) = some after) :
    state.calls thread = .idle ∧ state.mayCall thread = true ∧
      after = state.setCall thread (enter request) := by
  simp only [step] at stepped
  cases called : state.calls thread with
  | idle =>
      simp only [called, Option.ite_none_right_eq_some] at stepped
      exact ⟨rfl, stepped.1, (Option.some.inj stepped.2).symm⟩
  | push | pushTimer | storeExit | notify => simp [called] at stepped

theorem step_advance {thread : Thread Outside}
    (stepped : state.step (.advance thread) = some after) :
    ∃ moved call, state.callEffect (state.calls thread) = some (moved, call) ∧
      after = moved.setCall thread call := by
  obtain ⟨⟨moved, call⟩, effect, same⟩ := Option.map_eq_some_iff.mp stepped
  exact ⟨moved, call, effect, same.symm⟩

theorem step_loop {woken : Bool}
    (stepped : state.step (.loop woken rule) = some after) :
    state.calls .loop = .idle ∧ state.loopStep rule woken = some after := by
  simp only [step] at stepped
  cases called : state.calls .loop with
  | idle => exact ⟨rfl, by simpa only [called] using stepped⟩
  | push | pushTimer | storeExit | notify => simp [called] at stepped

omit [DecidableEq Outside] in
theorem loopStep_frame {woken : Bool}
    (moved : state.loopStep rule woken = some after) :
    after.exitRequested = state.exitRequested ∧
      after.clock = state.clock ∧ after.calls = state.calls ∧
      after.tasks = (match state.point with
        | .swapTasks => []
        | _ => state.tasks) ∧
      after.timers = (match state.point with
        | .collect now =>
            (popDue rule now state.timers.length state.timers).2
        | _ => state.timers) ∧
      after.log = state.log ++ (match state.point with
        | .expired now (timer :: _) => [.startedTimer timer now]
        | .ready (task :: _) => [.startedTask task]
        | _ => []) := by
  unfold loopStep at moved
  cases point : state.point with
  | unstarted | checkExit | timeoutExit | timeoutLock | enterWait
  | timersClock | collect | runningTimer | swapTasks | runningTask =>
      simp only [point] at moved
      cases moved
      simp [goto]
  | waiting timeout =>
      simp only [point, Option.ite_none_left_eq_some] at moved
      obtain ⟨_, same⟩ := moved
      cases same
      simp [goto]
  | dispatching woken =>
      cases woken with
      | true =>
          simp only [point] at moved
          split at moved <;> cases moved <;> simp [goto]
      | false =>
          simp only [point] at moved
          cases moved
          simp [goto]
  | expired now rest =>
      cases rest with
      | nil =>
          simp only [point] at moved
          cases moved
          simp [goto]
      | cons timer rest =>
          simp only [point] at moved
          cases moved
          simp [goto, record]
  | ready rest =>
      cases rest with
      | nil =>
          simp only [point] at moved
          cases moved
          simp [goto]
      | cons task rest =>
          simp only [point] at moved
          cases moved
          simp [goto, record]
  | returned => simp [point] at moved

end State

end Steps

end EventLoop

end RopHive.Schedule
