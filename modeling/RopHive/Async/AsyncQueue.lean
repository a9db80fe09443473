import Mathlib.Logic.Function.Basic
import RopHive.Transition.System

namespace RopHive.Async

open Transition

/-! `AsyncQueue`, the threads that push to it and the coroutines that wait for
it.  A section under `mu_` is one step. -/

structure AsyncQueue (T Executor Coroutine : Type) where
  exec : Option Executor := none
  closed : Bool := false
  q : List T := []
  waiter : Option Coroutine := none

structure Wake (Executor Coroutine : Type) where
  exec : Option Executor := none
  waiter : Option Coroutine := none

namespace AsyncQueue

variable {T Executor Coroutine : Type}
  (queue : AsyncQueue T Executor Coroutine)

/-- Takes the waiter for `wakeOne`. -/
def release : AsyncQueue T Executor Coroutine × Wake Executor Coroutine :=
  ({ queue with waiter := none },
    { exec := queue.exec
      waiter := queue.waiter })

def push (v : T) : AsyncQueue T Executor Coroutine × Wake Executor Coroutine :=
  if queue.closed then (queue, {})
  else { queue with q := queue.q ++ [v] }.release

def close : AsyncQueue T Executor Coroutine × Wake Executor Coroutine :=
  { queue with closed := true }.release

def awaitReady : Bool := queue.closed || !queue.q.isEmpty

def awaitSuspend (h : Coroutine) : AsyncQueue T Executor Coroutine :=
  { queue with waiter := some h }

def awaitResume : Option T × AsyncQueue T Executor Coroutine :=
  match queue.q with
  | [] => (none, queue)
  | out :: rest => (some out, { queue with q := rest })

def bind (exec : Executor) :
    AsyncQueue T Executor Coroutine × Wake Executor Coroutine :=
  let queue := { queue with exec := some exec }
  if queue.waiter.isSome && queue.awaitReady then queue.release
  else (queue, {})

end AsyncQueue

def Wake.handed {Executor Coroutine : Type} :
    Wake Executor Coroutine → Option (Executor × Coroutine)
  | ⟨some exec, some h⟩ => some (exec, h)
  | _ => none

inductive Request (T Executor : Type) where
  | push (v : T)
  | close
  | bind (exec : Executor)
  deriving DecidableEq

/-- Where a coroutine stands in a pop: between `await_ready` and
`await_suspend`, behind it, or before `await_resume`. -/
inductive Phase where
  | running
  | suspending
  | suspended
  | resuming
  deriving DecidableEq, Repr

inductive Event (T : Type) where
  | pushed (v : T)
  | popped (result : Option T)
  deriving DecidableEq

/-- `wakes` has the threads that have left `mu_` and are yet to call `wakeOne`;
`misused` is set when a coroutine is resumed that is not suspended. -/
structure Shared (T Executor Coroutine Thread : Type) where
  queue : AsyncQueue T Executor Coroutine := {}
  wakes : Thread → Wake Executor Coroutine := fun _ => {}
  phases : Coroutine → Phase := fun _ => .running
  scheduled : List (Executor × Coroutine) := []
  misused : Bool := false
  log : List (Event T) := []

inductive QueueLabel (T Executor Coroutine Thread : Type) where
  | call (thread : Thread) (request : Request T Executor)
  | wakeOne (thread : Thread)
  | awaitReady (h : Coroutine)
  | awaitSuspend (h : Coroutine)
  | awaitResume (h : Coroutine)
  | resume (exec : Executor) (h : Coroutine)
  deriving DecidableEq

namespace Shared

variable {T Executor Coroutine Thread : Type} [DecidableEq Executor]
  [DecidableEq Coroutine] [DecidableEq Thread]
  (shared : Shared T Executor Coroutine Thread)

def serve : Request T Executor →
    AsyncQueue T Executor Coroutine × Wake Executor Coroutine
  | .push v => shared.queue.push v
  | .close => shared.queue.close
  | .bind exec => shared.queue.bind exec

def admits : Request T Executor → List (Event T)
  | .push v => if shared.queue.closed then [] else [.pushed v]
  | _ => []

def setPhase (h : Coroutine) (phase : Phase) :
    Shared T Executor Coroutine Thread :=
  { shared with phases := Function.update shared.phases h phase }

def resumed (h : Coroutine) : Shared T Executor Coroutine Thread :=
  if shared.phases h = .suspended then shared.setPhase h .resuming
  else { shared with misused := true }

def step : QueueLabel T Executor Coroutine Thread →
    Option (Shared T Executor Coroutine Thread)
  | .call thread request =>
      if (shared.wakes thread).handed = none then
        some { shared with
          queue := (shared.serve request).1
          wakes := Function.update shared.wakes thread
            (shared.serve request).2
          log := shared.log ++ shared.admits request }
      else none
  | .wakeOne thread =>
      (shared.wakes thread).handed.map fun woken => { shared with
        wakes := Function.update shared.wakes thread {}
        scheduled := shared.scheduled ++ [woken] }
  | .awaitReady h =>
      if shared.phases h = .running then
        some (shared.setPhase h
          (if shared.queue.awaitReady then .resuming else .suspending))
      else none
  | .awaitSuspend h =>
      if shared.phases h = .suspending then
        some ({ shared with
          queue := shared.queue.awaitSuspend h }.setPhase h .suspended)
      else none
  | .awaitResume h =>
      if shared.phases h = .resuming then
        some ({ shared with
          queue := shared.queue.awaitResume.2
          log := shared.log ++
            [Event.popped shared.queue.awaitResume.1] }.setPhase h .running)
      else none
  | .resume exec h =>
      if (exec, h) ∈ shared.scheduled then
        some ({ shared with
          scheduled := shared.scheduled.erase (exec, h) }.resumed h)
      else none

def system : System (Shared T Executor Coroutine Thread)
    (QueueLabel T Executor Coroutine Thread) where
  initial shared := shared = {}
  step := step

inductive Moves (shared : Shared T Executor Coroutine Thread) :
    QueueLabel T Executor Coroutine Thread →
      Shared T Executor Coroutine Thread → Prop
  | called {thread : Thread} {request : Request T Executor} :
      (shared.wakes thread).handed = none →
      Moves shared (.call thread request) { shared with
        queue := (shared.serve request).1
        wakes := Function.update shared.wakes thread (shared.serve request).2
        log := shared.log ++ shared.admits request }
  | woke {thread : Thread} {exec : Executor} {h : Coroutine} :
      (shared.wakes thread).handed = some (exec, h) →
      Moves shared (.wakeOne thread) { shared with
        wakes := Function.update shared.wakes thread {}
        scheduled := shared.scheduled ++ [(exec, h)] }
  | asked {h : Coroutine} : shared.phases h = .running →
      Moves shared (.awaitReady h) (shared.setPhase h
        (if shared.queue.awaitReady then .resuming else .suspending))
  | slept {h : Coroutine} : shared.phases h = .suspending →
      Moves shared (.awaitSuspend h) ({ shared with
        queue := shared.queue.awaitSuspend h }.setPhase h .suspended)
  | took {h : Coroutine} : shared.phases h = .resuming →
      Moves shared (.awaitResume h) ({ shared with
        queue := shared.queue.awaitResume.2
        log := shared.log ++
          [Event.popped shared.queue.awaitResume.1] }.setPhase h .running)
  | resumed {exec : Executor} {h : Coroutine} :
      (exec, h) ∈ shared.scheduled →
      Moves shared (.resume exec h) ({ shared with
        scheduled := shared.scheduled.erase (exec, h) }.resumed h)

theorem moves_of_step {shared after : Shared T Executor Coroutine Thread}
    {label : QueueLabel T Executor Coroutine Thread}
    (stepped : shared.step label = some after) : Moves shared label after := by
  cases label with
  | call thread request =>
      obtain ⟨free, same⟩ := Option.ite_none_right_eq_some.mp stepped
      cases same
      exact .called free
  | wakeOne thread =>
      obtain ⟨⟨exec, h⟩, woken, same⟩ := Option.map_eq_some_iff.mp stepped
      cases same
      exact .woke woken
  | awaitReady h =>
      obtain ⟨runs, same⟩ := Option.ite_none_right_eq_some.mp stepped
      cases same
      exact .asked runs
  | awaitSuspend h =>
      obtain ⟨found, same⟩ := Option.ite_none_right_eq_some.mp stepped
      cases same
      exact .slept found
  | awaitResume h =>
      obtain ⟨goesOn, same⟩ := Option.ite_none_right_eq_some.mp stepped
      cases same
      exact .took goesOn
  | resume exec h =>
      obtain ⟨member, same⟩ := Option.ite_none_right_eq_some.mp stepped
      cases same
      exact .resumed member

end Shared

end RopHive.Async
