import Mathlib.Logic.Function.Basic
import RopHive.Schedule.Time
import RopHive.TaskDeque.Machine

namespace RopHive.Schedule

/-! The loop of `IOWorker::run`.  A task stands for a non-empty function; each
load, store, read-modify-write and locked section of shared state is one step,
and a `TaskDeque` operation is one step on the list of its tasks, oldest
first. -/

/-- 256 slots. -/
def defaultCapacity : TaskDeque.Capacity := ⟨8, by decide⟩

/-- The fields of `Hive::Options` that an IO worker reads.  The local deque
keeps the capacity that `TaskDeque` rounds `local_queue_capacity` up to. -/
structure Options where
  localQueueCapacity : TaskDeque.Capacity := defaultCapacity
  globalBatchSize : Nat := 16
  localBatchSize : Nat := 64
  victimMinimumSize : Nat := 32
  stealBatchFactor : Nat := 2
  ktries : Nat := 4
  willSteal : Bool := true

/-- A locked queue beside its atomic `approx_size_`: the pools of `Hive` and
`MPSCQueue`.  A consumer may subtract before the producer has added. -/
structure CountedQueue (α : Type) where
  q : List α := []
  approxSize : Int := 0
  deriving DecidableEq, Repr

inductive InboundCommand (Task : Type) where
  | privateTask (task : Task)
  | addTimer (deadline : Int) (task : Task)
  | stopWorker
  deriving DecidableEq, Repr

def InboundCommand.tasks {Task : Type} : InboundCommand Task → List Task
  | .privateTask task => [task]
  | .addTimer _ task => [task]
  | .stopWorker => []

structure TimerTask (Task : Type) where
  deadline : Int
  task : Task
  deriving DecidableEq, Repr

/-- Tasks brought in from elsewhere that are being moved into the local deque:
the rest of a batch from the global pool, or the progress of `stealOnce`. -/
inductive Haul (workers : Nat) (Task : Type) where
  | harvest (rest : List Task)
  | steal (attempt : Nat) (victim : Fin workers) (left stolen : Nat)
  deriving DecidableEq, Repr

/-- What a task interrupts while it runs on an IO worker: the loop that
started it, with the local variables that the loop still needs. -/
inductive Errand (workers : Nat) (Task : Type) where
  | privateTasks
  | expiredTimers (now : Int)
  | localBatch (ran : Nat)
  | inline (haul : Haul workers Task)
  deriving DecidableEq, Repr

/-- The places where the worker checks its stop flag and then the exit flag. -/
inductive Site (workers : Nat) (Task : Type) where
  | loop
  | timeout
  | work
  | task (errand : Errand workers Task)
  | round
  deriving DecidableEq, Repr

inductive IOPoint (workers : Nat) (Task : Type) where
  | unstarted
  | checkStop (site : Site workers Task)
  | checkExit (site : Site workers Task)
  | readInbound
  | readLocal
  | readGlobal
  | readClock
  | markSleeping (timeout : Int)
  | enterWait (timeout : Int)
  | waiting (timeout : Int)
  | dispatching (timeout : Int) (woken : Bool)
  | clearSleeping
  | drainSwap
  | drainCount (commands : List (InboundCommand Task))
  | draining (commands : List (InboundCommand Task))
  | privateNext
  | timersClock
  | timersNext (now : Int)
  | running (errand : Errand workers Task)
  | localPop (ran : Nat)
  | harvestPop
  | harvestCount (batch : List Task)
  | offerSpace (haul : Haul workers Task) (task : Task)
  | offerPush (haul : Haul workers Task) (task : Task)
  | stealPick (attempt : Nat)
  | stealSize (attempt : Nat) (victim : Fin workers)
  | stealTake (attempt : Nat) (victim : Fin workers) (left stolen : Nat)
  | divisionByZero
  | returned
  deriving DecidableEq, Repr

structure IOWorker (workers : Nat) (Task : Type) where
  inbound : CountedQueue (InboundCommand Task) := {}
  privateQueue : List Task := []
  localDq : List Task := []
  timers : List (TimerTask Task) := []
  timerCount : UInt32 := 0
  stopRequested : Bool := false
  sleeping : Bool := false
  /-- The counter of the wakeup eventfd. -/
  wakeup : Nat := 0
  point : IOPoint workers Task := .unstarted
  deriving DecidableEq

/-- Where a started task came from; a timer with the clock reading that it was
compared with. -/
inductive Origin (workers : Nat) where
  | privateTask
  | timer (deadline now : Int)
  | localBatch
  | harvest
  | stolen (victim : Fin workers)
  deriving DecidableEq, Repr

section Steps

variable {workers : Nat} {Task : Type}

namespace Haul

def next : Haul workers Task → IOPoint workers Task
  | .harvest [] => .checkStop .loop
  | .harvest (task :: rest) => .offerSpace (.harvest rest) task
  | .steal attempt victim (left + 1) stolen =>
      .stealTake attempt victim (left + 1) stolen
  | .steal attempt _ 0 stolen =>
      if stolen ≠ 0 then .checkStop .loop else .stealPick (attempt + 1)

def origin : Haul workers Task → Origin workers
  | .harvest _ => .harvest
  | .steal _ victim _ _ => .stolen victim

end Haul

namespace Errand

/-- The task has returned.  `stealOnce` then checks no flag. -/
def done : Errand workers Task → IOPoint workers Task
  | .inline (.steal attempt victim left stolen) =>
      (Haul.steal attempt victim left stolen).next
  | errand => .checkStop (.task errand)

def next : Errand workers Task → IOPoint workers Task
  | .privateTasks => .privateNext
  | .expiredTimers now => .timersNext now
  | .localBatch ran => .localPop ran
  | .inline haul => haul.next

def leave : Errand workers Task → IOPoint workers Task
  | .privateTasks => .timersClock
  | .expiredTimers _ => .checkStop .round
  | .localBatch _ | .inline _ => .checkStop .loop

end Errand

namespace Site

def onStop : Site workers Task → IOPoint workers Task
  | .loop | .round => .returned
  | .timeout | .work => .enterWait 0
  | .task errand => errand.leave

def onward : Site workers Task → IOPoint workers Task
  | .loop => .checkStop .timeout
  | .timeout => .checkStop .work
  | .work => .readInbound
  | .task errand => errand.next
  | .round => .localPop 0

end Site

/-- The points between the loops of a round, to which a flag check or the end
of a task leads. -/
def IOPoint.junction : IOPoint workers Task → Bool
  | .checkStop _ | .privateNext | .timersClock | .timersNext _
  | .localPop _ | .offerSpace _ _ | .stealPick _ | .stealTake _ _ _ _
  | .returned => true
  | .enterWait timeout => timeout = 0
  | _ => false

@[simp] theorem junction_haulNext (haul : Haul workers Task) :
    haul.next.junction = true := by
  fun_cases Haul.next haul <;> rfl

@[simp] theorem junction_errandNext (errand : Errand workers Task) :
    errand.next.junction = true := by
  cases errand with
  | inline haul => exact junction_haulNext haul
  | _ => rfl

@[simp] theorem junction_done (errand : Errand workers Task) :
    errand.done.junction = true := by
  fun_cases Errand.done errand
  · exact junction_haulNext _
  · rfl

@[simp] theorem junction_onStop (site : Site workers Task) :
    site.onStop.junction = true := by
  cases site with
  | task errand => cases errand <;> rfl
  | _ => rfl

theorem junction_onward (site : Site workers Task) :
    site = .work ∨ site.onward.junction = true := by
  cases site with
  | work => exact .inl rfl
  | task errand => exact .inr (junction_errandNext errand)
  | _ => exact .inr rfl

/-- What a worker reads of the world outside it. -/
structure View (workers : Nat) (Task : Type) where
  exitRequested : Bool
  clock : Int
  globalMicro : CountedQueue Task
  peerDq : Fin workers → List Task

/-- What the scheduler and the libraries below decide in a step: that the wait
reports the eventfd, which worker `dist(rng_)` draws, and which of the timers
of least deadline is on top of the heap. -/
inductive Choice (workers : Nat) where
  | go
  | woken
  | victim (victim : Fin workers)
  | timer (index : Nat)
  deriving DecidableEq, Repr

structure Outcome (workers : Nat) (Task : Type) where
  worker : IOWorker workers Task
  globalMicro : CountedQueue Task
  /-- The worker whose oldest local task was taken. -/
  robbed : Option (Fin workers) := none
  started : Option (Origin workers × Task) := none

namespace IOWorker

variable (options : Options) (self : Fin workers)
  (view : View workers Task) (worker : IOWorker workers Task)

def goto (point : IOPoint workers Task) : Outcome workers Task where
  worker := { worker with point }
  globalMicro := view.globalMicro

def start (errand : Errand workers Task) (origin : Origin workers)
    (task : Task) : Outcome workers Task where
  worker := { worker with point := .running errand }
  globalMicro := view.globalMicro
  started := some (origin, task)

def maxLocal : Nat := options.localQueueCapacity.maxSize

def earliest (worker : IOWorker workers Task) : Option Int :=
  (worker.timers.map TimerTask.deadline).min?

/-- One command of the `drainInbound` loop. -/
def accept : InboundCommand Task → IOWorker workers Task
  | .privateTask task =>
      { worker with privateQueue := worker.privateQueue ++ [task] }
  | .addTimer deadline task =>
      { worker with
        timers := worker.timers ++ [⟨deadline, task⟩]
        timerCount := worker.timerCount + 1 }
  | .stopWorker => { worker with stopRequested := true }

/-- The end of `computeNextTimeoutMs`, once `hasImmediateWork` is false. -/
def block (timeout : Int) : IOPoint workers Task :=
  if timeout ≠ 0 then .markSleeping timeout else .enterWait 0

/-- `stealOnce` before its first attempt, and the check of `will_steal` in
front of it. -/
def stealOnce : IOPoint workers Task :=
  if options.willSteal ∧ 1 < workers then .stealPick 0 else .checkStop .loop

/-- The quota of `stealOnce` for a victim of the given size. -/
def stealQuota (peerSize : Nat) : Nat :=
  if max 8 options.victimMinimumSize < peerSize then
    peerSize / options.stealBatchFactor
  else 0

def step (choice : Choice workers) : Option (Outcome workers Task) :=
  match worker.point with
  | .unstarted => some (worker.goto view (.checkStop .loop))
  | .checkStop site =>
      some (worker.goto view
        (if worker.stopRequested then site.onStop else .checkExit site))
  | .checkExit site =>
      some (worker.goto view
        (if view.exitRequested then site.onStop else site.onward))
  | .readInbound =>
      some (worker.goto view
        (if worker.inbound.approxSize ≠ 0 then .enterWait 0
         else if worker.privateQueue ≠ [] then .enterWait 0
         else .readLocal))
  | .readLocal =>
      some (worker.goto view
        (if worker.localDq.length ≠ 0 then .enterWait 0 else .readGlobal))
  | .readGlobal =>
      some (worker.goto view
        (if view.globalMicro.approxSize ≠ 0 then .enterWait 0
         else if worker.timers = [] then block (-1)
         else .readClock))
  | .readClock =>
      match worker.earliest with
      | none => none
      | some deadline =>
          some (worker.goto view (block (timeoutUntil deadline view.clock)))
  | .markSleeping timeout =>
      some ({ worker with sleeping := true }.goto view (.enterWait timeout))
  | .enterWait timeout => some (worker.goto view (.waiting timeout))
  | .waiting timeout =>
      match choice with
      | .woken =>
          if worker.wakeup = 0 then none
          else some (worker.goto view (.dispatching timeout true))
      | _ => some (worker.goto view (.dispatching timeout false))
  | .dispatching timeout true =>
      -- The handler reads the eventfd until there is nothing to read.
      if worker.wakeup = 0 then
        some (worker.goto view (.dispatching timeout false))
      else
        some ({ worker with wakeup := 0 }.goto view
          (.dispatching timeout true))
  | .dispatching timeout false =>
      some (worker.goto view
        (if timeout ≠ 0 then .clearSleeping else .drainSwap))
  | .clearSleeping =>
      some ({ worker with sleeping := false }.goto view .drainSwap)
  | .drainSwap =>
      if worker.inbound.q = [] then some (worker.goto view .privateNext)
      else
        some ({ worker with inbound := { worker.inbound with q := [] } }.goto
          view (.drainCount worker.inbound.q))
  | .drainCount commands =>
      some ({ worker with
        inbound := { worker.inbound with
          approxSize := worker.inbound.approxSize - commands.length } }.goto
          view (.draining commands))
  | .draining [] => some (worker.goto view .privateNext)
  | .draining (command :: commands) =>
      some ((worker.accept command).goto view (.draining commands))
  | .privateNext =>
      match worker.privateQueue with
      | [] => some (worker.goto view .timersClock)
      | task :: rest =>
          some ({ worker with privateQueue := rest }.start view .privateTasks
            .privateTask task)
  | .timersClock => some (worker.goto view (.timersNext view.clock))
  | .timersNext now =>
      match choice with
      | .timer index =>
          match worker.timers[index]? with
          | none => none
          | some timer =>
              if worker.earliest = some timer.deadline ∧
                  timer.deadline ≤ now then
                some ({ worker with
                  timers := worker.timers.eraseIdx index
                  timerCount := worker.timerCount - 1 }.start view
                    (.expiredTimers now) (.timer timer.deadline now)
                    timer.task)
              else none
      | _ =>
          if ∀ timer ∈ worker.timers, now < timer.deadline then
            some (worker.goto view (.checkStop .round))
          else none
  | .running errand => some (worker.goto view errand.done)
  | .localPop ran =>
      match worker.localDq.getLast? with
      | some task =>
          if ran < options.localBatchSize then
            some ({ worker with localDq := worker.localDq.dropLast }.start
              view (.localBatch (ran + 1)) .localBatch task)
          else
            some (worker.goto view
              (if ran ≠ 0 then .checkStop .loop else .harvestPop))
      | none =>
          some (worker.goto view
            (if ran ≠ 0 then .checkStop .loop else .harvestPop))
  | .harvestPop =>
      match view.globalMicro.q.take options.globalBatchSize with
      | [] => some (worker.goto view (stealOnce options))
      | batch =>
          some { worker.goto view (.harvestCount batch) with
            globalMicro := { view.globalMicro with
              q := view.globalMicro.q.drop options.globalBatchSize } }
  | .harvestCount batch =>
      some { worker.goto view (Haul.harvest batch).next with
        globalMicro := { view.globalMicro with
          approxSize := view.globalMicro.approxSize - batch.length } }
  | .offerSpace haul task =>
      if maxLocal options - worker.localDq.length ≠ 0 then
        some (worker.goto view (.offerPush haul task))
      else some (worker.start view (.inline haul) haul.origin task)
  | .offerPush haul task =>
      -- A refused task is left in the argument, and runs here.
      if worker.localDq.length < maxLocal options then
        some ({ worker with localDq := worker.localDq ++ [task] }.goto view
          haul.next)
      else some (worker.start view (.inline haul) haul.origin task)
  | .stealPick attempt =>
      if attempt < options.ktries then
        match choice with
        | .victim victim =>
            some (worker.goto view
              (if victim = self then .stealPick (attempt + 1)
               else .stealSize attempt victim))
        | _ => none
      else some (worker.goto view (.checkStop .loop))
  | .stealSize attempt victim =>
      let peerSize := (view.peerDq victim).length
      some (worker.goto view
        (if max 8 options.victimMinimumSize < peerSize ∧
            options.stealBatchFactor = 0 then .divisionByZero
         else
          (Haul.steal attempt victim (stealQuota options peerSize) 0).next))
  | .stealTake attempt victim left stolen =>
      match view.peerDq victim with
      | [] => some (worker.goto view
          (Haul.steal attempt victim 0 stolen).next)
      | task :: _ =>
          some { worker.goto view
              (.offerSpace (.steal attempt victim (left - 1) (stolen + 1))
                task) with
            robbed := some victim }
  | .divisionByZero | .returned => none

end IOWorker

end Steps

end RopHive.Schedule
