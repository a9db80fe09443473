import Mathlib.Data.Fintype.Sum
import RopHive.Schedule.ComputeWorker
import RopHive.Transition.System

namespace RopHive.Schedule

open Transition

/-! A `Hive` with its IO workers, its compute workers and any threads that
call it from outside.  User code runs on the outside threads and inside the
tasks and handlers of the workers, and may make any call anywhere. -/

inductive Thread (Outside : Type) (workers computers : Nat) where
  | outside (thread : Outside)
  | io (worker : Fin workers)
  | compute (worker : Fin computers)
  deriving DecidableEq

instance {Outside : Type} {workers computers : Nat} [Fintype Outside] :
    Fintype (Thread Outside workers computers) :=
  Fintype.ofEquiv (Outside ⊕ Fin workers ⊕ Fin computers)
    { toFun
        | .inl thread => .outside thread
        | .inr (.inl worker) => .io worker
        | .inr (.inr worker) => .compute worker
      invFun
        | .outside thread => .inl thread
        | .io worker => .inr (.inl worker)
        | .compute worker => .inr (.inr worker)
      left_inv := by rintro (_ | _ | _) <;> rfl
      right_inv := by rintro (_ | _ | _) <;> rfl }

/-- A call of the public interface.  `none` is an empty function; `first` and
`second` are the draws of `dist(rng)` in `pickDelayedWorker`. -/
inductive Request (workers : Nat) (Task : Type) where
  | postIo (task : Option Task)
  | postToWorker (id : Nat) (task : Option Task)
  | postDelayed (task : Option Task) (delay : Int) (first second : Fin workers)
  | addTimer (worker : Fin workers) (deadline : Int) (task : Option Task)
  | postPrivate (worker : Fin workers) (task : Option Task)
  | postToLocal (worker : Fin workers) (task : Option Task)
  | postCompute (task : Option Task)
  | wakeup (worker : Fin workers)
  | requestStop (worker : Fin workers)
  | requestExit
  deriving DecidableEq

/-- Where a thread stands in a call. -/
inductive Call (workers computers : Nat) (Task : Type) where
  | idle
  | microPush (task : Task)
  | microCount
  | scan (worker : Fin workers)
  | wakeIdle (worker : Fin workers)
  | inboundPush (worker : Fin workers) (command : InboundCommand Task)
      (wake : Bool)
  | inboundCount (worker : Fin workers) (wake : Bool)
  | inboundWake (worker : Fin workers)
  | stopOne (worker : Fin workers)
  | readFirst (first second : Fin workers) (task : Task) (delay : Int)
  | readSecond (first second : Fin workers) (firstCount : UInt32)
      (task : Task) (delay : Int)
  | readClock (worker : Fin workers) (task : Task) (delay : Int)
  | localSpace (worker : Fin workers) (task : Task)
  | localPush (worker : Fin workers) (task : Task)
  | computePush (task : Task)
  | computeCount
  | computeNotify
  | exitExchange
  | exitStop (worker : Fin workers)
  | exitWake (worker : Fin workers)
  | computeStop (worker : Fin computers)
  | notifyAll
  deriving DecidableEq

inductive Event (workers computers : Nat) (Task : Type) where
  /-- A call took a non-empty task for the IO workers. -/
  | submitted (task : Task)
  | pooled (task : Task)
  | enqueued (worker : Fin workers) (command : InboundCommand Task)
  | started (worker : Fin workers) (origin : Origin workers) (task : Task)
  | computePooled (task : Task)
  | computePopped (worker : Fin computers) (batch : List Task)
  | computeStarted (worker : Fin computers) (task : Task)
  deriving DecidableEq

structure State (Outside : Type) (workers computers : Nat)
    (Task : Type) where
  globalMicro : CountedQueue Task
  globalCompute : GlobalComputePool computers Task
  exitRequested : Bool
  clock : Int
  ioWorkers : Fin workers → IOWorker workers Task
  computeWorkers : Fin computers → ComputeWorker Task
  calls : Thread Outside workers computers →
    Call workers computers Task
  log : List (Event workers computers Task)

/-- `call` begins a call on a thread and `advance` takes its next step, where
`notify_one` may pick a waiter; `io` and `compute` take the next step of a
worker's loop. -/
inductive Label (Outside : Type) (workers computers : Nat)
    (Task : Type) where
  | call (thread : Thread Outside workers computers)
      (request : Request workers Task)
  | advance (thread : Thread Outside workers computers)
      (waiter : Option (Fin computers))
  | io (worker : Fin workers) (choice : Choice workers)
  | compute (worker : Fin computers)
  | tick (nanos : Nat)
  deriving DecidableEq

def Label.advances {Outside : Type} {workers computers : Nat} {Task : Type} :
    Label Outside workers computers Task →
      Option (Thread Outside workers computers)
  | .advance thread _ => some thread
  | _ => none

/-- The options that each worker was constructed with. -/
structure Config (workers computers : Nat) where
  io : Fin workers → Options
  computeBatchSize : Fin computers → Nat

section Steps

variable {Outside : Type} {workers computers : Nat} {Task : Type}

def initialState : State Outside workers computers Task where
  globalMicro := {}
  globalCompute := {}
  exitRequested := false
  clock := 0
  ioWorkers := fun _ => {}
  computeWorkers := fun _ => {}
  calls := fun _ => .idle
  log := []

namespace Call

/-- `wakeOneIdleIOWorker` from the worker of the given index on. -/
def scanFrom (index : Nat) : Call workers computers Task :=
  if inside : index < workers then .scan ⟨index, inside⟩ else .idle

/-- The second loop of `requestExit` and what follows it. -/
def computeStopFrom (index : Nat) : Call workers computers Task :=
  if inside : index < computers then .computeStop ⟨index, inside⟩
  else .notifyAll

/-- The first loop of `requestExit` and what follows it. -/
def exitStopFrom (index : Nat) : Call workers computers Task :=
  if inside : index < workers then .exitStop ⟨index, inside⟩
  else computeStopFrom 0

/-- What the next step of the call puts into the global pool. -/
def pooling : Call workers computers Task → List Task
  | .microPush task => [task]
  | _ => []

end Call

/-- `pickB` once `pickA == pickB` has been resolved. -/
def otherPick (first second : Fin workers) : Fin workers :=
  if first = second then
    ⟨(second.val + 1) % workers,
      Nat.mod_lt _ (Nat.lt_of_le_of_lt (Nat.zero_le _) second.isLt)⟩
  else second

/-- What other threads may do to an IO worker: post to it, steal from it,
notify it or stop it. -/
structure IOWorker.Disturbed (before after : IOWorker workers Task) : Prop where
  point : after.point = before.point
  wakeup : before.wakeup ≤ after.wakeup
  sleeping : after.sleeping = before.sleeping
  privateQueue : after.privateQueue = before.privateQueue
  timers : after.timers = before.timers
  timerCount : after.timerCount = before.timerCount
  stopRequested : before.stopRequested = true → after.stopRequested = true

theorem IOWorker.Disturbed.refl (worker : IOWorker workers Task) :
    worker.Disturbed worker :=
  ⟨rfl, Nat.le_refl _, rfl, rfl, rfl, rfl, id⟩

namespace State

variable (state : State Outside workers computers Task)

def view : View workers Task where
  exitRequested := state.exitRequested
  clock := state.clock
  globalMicro := state.globalMicro
  peerDq := fun worker => (state.ioWorkers worker).localDq

def setWorker (worker : Fin workers) (fields : IOWorker workers Task) :
    State Outside workers computers Task :=
  { state with
    ioWorkers := Function.update state.ioWorkers worker fields }

/-- `IOWorker::wakeup`: one is added to the eventfd, which exists since
`bind`. -/
def notify (worker : Fin workers) : State Outside workers computers Task :=
  state.setWorker worker { state.ioWorkers worker with
    wakeup := (state.ioWorkers worker).wakeup + 1 }

def stopWorker (worker : Fin workers) : State Outside workers computers Task :=
  state.setWorker worker { state.ioWorkers worker with stopRequested := true }

def record (event : Event workers computers Task) :
    State Outside workers computers Task :=
  { state with log := state.log ++ [event] }

/-- A waiter that has been notified goes back to taking `mu_`. -/
def wakeCompute (worker : Fin computers) :
    State Outside workers computers Task :=
  { state with
    computeWorkers := Function.update state.computeWorkers worker
      { state.computeWorkers worker with point := .lock } }

def released (worker : ComputeWorker Task) : ComputeWorker Task :=
  if worker.isWaiting then { worker with point := .lock } else worker

/-- The worker whose task or handler runs on the thread, `currentWorker()`. -/
def currentWorker : Thread Outside workers computers →
    Option (Fin workers)
  | .io worker =>
      match (state.ioWorkers worker).point with
      | .running _ | .dispatching _ _ => some worker
      | _ => none
  | _ => none

/-- User code runs on the thread.  The thread of the first IO worker also makes
the `requestExit` call at the end of `Hive::run`. -/
def mayCall (thread : Thread Outside workers computers)
    (request : Request workers Task) : Bool :=
  match thread with
  | .outside _ => true
  | .io worker =>
      match (state.ioWorkers worker).point with
      | .running _ | .dispatching _ _ => true
      | .returned => worker.val = 0 && (request matches .requestExit)
      | _ => false
  | .compute worker =>
      match (state.computeWorkers worker).point with
      | .running _ => true
      | _ => false

/-- The first point of a call, and the task that the call takes for the IO
workers.  With an empty function or an invalid worker id it returns at once. -/
def enter (thread : Thread Outside workers computers) :
    Request workers Task → Call workers computers Task × Option Task
  | .postIo (some task) => (.microPush task, some task)
  | .postToWorker id (some task) =>
      if valid : id < workers then
        (.inboundPush ⟨id, valid⟩ (.privateTask task) true, some task)
      else (.idle, none)
  | .postDelayed (some task) delay first second =>
      (if workers = 1 then .readClock first task delay
       else .readFirst first (otherPick first second) task delay, some task)
  | .addTimer worker deadline (some task) =>
      (.inboundPush worker (.addTimer deadline task) false, some task)
  | .postPrivate worker (some task) =>
      (.inboundPush worker (.privateTask task) false, some task)
  | .postToLocal worker (some task) =>
      (if state.currentWorker thread = some worker then
        .localSpace worker task
       else .microPush task, some task)
  | .postCompute (some task) => (.computePush task, none)
  | .postIo none | .postToWorker _ none | .postDelayed none _ _ _
  | .addTimer _ _ none | .postPrivate _ none | .postToLocal _ none
  | .postCompute none => (.idle, none)
  | .wakeup worker => (.inboundWake worker, none)
  | .requestStop worker => (.stopOne worker, none)
  | .requestExit => (.exitExchange, none)

/-- One step of a call: what it does to the shared state, and the call's next
point. -/
def callEffect (config : Config workers computers)
    (waiter : Option (Fin computers)) :
    Call workers computers Task →
      Option (State Outside workers computers Task ×
        Call workers computers Task)
  | .idle => none
  | .microPush task =>
      some ({ state with
        globalMicro := { state.globalMicro with
          q := state.globalMicro.q ++ [task] } }.record (.pooled task),
        .microCount)
  | .microCount =>
      some ({ state with
        globalMicro := { state.globalMicro with
          approxSize := state.globalMicro.approxSize + 1 } }, .scanFrom 0)
  | .scan worker =>
      some (state,
        if (state.ioWorkers worker).sleeping then .wakeIdle worker
        else .scanFrom (worker.val + 1))
  | .wakeIdle worker | .inboundWake worker => some (state.notify worker, .idle)
  | .inboundPush worker command wake =>
      let fields := state.ioWorkers worker
      some ((state.setWorker worker { fields with
        inbound := { fields.inbound with
          q := fields.inbound.q ++ [command] } }).record
            (.enqueued worker command), .inboundCount worker wake)
  | .inboundCount worker wake =>
      let fields := state.ioWorkers worker
      some (state.setWorker worker { fields with
        inbound := { fields.inbound with
          approxSize := fields.inbound.approxSize + 1 } },
        if wake then .inboundWake worker else .idle)
  | .stopOne worker => some (state.stopWorker worker, .idle)
  | .readFirst first second task delay =>
      some (state, .readSecond first second
        (state.ioWorkers first).timerCount task delay)
  | .readSecond first second firstCount task delay =>
      some (state, .readClock
        (if firstCount ≤ (state.ioWorkers second).timerCount then first
         else second) task delay)
  | .readClock worker task delay =>
      some (state, .inboundPush worker
        (.addTimer (deadlineAfter state.clock delay) task) true)
  | .localSpace worker task =>
      some (state,
        if IOWorker.maxLocal (config.io worker) -
            (state.ioWorkers worker).localDq.length ≠ 0 then
          .localPush worker task
        else .microPush task)
  | .localPush worker task =>
      let fields := state.ioWorkers worker
      if fields.localDq.length < IOWorker.maxLocal (config.io worker) then
        some (state.setWorker worker { fields with
          localDq := fields.localDq ++ [task] }, .idle)
      else
        -- The refused task is still in the argument and goes to `postIO`.
        some (state, .microPush task)
  | .computePush task =>
      match state.globalCompute.owner with
      | some _ => none
      | none =>
          some ({ state with
            globalCompute := { state.globalCompute with
              queue := { state.globalCompute.queue with
                q := state.globalCompute.queue.q ++ [task] } } }.record
                  (.computePooled task), .computeCount)
  | .computeCount =>
      some ({ state with
        globalCompute := { state.globalCompute with
          queue := { state.globalCompute.queue with
            approxSize := state.globalCompute.queue.approxSize + 1 } } },
        .computeNotify)
  | .computeNotify =>
      match waiter with
      | some worker =>
          if (state.computeWorkers worker).isWaiting then
            some (state.wakeCompute worker, .idle)
          else none
      | none =>
          if ∃ worker, (state.computeWorkers worker).isWaiting then none
          else some (state, .idle)
  | .exitExchange =>
      if state.exitRequested then some (state, .idle)
      else some ({ state with exitRequested := true }, .exitStopFrom 0)
  | .exitStop worker => some (state.stopWorker worker, .exitWake worker)
  | .exitWake worker =>
      some (state.notify worker, .exitStopFrom (worker.val + 1))
  | .computeStop worker =>
      some ({ state with
        computeWorkers := Function.update state.computeWorkers worker
          { state.computeWorkers worker with stopRequested := true } },
        .computeStopFrom (worker.val + 1))
  | .notifyAll =>
      some ({ state with
        computeWorkers := fun worker =>
          released (state.computeWorkers worker) }, .idle)

def rob (victim : Option (Fin workers)) :
    State Outside workers computers Task :=
  match victim with
  | none => state
  | some victim =>
      state.setWorker victim { state.ioWorkers victim with
        localDq := (state.ioWorkers victim).localDq.tail }

def startedBy (worker : Fin workers) :
    Option (Origin workers × Task) → List (Event workers computers Task)
  | none => []
  | some (origin, task) => [.started worker origin task]

def ioStep (config : Config workers computers) (worker : Fin workers)
    (choice : Choice workers) :
    Option (State Outside workers computers Task) :=
  ((state.ioWorkers worker).step (config.io worker) worker state.view
    choice).map fun outcome =>
      { (state.rob outcome.robbed).setWorker worker outcome.worker with
        globalMicro := outcome.globalMicro
        log := state.log ++ startedBy worker outcome.started }

def computeEvents (worker : Fin computers)
    (outcome : ComputeOutcome computers Task) :
    List (Event workers computers Task) :=
  (outcome.popped.map (Event.computePopped worker)).toList ++
    (outcome.started.map (Event.computeStarted worker)).toList

def computeWorkerStep (config : Config workers computers)
    (worker : Fin computers) :
    Option (State Outside workers computers Task) :=
  ((state.computeWorkers worker).step (config.computeBatchSize worker) worker
    state.exitRequested state.globalCompute).map fun outcome =>
      { state with
        globalCompute := outcome.pool
        computeWorkers :=
          Function.update state.computeWorkers worker outcome.worker
        log := state.log ++ computeEvents worker outcome }

theorem disturbed_setWorker {target : Fin workers}
    {fields : IOWorker workers Task}
    (disturbed : (state.ioWorkers target).Disturbed fields)
    (worker : Fin workers) :
    (state.ioWorkers worker).Disturbed
      ((state.setWorker target fields).ioWorkers worker) := by
  by_cases same : worker = target
  · rw [same]
    simpa [setWorker] using disturbed
  · simp only [setWorker, Function.update_of_ne same]
    exact .refl _

theorem callEffect_calls {config : Config workers computers}
    {waiter : Option (Fin computers)} {call next : Call workers computers Task}
    {changed : State Outside workers computers Task}
    (found : state.callEffect config waiter call = some (changed, next)) :
    changed.calls = state.calls := by
  cases call with
  | computeNotify =>
      simp only [callEffect] at found
      split at found <;> split at found <;> cases found <;> rfl
  | _ =>
      simp only [callEffect] at found
      grind [record, setWorker, notify, stopWorker]

theorem callEffect_disturbs {config : Config workers computers}
    {waiter : Option (Fin computers)} {call next : Call workers computers Task}
    {changed : State Outside workers computers Task}
    (found : state.callEffect config waiter call = some (changed, next))
    (worker : Fin workers) :
    (state.ioWorkers worker).Disturbed (changed.ioWorkers worker) := by
  cases call with
  | wakeIdle target | inboundWake target | exitWake target =>
      cases found
      apply state.disturbed_setWorker
      exact ⟨rfl, Nat.le_succ _, rfl, rfl, rfl, rfl, id⟩
  | stopOne target | exitStop target =>
      cases found
      apply state.disturbed_setWorker
      exact ⟨rfl, Nat.le_refl _, rfl, rfl, rfl, rfl, fun _ => rfl⟩
  | inboundPush target command wake | inboundCount target wake =>
      cases found
      apply state.disturbed_setWorker
      exact ⟨rfl, Nat.le_refl _, rfl, rfl, rfl, rfl, id⟩
  | localPush target task =>
      simp only [callEffect] at found
      split at found <;> cases found
      · apply state.disturbed_setWorker
        exact ⟨rfl, Nat.le_refl _, rfl, rfl, rfl, rfl, id⟩
      · exact .refl _
  | computeNotify =>
      simp only [callEffect] at found
      split at found <;> split at found <;> cases found <;> exact .refl _
  | computePush task | exitExchange =>
      simp only [callEffect] at found
      split at found <;> cases found <;> exact .refl _
  | idle => cases found
  | _ =>
      cases found
      exact .refl _

/-- The exit flag is set by one step only, and the call that takes it goes on
to stop the workers. -/
theorem callEffect_exitRequested {config : Config workers computers}
    {waiter : Option (Fin computers)} {call next : Call workers computers Task}
    {changed : State Outside workers computers Task}
    (found : state.callEffect config waiter call = some (changed, next)) :
    changed.exitRequested = state.exitRequested ∨
      changed.exitRequested = true ∧ next = .exitStopFrom 0 := by
  cases call with
  | exitExchange =>
      simp only [callEffect] at found
      split at found <;> cases found
      · exact .inl rfl
      · exact .inr ⟨rfl, rfl⟩
  | localPush target task | computePush task =>
      simp only [callEffect] at found
      split at found <;> cases found <;> exact .inl rfl
  | computeNotify =>
      simp only [callEffect] at found
      split at found <;> split at found <;> cases found <;> exact .inl rfl
  | idle => cases found
  | _ =>
      cases found
      exact .inl rfl

theorem callEffect_pool {config : Config workers computers}
    {waiter : Option (Fin computers)} {call next : Call workers computers Task}
    {changed : State Outside workers computers Task}
    (found : state.callEffect config waiter call = some (changed, next)) :
    changed.globalMicro.q = state.globalMicro.q ++ call.pooling := by
  cases call with
  | microPush task =>
      cases found
      rfl
  | localPush target task =>
      simp only [callEffect] at found
      split at found <;> cases found <;> exact (List.append_nil _).symm
  | computeNotify =>
      simp only [callEffect] at found
      split at found <;> split at found <;> cases found <;>
        exact (List.append_nil _).symm
  | computePush task | exitExchange =>
      simp only [callEffect] at found
      split at found <;> cases found <;> exact (List.append_nil _).symm
  | idle => cases found
  | _ =>
      cases found
      exact (List.append_nil _).symm

theorem rob_ioWorkers (victim : Option (Fin workers)) (worker : Fin workers) :
    (state.rob victim).ioWorkers worker =
      { state.ioWorkers worker with
        localDq :=
          if victim = some worker then (state.ioWorkers worker).localDq.tail
          else (state.ioWorkers worker).localDq } := by
  cases victim with
  | none => simp [rob]
  | some victim =>
      by_cases same : worker = victim
      · simp [rob, setWorker, same]
      · simp [rob, setWorker, same, Ne.symm same]

@[simp] theorem rob_calls (victim : Option (Fin workers)) :
    (state.rob victim).calls = state.calls := by
  cases victim <;> rfl

@[simp] theorem rob_exitRequested (victim : Option (Fin workers)) :
    (state.rob victim).exitRequested = state.exitRequested := by
  cases victim <;> rfl

theorem ioStep_cases {state after : State Outside workers computers Task}
    {config : Config workers computers}
    {worker : Fin workers} {choice : Choice workers}
    (stepped : state.ioStep config worker choice = some after) :
    ∃ outcome, (state.ioWorkers worker).step (config.io worker) worker
        state.view choice = some outcome ∧
      after = { (state.rob outcome.robbed).setWorker worker outcome.worker with
        globalMicro := outcome.globalMicro
        log := state.log ++ startedBy worker outcome.started } := by
  obtain ⟨outcome, found, same⟩ := Option.map_eq_some_iff.mp stepped
  exact ⟨outcome, found, same.symm⟩

variable [DecidableEq Outside]

def setCall (thread : Thread Outside workers computers)
    (call : Call workers computers Task) :
    State Outside workers computers Task :=
  { state with calls := Function.update state.calls thread call }

def begin (thread : Thread Outside workers computers)
    (request : Request workers Task) :
    State Outside workers computers Task :=
  { state.setCall thread (state.enter thread request).1 with
    log := state.log ++
      ((state.enter thread request).2.map Event.submitted).toList }

def callStep (config : Config workers computers)
    (thread : Thread Outside workers computers)
    (waiter : Option (Fin computers)) :
    Option (State Outside workers computers Task) :=
  (state.callEffect config waiter (state.calls thread)).map fun effect =>
    effect.1.setCall thread effect.2

def step (config : Config workers computers) :
    Label Outside workers computers Task →
      Option (State Outside workers computers Task)
  | .call thread request =>
      match state.calls thread with
      | .idle =>
          if state.mayCall thread request then
            some (state.begin thread request)
          else none
      | _ => none
  | .advance thread waiter => state.callStep config thread waiter
  -- A worker's loop goes on when the call made on its thread has returned.
  | .io worker choice =>
      match state.calls (.io worker) with
      | .idle => state.ioStep config worker choice
      | _ => none
  | .compute worker =>
      match state.calls (.compute worker) with
      | .idle => state.computeWorkerStep config worker
      | _ => none
  | .tick nanos => some { state with clock := state.clock + nanos }

end State

def machine (Outside : Type) [DecidableEq Outside]
    {workers computers : Nat} (Task : Type)
    (config : Config workers computers) :
    System (State Outside workers computers Task)
      (Label Outside workers computers Task) where
  initial := fun state => state = initialState
  step := fun state label => state.step config label

end Steps

end RopHive.Schedule
