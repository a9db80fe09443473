import Mathlib.Algebra.BigOperators.Ring.Finset
import Mathlib.Data.List.Perm.Basic
import RopHive.Schedule.Shutdown

namespace RopHive.Schedule

open Transition

/-! Where the accepted tasks are.  Every task that a call has taken sits in a
queue, in a local variable of a worker, in the argument of a call that has not
yet queued it, or in the log of started tasks. -/

section Held

variable {workers computers : Nat} {Task : Type}

def Haul.held : Haul workers Task → List Task
  | .harvest rest => rest
  | .steal _ _ _ _ => []

def Errand.held : Errand workers Task → List Task
  | .inline haul => haul.held
  | _ => []

def Site.held : Site workers Task → List Task
  | .task errand => errand.held
  | _ => []

/-- The tasks in the local variables of a worker's loop. -/
def IOPoint.held : IOPoint workers Task → List Task
  | .checkStop site | .checkExit site => site.held
  | .drainCount commands | .draining commands =>
      commands.flatMap InboundCommand.tasks
  | .running errand => errand.held
  | .harvestCount batch => batch
  | .offerSpace haul task | .offerPush haul task => task :: haul.held
  | _ => []

/-- The task in the argument of a call. -/
def Call.held : Call workers computers Task → List Task
  | .microPush task | .readFirst _ _ task _ | .readSecond _ _ _ task _
  | .readClock _ task _ | .localSpace _ task | .localPush _ task => [task]
  | .inboundPush _ command _ => command.tasks
  | _ => []

@[simp] theorem held_haulNext (haul : Haul workers Task) :
    haul.next.held = haul.held := by
  fun_cases Haul.next haul <;> rfl

@[simp] theorem held_errandNext (errand : Errand workers Task) :
    errand.next.held = errand.held := by
  cases errand with
  | inline haul => exact held_haulNext haul
  | _ => rfl

@[simp] theorem held_done (errand : Errand workers Task) :
    errand.done.held = errand.held := by
  fun_cases Errand.done errand
  · exact held_haulNext _
  · rfl

@[simp] theorem held_onward (site : Site workers Task) :
    site.onward.held = site.held := by
  cases site with
  | task errand => exact held_errandNext errand
  | _ => rfl

/-- The worker that `stealOnce` is taking tasks from. -/
def Haul.victim : Haul workers Task → Option (Fin workers)
  | .harvest _ => none
  | .steal _ victim _ _ => some victim

def Errand.victim : Errand workers Task → Option (Fin workers)
  | .inline haul => haul.victim
  | _ => none

def Site.victim : Site workers Task → Option (Fin workers)
  | .task errand => errand.victim
  | _ => none

def IOPoint.victim : IOPoint workers Task → Option (Fin workers)
  | .checkStop site | .checkExit site => site.victim
  | .running errand => errand.victim
  | .offerSpace haul _ | .offerPush haul _ => haul.victim
  | .stealSize _ victim | .stealTake _ victim _ _ => some victim
  | _ => none

theorem victim_haulNext (haul : Haul workers Task) :
    haul.next.victim = none ∨ haul.next.victim = haul.victim := by
  fun_cases Haul.next haul <;> simp [IOPoint.victim, Haul.victim, Site.victim]

theorem victim_errandNext (errand : Errand workers Task) :
    errand.next.victim = none ∨ errand.next.victim = errand.victim := by
  cases errand with
  | inline haul => exact victim_haulNext haul
  | _ => exact .inl rfl

theorem victim_done (errand : Errand workers Task) :
    errand.done.victim = none ∨ errand.done.victim = errand.victim := by
  fun_cases Errand.done errand
  · exact victim_haulNext _
  · exact .inr rfl

theorem victim_onward (site : Site workers Task) :
    site.onward.victim = none ∨ site.onward.victim = site.victim := by
  cases site with
  | task errand => exact victim_errandNext errand
  | _ => exact .inl rfl

theorem victim_onStop (site : Site workers Task) :
    site.onStop.victim = none := by
  cases site with
  | task errand => cases errand <;> rfl
  | _ => rfl

end Held

/-- The queues of a worker, its local variables included. -/
inductive Shelf where
  | inbound
  | privateQueue
  | timers
  | localDq
  | held
  deriving DecidableEq

instance : Fintype Shelf where
  elems := {.inbound, .privateQueue, .timers, .localDq, .held}
  complete := by
    intro shelf
    cases shelf <;> decide

namespace IOWorker

variable {workers : Nat} {Task : Type}

def shelf (worker : IOWorker workers Task) : Shelf → List Task
  | .inbound => worker.inbound.q.flatMap InboundCommand.tasks
  | .privateQueue => worker.privateQueue
  | .timers => worker.timers.map TimerTask.task
  | .localDq => worker.localDq
  | .held => worker.point.held

variable [DecidableEq Task]

def count (task : Task) (worker : IOWorker workers Task) : Int :=
  ((worker.inbound.q.flatMap InboundCommand.tasks).count task +
    worker.privateQueue.count task +
    (worker.timers.map TimerTask.task).count task +
    worker.localDq.count task + worker.point.held.count task : Nat)

variable {options : Options} {self : Fin workers} {view : View workers Task}
  {worker : IOWorker workers Task} {choice : Choice workers}
  {outcome : Outcome workers Task}

def robbedCount (task : Task) (view : View workers Task)
    (outcome : Outcome workers Task) : Int :=
  match outcome.robbed with
  | none => 0
  | some victim => ((view.peerDq victim).head?.toList.count task : Nat)

def startedCount (task : Task) (outcome : Outcome workers Task) : Int :=
  match outcome.started with
  | none => 0
  | some (_, started) => if started = task then 1 else 0

/-- A step that finds both flags clear moves tasks between the pool, another
worker's deque, the worker's own shelves and the log, and drops none. -/
theorem step_count (task : Task) (unstopped : worker.stopRequested = false)
    (running : view.exitRequested = false)
    (stepped : worker.step options self view choice = some outcome) :
    (outcome.globalMicro.q.count task : Int) + outcome.worker.count task +
        startedCount task outcome =
      view.globalMicro.q.count task + worker.count task +
        robbedCount task view outcome := by
  cases point : worker.point with
  | draining commands =>
      cases commands with
      | nil =>
          simp only [step, point] at stepped
          cases stepped
          simp [goto, count, robbedCount, startedCount, IOPoint.held, point]
      | cons command commands =>
          simp only [step, point] at stepped
          cases stepped
          cases command <;>
            simp [goto, count, robbedCount, startedCount, IOPoint.held, point,
              accept, InboundCommand.tasks, List.count_cons] <;> omega
  | privateNext =>
      simp only [step, point] at stepped
      split at stepped <;> cases stepped
      · simp [goto, count, robbedCount, startedCount, IOPoint.held, point]
      · next first rest queued =>
          simp only [start, count, robbedCount, startedCount, IOPoint.held,
            Errand.held, point, queued, List.count_cons, beq_iff_eq]
          split <;> push_cast <;> omega
  | timersNext now =>
      simp only [step, point] at stepped
      split at stepped
      · next index =>
          split at stepped
          · cases stepped
          · next timer found =>
              split at stepped <;> cases stepped
              have inside := List.getElem?_eq_some_iff.mp found
              obtain ⟨bound, same⟩ := inside
              have perm := ((List.getElem_cons_eraseIdx_perm bound).map
                TimerTask.task).count_eq task
              simp only [List.map_cons, List.count_cons, same, beq_iff_eq]
                at perm
              simp only [start, count, robbedCount, startedCount, IOPoint.held,
                Errand.held, point, ← perm]
              split <;> push_cast <;> omega
      · split at stepped <;> cases stepped
        simp [goto, count, robbedCount, startedCount, IOPoint.held, point,
          Site.held]
  | localPop ran =>
      simp only [step, point] at stepped
      split at stepped
      · next last found =>
          split at stepped <;> cases stepped
          · have split := List.dropLast_append_getLast? last found
            simp only [start, count, robbedCount, startedCount, IOPoint.held,
              Errand.held, point]
            rw [← split, List.dropLast_concat, List.count_append,
              List.count_singleton]
            simp only [beq_iff_eq]
            split <;> push_cast <;> omega
          · simp only [goto, count, robbedCount, startedCount]
            split <;> simp [IOPoint.held, point, Site.held]
      · cases stepped
        simp only [goto, count, robbedCount, startedCount]
        split <;> simp [IOPoint.held, point, Site.held]
  | harvestPop =>
      simp only [step, point] at stepped
      split at stepped <;> cases stepped
      · simp only [goto, count, robbedCount, startedCount, stealOnce]
        split <;> simp [IOPoint.held, point, Site.held]
      · have parts := congrArg (List.count task) (List.take_append_drop
          options.globalBatchSize view.globalMicro.q)
        rw [List.count_append] at parts
        simp only [goto, count, robbedCount, startedCount, IOPoint.held, point]
        simp only [← parts, List.count_nil]
        push_cast
        omega
  | harvestCount batch =>
      simp only [step, point] at stepped
      cases stepped
      simp only [goto, count, robbedCount, startedCount, held_haulNext, point]
      simp only [IOPoint.held, Haul.held]
  | offerSpace haul offered =>
      simp only [step, point] at stepped
      split at stepped <;> cases stepped
      · simp [goto, count, robbedCount, startedCount, IOPoint.held, point]
      · simp only [start, count, robbedCount, startedCount, IOPoint.held,
          Errand.held, point, List.count_cons, beq_iff_eq]
        split <;> push_cast <;> omega
  | offerPush haul offered =>
      simp only [step, point] at stepped
      split at stepped <;> cases stepped
      · simp only [goto, count, robbedCount, startedCount, held_haulNext,
          List.count_append, point]
        simp only [IOPoint.held, List.count_cons, List.count_nil]
        push_cast
        omega
      · simp only [start, count, robbedCount, startedCount, IOPoint.held,
          Errand.held, point, List.count_cons, beq_iff_eq]
        split <;> push_cast <;> omega
  | stealPick attempt =>
      simp only [step, point] at stepped
      split at stepped
      · split at stepped <;> cases stepped
        simp only [goto, count, robbedCount, startedCount]
        split <;> simp [IOPoint.held, point]
      · cases stepped
        simp [goto, count, robbedCount, startedCount, IOPoint.held, point,
          Site.held]
  | stealSize attempt victim =>
      simp only [step, point] at stepped
      cases stepped
      simp only [goto, count, robbedCount, startedCount]
      split
      · simp [IOPoint.held, point]
      · simp only [held_haulNext, point]
        simp [IOPoint.held, Haul.held]
  | stealTake attempt victim left stolen =>
      simp only [step, point] at stepped
      split at stepped <;> cases stepped
      · simp only [goto, count, robbedCount, startedCount, held_haulNext,
          point]
        simp [IOPoint.held, Haul.held]
      · next first rest found =>
          simp only [goto, count, robbedCount, startedCount, IOPoint.held,
            Haul.held, point, found, List.head?_cons, Option.toList_some,
            List.count_nil]
          push_cast
          omega
  | _ =>
      simp only [step, point] at stepped
      grind -linarith [goto, start, block, IOPoint.held, Site.held, held_done,
        held_onward, count, robbedCount, startedCount]

omit [DecidableEq Task] in
theorem step_victim (other : worker.point.victim ≠ some self)
    (stepped : worker.step options self view choice = some outcome) :
    outcome.worker.point.victim ≠ some self ∧ outcome.robbed ≠ some self := by
  cases point : worker.point with
  | _ =>
      simp only [step, point] at stepped
      grind -linarith [goto, start, block, stealOnce, IOPoint.victim,
        Site.victim, Errand.victim, Haul.victim, victim_haulNext, victim_done,
        victim_onward, victim_onStop]

omit [DecidableEq Task] in
theorem step_stopRequested
    (stepped : worker.step options self view choice = some outcome)
    (unstopped : outcome.worker.stopRequested = false) :
    worker.stopRequested = false := by
  cases point : worker.point with
  | draining commands =>
      cases commands with
      | nil =>
          simp only [step, point] at stepped
          cases stepped
          exact unstopped
      | cons command commands =>
          simp only [step, point] at stepped
          cases stepped
          cases command with
          | stopWorker => cases unstopped
          | _ => exact unstopped
  | _ =>
      simp only [step, point] at stepped
      grind -linarith [goto, start]

end IOWorker

inductive Place (Outside : Type) (workers computers : Nat) where
  | globalPool
  | shelf (worker : Fin workers) (shelf : Shelf)
  | argument (thread : Thread Outside workers computers)
  | started
  deriving DecidableEq

def Place.equiv {Outside : Type} {workers computers : Nat} :
    Unit ⊕ (Fin workers × Shelf) ⊕ Thread Outside workers computers ⊕ Unit ≃
      Place Outside workers computers where
  toFun
    | .inl _ => .globalPool
    | .inr (.inl (worker, kind)) => .shelf worker kind
    | .inr (.inr (.inl thread)) => .argument thread
    | .inr (.inr (.inr _)) => .started
  invFun
    | .globalPool => .inl ()
    | .shelf worker kind => .inr (.inl (worker, kind))
    | .argument thread => .inr (.inr (.inl thread))
    | .started => .inr (.inr (.inr ()))
  left_inv := by rintro (_ | _ | _ | _) <;> rfl
  right_inv := by rintro (_ | _ | _ | _) <;> rfl

instance {Outside : Type} {workers computers : Nat} [Fintype Outside] :
    Fintype (Place Outside workers computers) :=
  Fintype.ofEquiv _ Place.equiv

section Places

variable {Outside : Type} {workers computers : Nat} {Task : Type}

def Event.submitted? : Event workers computers Task → Option Task
  | .submitted task => some task
  | _ => none

def Event.started? : Event workers computers Task → Option Task
  | .started _ _ task => some task
  | _ => none

namespace State

variable (state : State Outside workers computers Task)

/-- The tasks that the calls have taken. -/
def accepted : List Task := state.log.filterMap Event.submitted?

def startedTasks : List Task := state.log.filterMap Event.started?

def tasksAt : Place Outside workers computers → List Task
  | .globalPool => state.globalMicro.q
  | .shelf worker shelf => (state.ioWorkers worker).shelf shelf
  | .argument thread => (state.calls thread).held
  | .started => state.startedTasks

def Running : Prop :=
  state.exitRequested = false ∧
    ∀ worker, (state.ioWorkers worker).stopRequested = false

def ThievesApart : Prop :=
  ∀ worker, (state.ioWorkers worker).point.victim ≠ some worker

variable [Fintype Outside] [DecidableEq Task]

/-- How often the task is anywhere, less how often it was accepted. -/
def surplus (task : Task) : Int :=
  state.globalMicro.q.count task +
    total (IOWorker.count task) state.ioWorkers +
    total (fun call => (call.held.count task : Int)) state.calls +
    state.startedTasks.count task - state.accepted.count task

theorem sum_tasksAt (task : Task) :
    ((∑ place, (state.tasksAt place).count task : Nat) : Int) =
      state.surplus task + state.accepted.count task := by
  rw [← Place.equiv.sum_comp, Fintype.sum_sum_type, Fintype.sum_sum_type,
    Fintype.sum_sum_type, Fintype.sum_prod_type]
  have shelves (worker : Fin workers) :
      ((∑ shelf, ((state.ioWorkers worker).shelf shelf).count task : Nat) :
        Int) = (state.ioWorkers worker).count task := by
    simp [IOWorker.count, IOWorker.shelf, Finset.univ, Fintype.elems,
      Finset.sum_insert]
    ring
  simp only [Place.equiv, Equiv.coe_fn_mk, tasksAt, surplus, total]
  push_cast at shelves ⊢
  simp only [shelves, Finset.univ_unique, Finset.sum_singleton]
  ring

end State

variable {config : Config workers computers}
  {state after : State Outside workers computers Task}

theorem held_scanFrom (index : Nat) :
    (Call.scanFrom index : Call workers computers Task).held = [] := by
  fun_cases Call.scanFrom index <;> rfl

theorem held_computeStopFrom (index : Nat) :
    (Call.computeStopFrom index : Call workers computers Task).held = [] := by
  fun_cases Call.computeStopFrom index <;> rfl

theorem held_exitStopFrom (index : Nat) :
    (Call.exitStopFrom index : Call workers computers Task).held = [] := by
  fun_cases Call.exitStopFrom index
  · rfl
  · exact held_computeStopFrom 0

theorem held_enter (state : State Outside workers computers Task)
    (thread : Thread Outside workers computers)
    (request : Request workers Task) :
    (state.enter thread request).1.held =
      (state.enter thread request).2.toList := by
  fun_cases State.enter state thread request <;>
    simp only [*] <;> grind -linarith [Call.held, InboundCommand.tasks]

theorem callEffect_log {waiter : Option (Fin computers)}
    {call next : Call workers computers Task}
    {changed : State Outside workers computers Task}
    (found : state.callEffect config waiter call = some (changed, next)) :
    changed.accepted = state.accepted ∧
      changed.startedTasks = state.startedTasks := by
  cases call with
  | microPush task | inboundPush target command wake =>
      cases found
      simp [State.record, State.accepted, State.startedTasks,
        List.filterMap_append, Event.submitted?, Event.started?,
        State.setWorker]
  | computePush task =>
      simp only [State.callEffect] at found
      split at found <;> cases found
      simp [State.record, State.accepted, State.startedTasks,
        List.filterMap_append, Event.submitted?, Event.started?]
  | localPush target task | exitExchange =>
      simp only [State.callEffect] at found
      split at found <;> cases found <;> exact ⟨rfl, rfl⟩
  | computeNotify =>
      simp only [State.callEffect] at found
      split at found <;> split at found <;> cases found <;> exact ⟨rfl, rfl⟩
  | idle => cases found
  | _ =>
      cases found
      exact ⟨rfl, rfl⟩

section Counting

variable [DecidableEq Task]

theorem callEffect_count (task : Task) {waiter : Option (Fin computers)}
    {call next : Call workers computers Task}
    {changed : State Outside workers computers Task}
    (found : state.callEffect config waiter call = some (changed, next)) :
    (changed.globalMicro.q.count task : Int) +
        total (IOWorker.count task) changed.ioWorkers + next.held.count task =
      state.globalMicro.q.count task +
        total (IOWorker.count task) state.ioWorkers + call.held.count task := by
  cases call with
  | microPush pushed =>
      cases found
      simp only [State.record, Call.held, List.count_append, List.count_nil]
      push_cast
      omega
  | microCount =>
      cases found
      simp only [held_scanFrom]
      rfl
  | scan target =>
      cases found
      split <;> simp [held_scanFrom] <;> simp [Call.held]
  | inboundPush target command wake =>
      cases found
      simp only [State.record, State.setWorker, total_update, IOWorker.count,
        Call.held, List.flatMap_append, List.flatMap_cons, List.flatMap_nil,
        List.append_nil, List.count_append, List.count_nil]
      push_cast
      omega
  | inboundCount target wake =>
      cases found
      simp only [State.setWorker, total_update, IOWorker.count]
      split <;> simp [Call.held]
  | localPush target pushed =>
      simp only [State.callEffect] at found
      split at found <;> cases found
      · simp only [State.setWorker, total_update, IOWorker.count, Call.held,
          List.count_append, List.count_nil]
        push_cast
        omega
      · rfl
  | localSpace target pushed =>
      cases found
      split <;> simp [Call.held]
  | wakeIdle target | inboundWake target | stopOne target | exitStop target =>
      cases found
      simp [State.notify, State.stopWorker, State.setWorker, total_update,
        IOWorker.count, Call.held]
  | exitWake target =>
      cases found
      simp [State.notify, State.setWorker, total_update, IOWorker.count,
        held_exitStopFrom]
      rfl
  | computeStop target =>
      cases found
      simp only [held_computeStopFrom]
      rfl
  | exitExchange =>
      simp only [State.callEffect] at found
      split at found <;> cases found
      · rfl
      · simp only [held_exitStopFrom]
        rfl
  | computePush pushed =>
      simp only [State.callEffect] at found
      split at found <;> cases found
      rfl
  | computeNotify =>
      simp only [State.callEffect] at found
      split at found <;> split at found <;> cases found <;> rfl
  | readClock target pushed delay =>
      cases found
      simp [Call.held, InboundCommand.tasks]
  | idle => cases found
  | _ =>
      cases found
      rfl

theorem rob_count (task : Task) (victim : Option (Fin workers)) :
    total (IOWorker.count task) (state.rob victim).ioWorkers =
      total (IOWorker.count task) state.ioWorkers -
        match victim with
        | none => 0
        | some victim =>
            ((state.ioWorkers victim).localDq.head?.toList.count task : Nat) := by
  cases victim with
  | none => simp [State.rob]
  | some victim =>
      simp only [State.rob, State.setWorker, total_update, IOWorker.count]
      cases (state.ioWorkers victim).localDq with
      | nil => simp
      | cons first rest =>
          simp [List.count_cons]
          omega

end Counting

namespace State.Running

variable [DecidableEq Outside]

theorem before {label : Label Outside workers computers Task}
    (running : after.Running) (stepped : state.step config label = some after) :
    state.Running := by
  obtain ⟨exitless, unstopped⟩ := running
  cases label with
  | call thread request =>
      simp only [State.step] at stepped
      split at stepped
      · split at stepped <;> cases stepped
        exact ⟨exitless, unstopped⟩
      · cases stepped
  | advance thread waiter =>
      obtain ⟨⟨changed, next⟩, found, rfl⟩ := Option.map_eq_some_iff.mp stepped
      constructor
      · rcases state.callEffect_exitRequested found with same | ⟨exits, _⟩
        · exact same ▸ exitless
        · rw [State.setCall, exits] at exitless
          cases exitless
      · intro worker
        by_contra stopped
        have stays := (state.callEffect_disturbs found worker).stopRequested
          (by simpa using stopped)
        exact absurd ((unstopped worker).symm.trans stays) (by decide)
  | io worker choice =>
      simp only [State.step] at stepped
      split at stepped
      · obtain ⟨outcome, found, rfl⟩ := State.ioStep_cases stepped
        refine ⟨by simpa [State.setWorker] using exitless, fun other => ?_⟩
        by_cases same : other = worker
        · subst same
          exact IOWorker.step_stopRequested found
            (by simpa [State.setWorker] using unstopped other)
        · simpa [State.setWorker, same, State.rob_ioWorkers] using
            unstopped other
      · cases stepped
  | compute worker =>
      simp only [State.step] at stepped
      split at stepped
      · obtain ⟨outcome, _, rfl⟩ := Option.map_eq_some_iff.mp stepped
        exact ⟨exitless, unstopped⟩
      · cases stepped
  | tick nanos =>
      cases stepped
      exact ⟨exitless, unstopped⟩

end State.Running

namespace State.ThievesApart

variable [DecidableEq Outside]

theorem step {label : Label Outside workers computers Task}
    (apart : state.ThievesApart)
    (stepped : state.step config label = some after) : after.ThievesApart := by
  intro other
  cases label with
  | call thread request =>
      simp only [State.step] at stepped
      split at stepped
      · split at stepped <;> cases stepped
        exact apart other
      · cases stepped
  | advance thread waiter =>
      obtain ⟨⟨changed, next⟩, found, rfl⟩ := Option.map_eq_some_iff.mp stepped
      simp only [State.setCall, (state.callEffect_disturbs found other).point]
      exact apart other
  | io worker choice =>
      simp only [State.step] at stepped
      split at stepped
      · obtain ⟨outcome, found, rfl⟩ := State.ioStep_cases stepped
        by_cases same : other = worker
        · subst same
          simpa [State.setWorker] using
            (IOWorker.step_victim (apart other) found).1
        · simpa [State.setWorker, same, State.rob_ioWorkers] using apart other
      · cases stepped
  | compute worker =>
      simp only [State.step] at stepped
      split at stepped
      · obtain ⟨outcome, _, rfl⟩ := Option.map_eq_some_iff.mp stepped
        exact apart other
      · cases stepped
  | tick nanos =>
      cases stepped
      exact apart other

end State.ThievesApart

section Surplus

variable [DecidableEq Outside] [Fintype Outside] [DecidableEq Task]

omit [DecidableEq Outside] in
theorem surplus_ioStep (task : Task) {worker : Fin workers}
    {choice : Choice workers} (running : state.Running)
    (apart : state.ThievesApart)
    (stepped : state.ioStep config worker choice = some after) :
    after.surplus task = state.surplus task := by
  obtain ⟨outcome, found, rfl⟩ := State.ioStep_cases stepped
  have moved := IOWorker.step_count task (running.2 worker) running.1 found
  have notSelf := (IOWorker.step_victim (apart worker) found).2
  have own : ((state.rob outcome.robbed).ioWorkers worker).count task =
      (state.ioWorkers worker).count task := by
    simp [State.rob_ioWorkers, if_neg notSelf]
  have quiet : (State.startedBy worker outcome.started :
      List (Event workers computers Task)).filterMap Event.submitted? = [] := by
    unfold State.startedBy
    split <;> rfl
  have begun : (((State.startedBy worker outcome.started :
      List (Event workers computers Task)).filterMap
        Event.started?).count task : Int) =
      IOWorker.startedCount task outcome := by
    cases started : outcome.started <;>
      simp [State.startedBy, IOWorker.startedCount, started, Event.started?,
        List.count_singleton]
  simp only [State.surplus, State.setWorker, total_update, own, rob_count,
    State.rob_calls, State.accepted, State.startedTasks,
    List.filterMap_append, List.count_append, quiet, List.append_nil]
  push_cast [begun]
  simp only [State.view, IOWorker.robbedCount] at moved
  omega

theorem surplus_step (task : Task)
    {label : Label Outside workers computers Task} (running : state.Running)
    (apart : state.ThievesApart)
    (stepped : state.step config label = some after) :
    after.surplus task = state.surplus task := by
  cases label with
  | call thread request =>
      simp only [State.step] at stepped
      split at stepped
      · next idle =>
          split at stepped <;> cases stepped
          -- The task enters the log and the call's argument at once.
          have first := held_enter state thread request
          simp only [State.surplus, State.begin, State.setCall, total_update,
            first, idle, State.accepted, State.startedTasks,
            List.filterMap_append, List.count_append]
          cases (state.enter thread request).2 with
          | none => simp [Call.held]
          | some taken =>
              simp [Call.held, List.filterMap_cons, Event.submitted?,
                Event.started?]
              omega
      · cases stepped
  | advance thread waiter =>
      obtain ⟨⟨changed, next⟩, found, rfl⟩ := Option.map_eq_some_iff.mp stepped
      have moved := callEffect_count task found
      obtain ⟨accepted, started⟩ := callEffect_log found
      simp only [State.surplus, State.setCall, total_update,
        state.callEffect_calls found]
      simp only [State.accepted, State.startedTasks] at accepted started ⊢
      rw [accepted, started]
      omega
  | io worker choice =>
      simp only [State.step] at stepped
      split at stepped
      · exact surplus_ioStep task running apart stepped
      · cases stepped
  | compute worker =>
      simp only [State.step] at stepped
      split at stepped
      · obtain ⟨outcome, _, rfl⟩ := Option.map_eq_some_iff.mp stepped
        have quiet : (State.computeEvents worker outcome :
            List (Event workers computers Task)).filterMap
              Event.submitted? = [] := by
          cases popped : outcome.popped <;> cases started : outcome.started <;>
            simp [State.computeEvents, popped, started, Event.submitted?]
        have idle : (State.computeEvents worker outcome :
            List (Event workers computers Task)).filterMap
              Event.started? = [] := by
          cases popped : outcome.popped <;> cases started : outcome.started <;>
            simp [State.computeEvents, popped, started, Event.started?]
        simp only [State.surplus, State.accepted, State.startedTasks,
          List.filterMap_append, quiet, idle, List.append_nil]
      · cases stepped
  | tick nanos =>
      cases stepped
      rfl

theorem surplus_of_reachable (reached : (machine Outside Task config).Reachable
    state) : state.ThievesApart ∧
      (state.Running → ∀ task, state.surplus task = 0) := by
  refine reached.invariant (fun state => state.ThievesApart ∧
    (state.Running → ∀ task, state.surplus task = 0)) ?_ ?_
  · rintro _ rfl
    refine ⟨fun worker => by simp [initialState, IOPoint.victim], ?_⟩
    intro _ task
    simp [State.surplus, initialState, total, IOWorker.count, IOPoint.held,
      Call.held, State.accepted, State.startedTasks]
  · rintro state label after ⟨apart, balanced⟩ stepped
    refine ⟨apart.step stepped, fun running task => ?_⟩
    have runningBefore := running.before stepped
    rw [surplus_step task runningBefore apart stepped]
    exact balanced runningBefore task

/-- What conservation means while nothing has been stopped. -/
structure Conserved (state : State Outside workers computers Task) : Prop where
  /-- Each task is found as often as it was accepted. -/
  everywhere : ∀ task,
    ∑ place, (state.tasksAt place).count task = state.accepted.count task
  /-- A task accepted once is in one place, once. -/
  onePlace : ∀ task, state.accepted.count task = 1 →
    ∃ place, (state.tasksAt place).count task = 1 ∧
      ∀ other, other ≠ place → task ∉ state.tasksAt other
  /-- No acceptance is started twice. -/
  startedOnce : ∀ task,
    state.startedTasks.count task ≤ state.accepted.count task

/-- In every reachable state with no stop or exit requested, every accepted
task is in exactly one place and is started at most once, whatever the options
of the workers. -/
theorem tasks_conserved (config : Config workers computers)
    (state : State Outside workers computers Task)
    (reached : (machine Outside Task config).Reachable state)
    (running : state.Running) : Conserved state := by
  have everywhere : ∀ task,
      ∑ place, (state.tasksAt place).count task =
        state.accepted.count task := by
    intro task
    have sum := state.sum_tasksAt task
    rw [(surplus_of_reachable reached).2 running task] at sum
    omega
  refine ⟨everywhere, ?_, ?_⟩
  · intro task once
    have sum := (everywhere task).trans once
    obtain ⟨place, _, found⟩ := Finset.exists_ne_zero_of_sum_ne_zero
      (by rw [sum]; decide)
    rw [← Finset.add_sum_erase _ _ (Finset.mem_univ place)] at sum
    have elsewhere : ∑ other ∈ Finset.univ.erase place,
        (state.tasksAt other).count task = 0 := by omega
    refine ⟨place, by omega, fun other differs => ?_⟩
    exact List.count_eq_zero.mp (Finset.sum_eq_zero_iff.mp elsewhere other
      (Finset.mem_erase.mpr ⟨differs, Finset.mem_univ other⟩))
  · intro task
    rw [← everywhere task]
    exact Finset.single_le_sum
      (f := fun place => (state.tasksAt place).count task)
      (fun _ _ => Nat.zero_le _) (Finset.mem_univ Place.started)

end Surplus

end Places

/-- One task is posted, harvested, and run from the local deque in the
next round; it posts a second one, which is still in the pool. -/
def postFromTask : List (Label Unit 1 0 Nat) :=
  postOne 3 ++ List.replicate 42 (Label.io 0 .go) ++
    [Label.call (.io 0) (.postIo (some 6)), .advance (.io 0) none]

theorem tasks_conserved_postFromTask :
    ∃ state : State Unit 1 0 Nat,
      state.startedTasks = [5] ∧ state.globalMicro.q = [6] ∧
      Conserved state := by
  have run : ((machine Unit Nat loneWorker).replay initialState
      postFromTask).map (fun state => decide (
        state.startedTasks = [5] ∧ state.globalMicro.q = [6] ∧
        state.exitRequested = false ∧
        ∀ worker, (state.ioWorkers worker).stopRequested = false)) =
          some true := by decide +kernel
  obtain ⟨state, ends, found⟩ := Option.map_eq_some_iff.mp run
  obtain ⟨started, pooled, running⟩ := of_decide_eq_true found
  exact ⟨state, started, pooled, tasks_conserved loneWorker state
    (System.Reachable.replay postFromTask (.start rfl) ends) running⟩

end RopHive.Schedule
