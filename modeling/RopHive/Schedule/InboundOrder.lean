import RopHive.Schedule.DirectedPost
import RopHive.Schedule.EventLoop

namespace RopHive.Schedule

open Transition

/-! The way of a command from a locked push into `inbound_` through the drained
vector to the private queue or the timers of its worker. -/

section Commands

variable {workers computers : Nat} {Task : Type}

def InboundCommand.private? : InboundCommand Task → Option Task
  | .privateTask task => some task
  | _ => none

def InboundCommand.timer? : InboundCommand Task → Option (TimerTask Task)
  | .addTimer deadline task => some ⟨deadline, task⟩
  | _ => none

def privateTasks (commands : List (InboundCommand Task)) : List Task :=
  commands.filterMap InboundCommand.private?

def addedTimers (commands : List (InboundCommand Task)) :
    List (TimerTask Task) :=
  commands.filterMap InboundCommand.timer?

/-- The drained vector, where `drainInbound` works on it. -/
def IOPoint.commands : IOPoint workers Task → List (InboundCommand Task)
  | .drainCount commands | .draining commands => commands
  | _ => []

def Origin.isPrivate : Origin workers → Bool
  | .privateTask => true
  | _ => false

def startedPrivate (started : List (Origin workers × Task)) : List Task :=
  (started.filter fun entry => entry.1.isPrivate).map Prod.snd

def timerOf? : Origin workers × Task → Option (TimerTask Task)
  | (.timer deadline _, task) => some ⟨deadline, task⟩
  | _ => none

def startedTimers (started : List (Origin workers × Task)) :
    List (TimerTask Task) :=
  started.filterMap timerOf?

def Event.command? (target : Fin workers) :
    Event workers computers Task → Option (InboundCommand Task)
  | .enqueued worker command => if worker = target then some command else none
  | _ => none

def Event.startedOn? (target : Fin workers) :
    Event workers computers Task → Option (Origin workers × Task)
  | .started worker origin task =>
      if worker = target then some (origin, task) else none
  | _ => none

/-- A task that came from a deque or from the pool. -/
def Origin.isShared : Origin workers → Bool
  | .privateTask | .timer _ _ => false
  | _ => true

@[simp] theorem isShared_origin (haul : Haul workers Task) :
    haul.origin.isShared = true := by
  cases haul <;> rfl

@[simp] theorem startedPrivate_nil :
    startedPrivate ([] : List (Origin workers × Task)) = [] := rfl

@[simp] theorem startedTimers_nil :
    startedTimers ([] : List (Origin workers × Task)) = [] := rfl

@[simp] theorem startedPrivate_append
    (earlier later : List (Origin workers × Task)) :
    startedPrivate (earlier ++ later) =
      startedPrivate earlier ++ startedPrivate later := by
  simp [startedPrivate]

@[simp] theorem startedTimers_append
    (earlier later : List (Origin workers × Task)) :
    startedTimers (earlier ++ later) =
      startedTimers earlier ++ startedTimers later := by
  simp [startedTimers]

theorem started_of_isShared {started : Option (Origin workers × Task)}
    (shared : ∀ entry ∈ started, entry.1.isShared = true) :
    startedPrivate started.toList = [] ∧ startedTimers started.toList = [] := by
  cases started with
  | none => exact ⟨rfl, rfl⟩
  | some entry =>
      obtain ⟨origin, task⟩ := entry
      have isShared := shared _ rfl
      cases origin with
      | privateTask | timer deadline now => cases isShared
      | _ => exact ⟨rfl, rfl⟩

@[simp] theorem startedPrivate_private (task : Task) :
    startedPrivate [((.privateTask : Origin workers), task)] = [task] := rfl

@[simp] theorem startedTimers_private (task : Task) :
    startedTimers [((.privateTask : Origin workers), task)] = [] := rfl

@[simp] theorem startedPrivate_timer (deadline now : Int) (task : Task) :
    startedPrivate [((.timer deadline now : Origin workers), task)] = [] := rfl

@[simp] theorem startedTimers_timer (deadline now : Int) (task : Task) :
    startedTimers [((.timer deadline now : Origin workers), task)] =
      [⟨deadline, task⟩] := rfl

@[simp] theorem privateTasks_nil :
    privateTasks ([] : List (InboundCommand Task)) = [] := rfl

@[simp] theorem addedTimers_nil :
    addedTimers ([] : List (InboundCommand Task)) = [] := rfl

@[simp] theorem privateTasks_cons (command : InboundCommand Task)
    (rest : List (InboundCommand Task)) :
    privateTasks (command :: rest) =
      command.private?.toList ++ privateTasks rest := by
  cases command <;> rfl

@[simp] theorem addedTimers_cons (command : InboundCommand Task)
    (rest : List (InboundCommand Task)) :
    addedTimers (command :: rest) =
      command.timer?.toList ++ addedTimers rest := by
  cases command <;> rfl

@[simp] theorem privateTasks_append
    (earlier later : List (InboundCommand Task)) :
    privateTasks (earlier ++ later) =
      privateTasks earlier ++ privateTasks later := by
  simp [privateTasks]

@[simp] theorem addedTimers_append
    (earlier later : List (InboundCommand Task)) :
    addedTimers (earlier ++ later) =
      addedTimers earlier ++ addedTimers later := by
  simp [addedTimers]

theorem commands_of_swaps {point : IOPoint workers Task}
    (swaps : point.swaps) : point.commands = [] := by
  cases point with
  | drainSwap => rfl
  | _ => cases swaps

theorem commands_of_junction {point : IOPoint workers Task}
    (junction : point.junction) : point.commands = [] := by
  cases point with
  | drainCount commands | draining commands => cases junction
  | _ => rfl

/-- Inside `runPrivateTasks`. -/
def IOPoint.inPrivates : IOPoint workers Task → Bool
  | .privateNext | .running .privateTasks
  | .checkStop (.task .privateTasks)
  | .checkExit (.task .privateTasks) => true
  | _ => false

theorem IOPoint.inPrivates_cases {point : IOPoint workers Task}
    (inside : point.inPrivates) :
    point = .privateNext ∨ point = .running .privateTasks ∨
      point = .checkStop (.task .privateTasks) ∨
      point = .checkExit (.task .privateTasks) := by
  unfold IOPoint.inPrivates at inside
  split at inside
  · exact .inl rfl
  · exact .inr (.inl rfl)
  · exact .inr (.inr (.inl rfl))
  · exact .inr (.inr (.inr rfl))
  · cases inside

/-- Behind the swap of `drainInbound`, up to the return of `runPrivateTasks`. -/
def IOPoint.holdsPrivates : IOPoint workers Task → Bool
  | .drainCount _ | .draining _ => true
  | point => point.inPrivates

theorem IOPoint.holdsPrivates_cases {point : IOPoint workers Task}
    (holds : point.holdsPrivates) :
    (∃ commands, point = .drainCount commands ∨ point = .draining commands) ∨
      point.inPrivates := by
  unfold holdsPrivates at holds
  split at holds
  · exact .inl ⟨_, .inl rfl⟩
  · exact .inl ⟨_, .inr rfl⟩
  · exact .inr holds

theorem holdsPrivates_of_swaps {point : IOPoint workers Task}
    (swaps : point.swaps) : point.holdsPrivates = false := by
  cases point with
  | drainSwap => rfl
  | _ => cases swaps

theorem holdsPrivates_of_inPrivates {point : IOPoint workers Task}
    (inside : point.inPrivates) : point.holdsPrivates := by
  unfold IOPoint.holdsPrivates
  split
  · rfl
  · rfl
  · exact inside

/-- `runPrivateTasks` has returned. -/
def IOPoint.leftPrivates : IOPoint workers Task → Bool
  | .timersClock => true
  | _ => false

theorem holdsPrivates_haulNext (haul : Haul workers Task) :
    haul.next.holdsPrivates = false := by
  fun_cases Haul.next haul <;> rfl

end Commands

namespace IOWorker

variable {workers : Nat} {Task : Type} {options : Options}
  {self : Fin workers} {view : View workers Task}
  {worker : IOWorker workers Task} {choice : Choice workers}
  {outcome : Outcome workers Task}

def intake (worker : IOWorker workers Task) : List (InboundCommand Task) :=
  if worker.point.swaps then worker.inbound.q else worker.point.commands

/-- What a step does with the private queue, the timers and the drained
vector. -/
inductive Effect (worker : IOWorker workers Task) (choice : Choice workers)
    (outcome : Outcome workers Task) : Prop
  | quiet (queue : outcome.worker.privateQueue = worker.privateQueue)
      (timers : outcome.worker.timers = worker.timers)
      (count : outcome.worker.timerCount = worker.timerCount)
      (commands : outcome.worker.point.commands = worker.intake)
      (shared : ∀ entry ∈ outcome.started, entry.1.isShared = true)
  | accepted {command : InboundCommand Task}
      {rest : List (InboundCommand Task)}
      (point : worker.point = .draining (command :: rest))
      (same : outcome.worker =
        { worker.accept command with point := .draining rest })
      (started : outcome.started = none)
  | ownTask {task : Task} {rest : List Task}
      (point : worker.point = .privateNext)
      (queued : worker.privateQueue = task :: rest)
      (same : outcome.worker =
        { worker with privateQueue := rest, point := .running .privateTasks })
      (started : outcome.started = some (.privateTask, task))
  | timer {now : Int} {index : Nat} {timer : TimerTask Task}
      (point : worker.point = .timersNext now)
      (chosen : choice = .timer index)
      (found : worker.timers[index]? = some timer)
      (first : worker.earliest = some timer.deadline)
      (due : timer.deadline ≤ now)
      (same : outcome.worker =
        { worker with
          timers := worker.timers.eraseIdx index
          timerCount := worker.timerCount - 1
          point := .running (.expiredTimers now) })
      (started : outcome.started =
        some (.timer timer.deadline now, timer.task))

theorem shared_goto {point : IOPoint workers Task} :
    ∀ entry ∈ (goto view worker point).started, entry.1.isShared = true := by
  rintro entry ⟨⟩

theorem step_effect
    (stepped : worker.step options self view choice = some outcome) :
    worker.Effect choice outcome := by
  cases point : worker.point with
  | draining commands =>
      cases commands with
      | nil =>
          simp only [step, point] at stepped
          cases stepped
          exact .quiet rfl rfl rfl
            (by simp [goto, intake, point, IOPoint.swaps, IOPoint.commands])
            shared_goto
      | cons command rest =>
          simp only [step, point] at stepped
          cases stepped
          exact .accepted point rfl rfl
  | privateNext =>
      simp only [step, point] at stepped
      split at stepped <;> cases stepped
      · exact .quiet rfl rfl rfl
          (by simp [goto, intake, point, IOPoint.swaps, IOPoint.commands])
          shared_goto
      · next task rest queued => exact .ownTask point queued rfl rfl
  | timersNext now =>
      simp only [step, point] at stepped
      split at stepped
      · split at stepped
        · cases stepped
        · next index timer found =>
            split at stepped <;> cases stepped
            next allowed =>
              exact .timer point rfl found allowed.1 allowed.2 rfl rfl
      · split at stepped <;> cases stepped
        exact .quiet rfl rfl rfl
          (by simp [goto, intake, point, IOPoint.swaps, IOPoint.commands])
          shared_goto
  | checkExit site =>
      simp only [step, point] at stepped
      cases stepped
      refine .quiet rfl rfl rfl ?_ shared_goto
      rcases junction_onward site with rfl | junction
      · grind -linarith [goto, intake, IOPoint.swaps, IOPoint.commands,
          commands_of_junction, junction_onStop, Site.onward]
      · grind -linarith [goto, intake, IOPoint.swaps, IOPoint.commands,
          commands_of_junction, junction_onStop]
  | _ =>
      simp only [step, point] at stepped
      have quiet : outcome.worker.privateQueue = worker.privateQueue ∧
          outcome.worker.timers = worker.timers ∧
          outcome.worker.timerCount = worker.timerCount ∧
          outcome.worker.point.commands = worker.intake ∧
          ∀ entry ∈ outcome.started, entry.1.isShared = true := by
        grind -linarith [goto, start, block, stealOnce, intake, IOPoint.swaps,
          IOPoint.commands, commands_of_junction, junction_haulNext,
          junction_done, junction_onStop, isShared_origin, Origin.isShared]
      obtain ⟨queue, timers, count, commands, shared⟩ := quiet
      exact .quiet queue timers count commands shared

/-- A pass lasts from the swap to the return of `runPrivateTasks`. -/
theorem step_holdsPrivates
    (stepped : worker.step options self view choice = some outcome) :
    outcome.worker.point.holdsPrivates =
      ((worker.point.swaps || worker.point.holdsPrivates) &&
        !outcome.worker.point.leftPrivates) := by
  cases point : worker.point with
  | drainSwap =>
      simp only [step, point] at stepped
      split at stepped <;> cases stepped <;> rfl
  | draining commands =>
      cases commands <;> simp only [step, point] at stepped <;>
        cases stepped <;> rfl
  | privateNext =>
      simp only [step, point] at stepped
      split at stepped <;> cases stepped <;> rfl
  | running errand =>
      simp only [step, point] at stepped
      cases stepped
      cases errand with
      | inline haul =>
          cases haul with
          | harvest rest => rfl
          | steal attempt victim left stolen =>
              simp only [goto, Errand.done]
              rw [holdsPrivates_haulNext]
              rfl
      | _ => rfl
  | checkStop site =>
      simp only [step, point] at stepped
      cases stepped
      cases site with
      | task errand =>
          simp only [goto]
          split
          · cases errand <;> rfl
          · cases errand <;> rfl
      | _ =>
          simp only [goto]
          split <;> rfl
  | checkExit site =>
      simp only [step, point] at stepped
      cases stepped
      cases site with
      | task errand =>
          cases errand with
          | inline haul =>
              simp only [goto]
              split
              · rfl
              · simp only [Site.onward, Errand.next]
                rw [holdsPrivates_haulNext]
                rfl
          | _ =>
              simp only [goto]
              split <;> rfl
      | _ =>
          simp only [goto]
          split <;> rfl
  | _ =>
      simp only [step, point] at stepped
      grind -linarith [goto, start, block, stealOnce, IOPoint.swaps,
        IOPoint.holdsPrivates, IOPoint.inPrivates, IOPoint.leftPrivates,
        holdsPrivates_haulNext]

theorem step_private
    (stepped : worker.step options self view choice = some outcome) :
    startedPrivate outcome.started.toList ++ outcome.worker.privateQueue ++
        privateTasks outcome.worker.point.commands =
      worker.privateQueue ++ privateTasks worker.intake := by
  cases step_effect stepped with
  | quiet queue timers count commands shared =>
      rw [queue, commands, (started_of_isShared shared).1, List.nil_append]
  | @accepted command rest point same started =>
      rw [same, started]
      cases command <;>
        simp [accept, intake, point, IOPoint.swaps, IOPoint.commands,
          InboundCommand.private?]
  | ownTask point queued same started =>
      rw [same, started]
      simp [intake, point, IOPoint.swaps, IOPoint.commands, queued]
  | timer point chosen found first due same started =>
      rw [same, started]
      simp [intake, point, IOPoint.swaps, IOPoint.commands]

theorem step_timers
    (stepped : worker.step options self view choice = some outcome) :
    (startedTimers outcome.started.toList ++ outcome.worker.timers ++
        addedTimers outcome.worker.point.commands).Perm
      (worker.timers ++ addedTimers worker.intake) := by
  cases step_effect stepped with
  | quiet queue timers count commands shared =>
      rw [timers, commands, (started_of_isShared shared).2, List.nil_append]
  | @accepted command rest point same started =>
      rw [same, started]
      cases command <;>
        simp [accept, intake, point, IOPoint.swaps, IOPoint.commands,
          InboundCommand.timer?]
  | ownTask point queued same started =>
      rw [same, started]
      simp [intake, point, IOPoint.swaps, IOPoint.commands]
  | timer point chosen found first due same started =>
      rw [same, started]
      simp only [intake, point, IOPoint.swaps, IOPoint.commands,
        Option.toList_some, startedTimers_timer, Bool.false_eq_true,
        if_false, addedTimers_nil, List.append_nil]
      exact (PriorityQueue.perm_cons_eraseIdx found).symm

end IOWorker

section Runs

variable {Outside : Type} {workers computers : Nat} {Task : Type}
  {config : Config workers computers}
  {state after : State Outside workers computers Task}

namespace State

/-- The commands in the order of their locked pushes into `inbound_`. -/
def enqueued (state : State Outside workers computers Task)
    (worker : Fin workers) : List (InboundCommand Task) :=
  state.log.filterMap (Event.command? worker)

def startedOn (state : State Outside workers computers Task)
    (worker : Fin workers) : List (Origin workers × Task) :=
  state.log.filterMap (Event.startedOn? worker)

@[simp] theorem filterMap_startedBy_command (worker target : Fin workers)
    (started : Option (Origin workers × Task)) :
    (startedBy worker started : List (Event workers computers Task)).filterMap
      (Event.command? target) = [] := by
  cases started <;> rfl

theorem filterMap_startedBy (worker target : Fin workers)
    (started : Option (Origin workers × Task)) :
    (startedBy worker started : List (Event workers computers Task)).filterMap
        (Event.startedOn? target) =
      if worker = target then started.toList else [] := by
  cases started with
  | none => simp [startedBy]
  | some entry =>
      by_cases same : worker = target <;>
        simp [startedBy, Event.startedOn?, same]

theorem filterMap_computeEvents (worker : Fin computers)
    (outcome : ComputeOutcome computers Task) (target : Fin workers) :
    (computeEvents worker outcome : List (Event workers computers
        Task)).filterMap (Event.command? target) = [] ∧
      (computeEvents worker outcome : List (Event workers computers
        Task)).filterMap (Event.startedOn? target) = [] := by
  cases popped : outcome.popped <;> cases started : outcome.started <;>
    simp [computeEvents, popped, started, Event.command?, Event.startedOn?]

end State

theorem callEffect_enqueued {waiter : Option (Fin computers)}
    {call next : Call workers computers Task}
    {changed : State Outside workers computers Task}
    (found : state.callEffect config waiter call = some (changed, next))
    (target : Fin workers) :
    changed.enqueued target =
        state.enqueued target ++ call.commands target ∧
      changed.startedOn target = state.startedOn target := by
  cases call with
  | inboundPush worker command wake =>
      cases found
      by_cases same : worker = target <;>
        simp [State.record, State.setWorker, State.enqueued, State.startedOn,
          Event.command?, Event.startedOn?, Call.commands, Call.pushed, same]
  | microPush task =>
      cases found
      simp [State.record, State.enqueued, State.startedOn, Event.command?,
        Event.startedOn?, Call.commands, Call.pushed]
  | computePush task =>
      simp only [State.callEffect] at found
      split at found <;> cases found
      simp [State.record, State.enqueued, State.startedOn, Event.command?,
        Event.startedOn?, Call.commands, Call.pushed]
  | localPush worker task | exitExchange =>
      simp only [State.callEffect] at found
      split at found <;> cases found <;> exact ⟨(List.append_nil _).symm, rfl⟩
  | computeNotify =>
      simp only [State.callEffect] at found
      split at found <;> split at found <;> cases found <;>
        exact ⟨(List.append_nil _).symm, rfl⟩
  | idle => cases found
  | _ =>
      cases found
      exact ⟨(List.append_nil _).symm, rfl⟩

variable [DecidableEq Outside]

/-- A step of the hive seen from one worker: a step of its own loop, or
something that pushes to its `inbound_` at most. -/
theorem State.step_seenBy (target : Fin workers)
    {label : Label Outside workers computers Task}
    (stepped : state.step config label = some after) :
    (∃ choice outcome, label = .io target choice ∧
      (state.ioWorkers target).step (config.io target) target state.view
        choice = some outcome ∧
      after.ioWorkers target = outcome.worker ∧
      after.enqueued target = state.enqueued target ∧
      after.startedOn target =
        state.startedOn target ++ outcome.started.toList) ∨
    (∀ choice, label ≠ .io target choice) ∧
      (state.ioWorkers target).Disturbed (after.ioWorkers target) ∧
      after.startedOn target = state.startedOn target ∧
      ∃ pushed, after.enqueued target = state.enqueued target ++ pushed ∧
        (after.ioWorkers target).inbound.q =
          (state.ioWorkers target).inbound.q ++ pushed := by
  cases label with
  | call thread request =>
      refine .inr ⟨by simp, ?_⟩
      simp only [State.step] at stepped
      split at stepped
      · split at stepped <;> cases stepped
        refine ⟨.refl _, ?_, [], ?_, by simp [State.begin, State.setCall]⟩
        · cases (state.enter thread request).2 <;>
            simp [State.begin, State.startedOn, Event.startedOn?]
        · cases (state.enter thread request).2 <;>
            simp [State.begin, State.enqueued, Event.command?]
      · cases stepped
  | advance thread waiter =>
      obtain ⟨⟨changed, next⟩, found, rfl⟩ := Option.map_eq_some_iff.mp stepped
      obtain ⟨enqueued, started⟩ := callEffect_enqueued found target
      exact .inr ⟨by simp, state.callEffect_disturbs found target, started,
        _, enqueued, callEffect_inbound found target⟩
  | io worker choice =>
      simp only [State.step] at stepped
      split at stepped
      · obtain ⟨outcome, found, rfl⟩ := State.ioStep_cases stepped
        by_cases same : worker = target
        · subst same
          refine .inl ⟨choice, outcome, rfl, found, ?_, ?_, ?_⟩
          · simp [State.setWorker]
          · simp [State.enqueued]
          · simp [State.startedOn, State.filterMap_startedBy]
        · refine .inr ⟨?_, ?_, ?_, [], ?_, ?_⟩
          · intro other isIt
            cases isIt
            exact same rfl
          · simp only [State.setWorker, Function.update_of_ne (Ne.symm same),
              State.rob_ioWorkers]
            exact ⟨rfl, Nat.le_refl _, rfl, rfl, rfl, rfl, id⟩
          · simp [State.startedOn, State.filterMap_startedBy, same]
          · simp [State.enqueued]
          · simp [State.setWorker, Function.update_of_ne (Ne.symm same),
              State.rob_ioWorkers]
      · cases stepped
  | compute worker =>
      refine .inr ⟨by simp, ?_⟩
      simp only [State.step] at stepped
      split at stepped
      · obtain ⟨outcome, _, rfl⟩ := Option.map_eq_some_iff.mp stepped
        obtain ⟨quiet, idle⟩ :=
          State.filterMap_computeEvents worker outcome target
        exact ⟨.refl _, by simp [State.startedOn, idle], [],
          by simp [State.enqueued, quiet], by simp⟩
      · cases stepped
  | tick nanos =>
      cases stepped
      exact .inr ⟨by simp, .refl _, rfl, [], (List.append_nil _).symm,
        (List.append_nil _).symm⟩

/-- The commands that each worker has swapped out of its `inbound_`. -/
abbrev Drained (workers : Nat) (Task : Type) :=
  Fin workers → List (InboundCommand Task)

def observeDrains :
    System.Observer (State Outside workers computers Task)
      (Label Outside workers computers Task) (Drained workers Task)
  | state, .io worker _, _, drained =>
      if (state.ioWorkers worker).point.swaps then
        Function.update drained worker (state.enqueued worker)
      else drained
  | _, _, _, drained => drained

/-- Every command that was pushed is in `inbound_` or has been drained; of the
drained ones the private tasks are started from the front. -/
structure Dispensed (target : Fin workers)
    (state : State Outside workers computers Task)
    (drained : List (InboundCommand Task)) : Prop where
  enqueued : state.enqueued target =
    drained ++ (state.ioWorkers target).inbound.q
  privates : privateTasks drained =
    startedPrivate (state.startedOn target) ++
      (state.ioWorkers target).privateQueue ++
      privateTasks (state.ioWorkers target).point.commands
  timers : (startedTimers (state.startedOn target) ++
      (state.ioWorkers target).timers ++
      addedTimers (state.ioWorkers target).point.commands).Perm
    (addedTimers drained)

omit [DecidableEq Outside] in
theorem observeDrains_own {target : Fin workers} {choice : Choice workers}
    {drained : Drained workers Task} :
    observeDrains state (.io target choice) after drained target =
      if (state.ioWorkers target).point.swaps then state.enqueued target
      else drained target := by
  simp only [observeDrains]
  split <;> simp

omit [DecidableEq Outside] in
theorem observeDrains_other {target : Fin workers}
    {label : Label Outside workers computers Task}
    {drained : Drained workers Task}
    (other : ∀ choice, label ≠ .io target choice) :
    observeDrains state label after drained target = drained target := by
  cases label with
  | io worker choice =>
      have apart : target ≠ worker := by
        rintro rfl
        exact other choice rfl
      simp only [observeDrains]
      split <;> simp [Function.update_of_ne apart]
  | _ => rfl

theorem Dispensed.step {target : Fin workers}
    {label : Label Outside workers computers Task}
    {drained : Drained workers Task}
    (dispensed : Dispensed target state (drained target))
    (stepped : state.step config label = some after) :
    Dispensed target after (observeDrains state label after drained target) := by
  obtain ⟨enqueued, privates, timers⟩ := dispensed
  obtain ⟨choice, outcome, rfl, moved, worker, sameEnqueued, started⟩ |
    ⟨other, disturbed, sameStarted, pushed, pushes, inbound⟩ :=
    State.step_seenBy target stepped
  · have inbound := IOWorker.step_inbound moved
    have queue := IOWorker.step_private moved
    have heap := IOWorker.step_timers moved
    obtain ⟨later, same, taken, intake, heaped⟩ : ∃ later,
        observeDrains state (.io target choice) after drained target = later ∧
        state.enqueued target = later ++ outcome.worker.inbound.q ∧
        privateTasks later = startedPrivate (state.startedOn target) ++
          ((state.ioWorkers target).privateQueue ++
            privateTasks (state.ioWorkers target).intake) ∧
        (startedTimers (state.startedOn target) ++
          ((state.ioWorkers target).timers ++
            addedTimers (state.ioWorkers target).intake)).Perm
          (addedTimers later) := by
      refine ⟨_, observeDrains_own, ?_⟩
      by_cases swaps : (state.ioWorkers target).point.swaps
      · have none := commands_of_swaps swaps
        simp only [none, privateTasks_nil, addedTimers_nil, List.append_nil]
          at privates timers
        simp only [swaps, if_true, inbound, IOWorker.intake, List.append_nil,
          true_and]
        rw [enqueued, privateTasks_append, addedTimers_append, privates]
        refine ⟨by simp, ?_⟩
        rw [← List.append_assoc]
        exact timers.append_right _
      · simp only [Bool.not_eq_true] at swaps
        simp only [swaps, Bool.false_eq_true, if_false, inbound,
          IOWorker.intake, ← List.append_assoc]
        exact ⟨enqueued, privates, timers⟩
    rw [same]
    refine ⟨?_, ?_, ?_⟩
    · rw [sameEnqueued, worker, taken]
    · rw [started, worker, intake, ← queue, startedPrivate_append]
      simp
    · rw [started, worker, startedTimers_append, List.append_assoc,
        List.append_assoc, ← List.append_assoc _ outcome.worker.timers]
      exact (heap.append_left _).trans heaped
  · rw [observeDrains_other other]
    refine ⟨?_, ?_, ?_⟩
    · rw [pushes, inbound, enqueued, List.append_assoc]
    · rw [sameStarted, disturbed.point, disturbed.privateQueue, privates]
    · rw [sameStarted, disturbed.point, disturbed.timers]
      exact timers

def drainObserved (Outside : Type) [DecidableEq Outside] (Task : Type)
    (config : Config workers computers) :=
  (machine Outside Task config).withHistory (fun _ => []) observeDrains

/-- What had been pushed for each worker at the swap with which its pass began,
until `runPrivateTasks` returns. -/
abbrev Batches (workers : Nat) (Task : Type) :=
  Fin workers → Option (List (InboundCommand Task))

/-- A swap inside a pass begins no new one. -/
def observeBatches :
    System.Observer (State Outside workers computers Task)
      (Label Outside workers computers Task) (Batches workers Task)
  | state, .io worker _, after, batches =>
      if (after.ioWorkers worker).point.leftPrivates then
        Function.update batches worker none
      else if (state.ioWorkers worker).point.swaps ∧
          (batches worker).isNone then
        Function.update batches worker (some (state.enqueued worker))
      else batches
  | _, _, _, batches => batches

omit [DecidableEq Outside] in
theorem observeBatches_other {target : Fin workers}
    {label : Label Outside workers computers Task}
    {batches : Batches workers Task}
    (other : ∀ choice, label ≠ .io target choice) :
    observeBatches state label after batches target = batches target := by
  cases label with
  | io worker choice =>
      have apart : target ≠ worker := by
        rintro rfl
        exact other choice rfl
      simp only [observeBatches]
      split
      · rw [Function.update_of_ne apart]
      · split
        · rw [Function.update_of_ne apart]
        · rfl
  | _ => rfl

def Batched (target : Fin workers)
    (state : State Outside workers computers Task)
    (drained : List (InboundCommand Task))
    (batch : Option (List (InboundCommand Task))) : Prop :=
  batch =
    if (state.ioWorkers target).point.holdsPrivates then some drained else none

theorem Batched.step {target : Fin workers}
    {label : Label Outside workers computers Task}
    {drained : Drained workers Task} {batches : Batches workers Task}
    (batched : Batched target state (drained target) (batches target))
    (stepped : state.step config label = some after) :
    Batched target after (observeDrains state label after drained target)
      (observeBatches state label after batches target) := by
  unfold Batched at batched ⊢
  obtain ⟨choice, outcome, rfl, moved, worker, _, _⟩ |
    ⟨other, disturbed, _⟩ := State.step_seenBy target stepped
  · have lasts := IOWorker.step_holdsPrivates moved
    rw [observeDrains_own, worker, lasts]
    simp only [observeBatches, worker]
    cases left : outcome.worker.point.leftPrivates with
    | true => simp
    | false =>
        cases swaps : (state.ioWorkers target).point.swaps with
        | true =>
            have none : batches target = none := by
              simp [batched, holdsPrivates_of_swaps swaps]
            simp [none]
        | false => simp [batched]
  · rw [observeBatches_other other, observeDrains_other other,
      disturbed.point]
    exact batched

def batchObserved (Outside : Type) [DecidableEq Outside] (Task : Type)
    (config : Config workers computers) :=
  (machine Outside Task config).withHistory (fun _ => [], fun _ => none)
    (.both observeDrains observeBatches)

theorem batched_of_reachable {drained : Drained workers Task}
    {batches : Batches workers Task}
    (reached : (batchObserved Outside Task config).Reachable
      (state, drained, batches))
    (target : Fin workers) :
    Dispensed target state (drained target) ∧
      Batched target state (drained target) (batches target) := by
  refine System.withHistory_invariant
    (fun state history => Dispensed target state (history.1 target) ∧
      Batched target state (history.1 target) (history.2 target)) ?_ ?_
    reached
  · rintro _ rfl
    exact ⟨⟨rfl, rfl, .refl _⟩, rfl⟩
  · intro state history label after inv _ stepped
    exact ⟨inv.1.step stepped, inv.2.step stepped⟩

theorem dispensed_of_reachable {drained : Drained workers Task}
    (reached : (drainObserved Outside Task config).Reachable (state, drained))
    (target : Fin workers) : Dispensed target state (drained target) := by
  refine System.withHistory_invariant
    (fun state drained => Dispensed target state (drained target)) ?_ ?_
    reached
  · rintro _ rfl
    exact ⟨rfl, rfl, .refl _⟩
  · intro state drained label after dispensed _ stepped
    exact dispensed.step stepped

end Runs

namespace EventLoop

variable {Outside Task : Type}

def Event.posted? : Event Task → Option Task
  | .posted task => some task
  | _ => none

def Event.startedTask? : Event Task → Option Task
  | .startedTask task => some task
  | _ => none

/-- What `runReadyTasks` has swapped out and not started. -/
def Point.batch : Point Task → List Task
  | .ready rest | .runningTask rest => rest
  | _ => []

namespace State

/-- The tasks in the order of their locked pushes into `tasks_`. -/
def posted (state : State Outside Task) : List Task :=
  state.log.filterMap Event.posted?

def startedTasks (state : State Outside Task) : List Task :=
  state.log.filterMap Event.startedTask?

end State

/-- The tasks that `runReadyTasks` has swapped out of `tasks_`. -/
def observeSwaps :
    System.Observer (State Outside Task) (Label Outside Task) (List Task)
  | state, .loop _ _, _, taken =>
      match state.point with
      | .swapTasks => state.posted
      | _ => taken
  | _, _, _, taken => taken

/-- Inside `runReadyTasks`, behind its swap. -/
def Point.inReady : Point Task → Bool
  | .ready _ | .runningTask _ => true
  | _ => false

/-- What had been posted at the first swap of the present call of
`runReadyTasks`; a swap inside the call begins no new batch. -/
def observeBatch :
    System.Observer (State Outside Task) (Label Outside Task)
      (Option (List Task))
  | state, .loop _ _, after, batch =>
      match after.point with
      | .checkExit => none
      | _ =>
          match state.point, batch with
          | .swapTasks, none => some state.posted
          | _, _ => batch
  | _, _, _, batch => batch

def Batched (state : State Outside Task) (taken : List Task)
    (batch : Option (List Task)) : Prop :=
  batch = if state.point.inReady then some taken else none

structure Dispensed (state : State Outside Task) (taken : List Task) :
    Prop where
  posted : state.posted = taken ++ state.tasks
  started : taken = state.startedTasks ++ state.point.batch

variable {rule : TimerRule Task} {state after : State Outside Task}
  {taken : List Task}

theorem callEffect_posted {call next : Call Task}
    {moved : State Outside Task}
    (effect : state.callEffect call = some (moved, next)) :
    ∃ pushed, moved.posted = state.posted ++ pushed ∧
      moved.tasks = state.tasks ++ pushed ∧
      moved.startedTasks = state.startedTasks ∧ moved.point = state.point := by
  cases call with
  | idle => cases effect
  | push task =>
      cases effect
      refine ⟨[task], ?_, rfl, ?_, rfl⟩
      · simp [State.posted, State.record, Event.posted?]
      · simp [State.startedTasks, State.record, Event.startedTask?]
  | pushTimer task delay =>
      cases effect
      refine ⟨[], ?_, (List.append_nil _).symm, ?_, rfl⟩
      · simp [State.posted, State.record, Event.posted?]
      · simp [State.startedTasks, State.record, Event.startedTask?]
  | storeExit | notify =>
      cases effect
      exact ⟨[], (List.append_nil _).symm, (List.append_nil _).symm, rfl, rfl⟩

theorem Dispensed.looped {woken : Bool} (dispensed : Dispensed state taken)
    (moved : state.loopStep rule woken = some after) :
    Dispensed after (observeSwaps state (.loop woken rule) after taken) := by
  obtain ⟨posted, started⟩ := dispensed
  revert moved
  fun_cases state.loopStep rule woken with
  | case2 point | case3 point =>
      intro moved
      cases moved
      rw [point] at started
      simp only [observeSwaps, point]
      refine ⟨posted, ?_⟩
      cases requested : state.exitRequested <;>
        simp only [State.goto, requested, Bool.false_eq_true, if_true,
          if_false] <;>
        exact started
  | _ =>
      intro moved
      cases moved
      all_goals
        refine ⟨?_, ?_⟩ <;>
          simp_all [observeSwaps, State.goto, State.record, State.posted,
            State.startedTasks, Point.batch, Event.posted?, Event.startedTask?]

variable [DecidableEq Outside]

theorem Dispensed.step {label : Label Outside Task}
    (dispensed : Dispensed state taken)
    (stepped : state.step label = some after) :
    Dispensed after (observeSwaps state label after taken) := by
  cases label with
  | call thread request =>
      obtain ⟨_, _, rfl⟩ := State.step_call stepped
      exact ⟨dispensed.posted, dispensed.started⟩
  | advance thread =>
      obtain ⟨moved, call, effect, rfl⟩ := State.step_advance stepped
      obtain ⟨pushed, posted, tasks, started, point⟩ := callEffect_posted effect
      refine ⟨?_, ?_⟩
      · calc moved.posted
          _ = taken ++ state.tasks ++ pushed := by rw [posted, dispensed.posted]
          _ = taken ++ moved.tasks := by rw [tasks, List.append_assoc]
      · calc taken
          _ = moved.startedTasks ++ moved.point.batch := by
            rw [started, point, ← dispensed.started]
  | loop woken rule => exact dispensed.looped (State.step_loop stepped).2
  | tick nanos =>
      cases stepped
      exact ⟨dispensed.posted, dispensed.started⟩

omit [DecidableEq Outside] in
theorem Batched.looped {batch : Option (List Task)} {woken : Bool}
    (batched : Batched state taken batch)
    (moved : state.loopStep rule woken = some after) :
    Batched after (observeSwaps state (.loop woken rule) after taken)
      (observeBatch state (.loop woken rule) after batch) := by
  unfold Batched at batched ⊢
  revert moved
  fun_cases state.loopStep rule woken with
  | case2 point | case3 point =>
      intro moved
      cases moved
      rw [point] at batched
      cases requested : state.exitRequested <;>
        simp [observeBatch, State.goto, point, requested, batched,
          Point.inReady]
  | _ =>
      intro moved
      cases moved
      all_goals
        simp_all [observeSwaps, observeBatch, State.goto, State.record,
          Point.inReady]

theorem Batched.step {batch : Option (List Task)}
    {label : Label Outside Task} (batched : Batched state taken batch)
    (stepped : state.step label = some after) :
    Batched after (observeSwaps state label after taken)
      (observeBatch state label after batch) := by
  cases label with
  | call thread request =>
      obtain ⟨_, _, rfl⟩ := State.step_call stepped
      exact batched
  | advance thread =>
      obtain ⟨moved, call, effect, rfl⟩ := State.step_advance stepped
      obtain ⟨_, _, _, _, point⟩ := callEffect_posted effect
      unfold Batched at batched ⊢
      rw [State.setCall, point]
      exact batched
  | loop woken rule => exact batched.looped (State.step_loop stepped).2
  | tick nanos =>
      cases stepped
      exact batched

def batchObserved (Outside : Type) [DecidableEq Outside] (Task : Type) :=
  (machine Outside Task).withHistory ([], none)
    (.both observeSwaps observeBatch)

theorem batched_of_reachable {batch : Option (List Task)}
    (reached : (batchObserved Outside Task).Reachable (state, taken, batch)) :
    Dispensed state taken ∧ Batched state taken batch := by
  refine System.withHistory_invariant
    (fun state history => Dispensed state history.1 ∧
      Batched state history.1 history.2) ?_ ?_ reached
  · rintro _ rfl
    exact ⟨⟨rfl, rfl⟩, rfl⟩
  · intro state history label after inv _ stepped
    exact ⟨inv.1.step stepped, inv.2.step stepped⟩

end EventLoop

section InOrder

/-- Tasks are started in the order of their pushes, each at most once, and
while a batch goes on only those pushed before it was swapped out. -/
structure InOrder {Entry Task : Type} (tasks : List Entry → List Task)
    (pushed drained : List Entry) (batch : Option (List Entry))
    (running : Bool) (started : List Task) : Prop where
  order : started <+: tasks pushed
  drained : started <+: tasks drained ∧ drained <+: pushed
  pass : ∀ before, batch = some before →
    before <+: pushed ∧ started <+: tasks before
  inside : running = true → batch.isSome = true

variable {Outside : Type} [DecidableEq Outside] {workers computers : Nat}
  {Task : Type}

theorem InOrder.of_batch {Entry : Type} {tasks : List Entry → List Task}
    {pushed drained : List Entry} {batch : Option (List Entry)}
    {holds running : Bool} {started : List Task}
    (monotone : ∀ {front whole}, front <+: whole → tasks front <+: tasks whole)
    (ran : started <+: tasks drained) (isPushed : drained <+: pushed)
    (isBatch : batch = if holds then some drained else none)
    (inside : running = true → holds = true) :
    InOrder tasks pushed drained batch running started where
  order := ran.trans (monotone isPushed)
  drained := ⟨ran, isPushed⟩
  pass := by
    intro before going
    rw [isBatch, Option.ite_none_right_eq_some] at going
    obtain ⟨_, same⟩ := going
    cases same
    exact ⟨isPushed, ran⟩
  inside := by
    intro runs
    rw [isBatch, inside runs]
    rfl

theorem directedTasks_inOrder (config : Config workers computers)
    {state : State Outside workers computers Task}
    {drained : Drained workers Task} {batches : Batches workers Task}
    {loop : EventLoop.State Outside Task} {taken : List Task}
    {batch : Option (List Task)}
    (reached : (batchObserved Outside Task config).Reachable
      (state, drained, batches))
    (looped : (EventLoop.batchObserved Outside Task).Reachable
      (loop, taken, batch)) :
    (∀ worker, InOrder privateTasks (state.enqueued worker) (drained worker)
      (batches worker) (state.ioWorkers worker).point.inPrivates
      (startedPrivate (state.startedOn worker))) ∧
    InOrder id loop.posted taken batch loop.point.inReady
      loop.startedTasks := by
  constructor
  · intro worker
    obtain ⟨dispensed, batched⟩ := batched_of_reachable reached worker
    refine .of_batch (fun before => before.filterMap _) ?_ ?_ batched
      holdsPrivates_of_inPrivates
    · rw [dispensed.privates, List.append_assoc]
      exact List.prefix_append _ _
    · rw [dispensed.enqueued]
      exact List.prefix_append _ _
  · obtain ⟨dispensed, batched⟩ := EventLoop.batched_of_reachable looped
    refine .of_batch id ?_ ?_ batched id
    · conv_rhs => rw [dispensed.started]
      exact List.prefix_append _ _
    · rw [dispensed.posted]
      exact List.prefix_append _ _

end InOrder
/-- The first task posts another one to its own worker. -/
def postWithinPass : List (Label Unit 1 0 Nat) :=
  postDirectly 5 ++ List.replicate 18 (Label.io 0 .woken) ++
    Label.call (.io 0) (.postToWorker 0 (some 7)) ::
      List.replicate 3 (Label.advance (.io 0) none)

def postWithinBatch : List (EventLoop.Label Unit Nat) :=
  EventLoop.Label.call (.outside ()) (.post (some 5)) ::
    List.replicate 2 (EventLoop.Label.advance (.outside ())) ++
      List.replicate 14 (EventLoop.Label.loop true (.first _)) ++
        EventLoop.Label.call .loop (.post (some 7)) ::
          List.replicate 2 (EventLoop.Label.advance .loop)

/-- The pass and the batch end without the new task, which is started in the
next ones. -/
theorem directedTasks_inOrder_postWithinPass :
    let reaches (steps loopSteps : Nat) (started : List Nat)
        (point : IOPoint 1 Nat) (loopPoint : EventLoop.Point Nat) : Prop :=
      ∃ observed loopObserved,
        (batchObserved Unit Nat loneWorker).replay
          (initialState, fun _ => [], fun _ => none)
          (postWithinPass ++ List.replicate steps (Label.io 0 .woken)) =
            some observed ∧
        (EventLoop.batchObserved Unit Nat).replay
          (EventLoop.initialState, [], none)
          (postWithinBatch ++
            List.replicate loopSteps (EventLoop.Label.loop true (.first _))) =
              some loopObserved ∧
        (observed.1.ioWorkers 0).point = point ∧
        loopObserved.1.point = loopPoint ∧
        startedPrivate (observed.1.startedOn 0) = started ∧
        loopObserved.1.startedTasks = started ∧
        InOrder privateTasks (observed.1.enqueued 0) (observed.2.1 0)
          (observed.2.2 0) point.inPrivates started ∧
        InOrder id loopObserved.1.posted loopObserved.2.1 loopObserved.2.2
          loopPoint.inReady started
    reaches 3 1 [5] .privateNext (.ready []) ∧
      reaches 27 15 [5, 7] (.running .privateTasks) (.runningTask []) := by
  intro reaches
  have follows {steps loopSteps : Nat} {started : List Nat}
      {point : IOPoint 1 Nat} {loopPoint : EventLoop.Point Nat}
      (run : ((batchObserved Unit Nat loneWorker).replay
        (initialState, fun _ => [], fun _ => none)
        (postWithinPass ++ List.replicate steps (Label.io 0 .woken))).map
          (fun observed => ((observed.1.ioWorkers 0).point,
            startedPrivate (observed.1.startedOn 0))) =
              some (point, started))
      (loopRun : ((EventLoop.batchObserved Unit Nat).replay
        (EventLoop.initialState, [], none)
        (postWithinBatch ++
          List.replicate loopSteps (EventLoop.Label.loop true (.first _)))).map
            (fun observed => (observed.1.point, observed.1.startedTasks)) =
              some (loopPoint, started)) :
      reaches steps loopSteps started point loopPoint := by
    obtain ⟨⟨state, drained, batches⟩, ends, found⟩ :=
      Option.map_eq_some_iff.mp run
    obtain ⟨⟨loop, taken, batch⟩, loopEnds, loopFound⟩ :=
      Option.map_eq_some_iff.mp loopRun
    obtain ⟨atPoint, starts⟩ := Prod.mk.inj found
    obtain ⟨atLoopPoint, loopStarts⟩ := Prod.mk.inj loopFound
    have begun : (batchObserved Unit Nat loneWorker).initial
        (initialState, fun _ => [], fun _ => none) := ⟨rfl, rfl⟩
    have loopBegun : (EventLoop.batchObserved Unit Nat).initial
        (EventLoop.initialState, [], none) := ⟨rfl, rfl⟩
    obtain ⟨inOrder, loopInOrder⟩ := directedTasks_inOrder loneWorker
      (System.Reachable.replay _ (.start begun) ends)
      (System.Reachable.replay _ (.start loopBegun) loopEnds)
    have workerInOrder := inOrder 0
    rw [atPoint, starts] at workerInOrder
    rw [atLoopPoint, loopStarts] at loopInOrder
    exact ⟨_, _, ends, loopEnds, atPoint, atLoopPoint, starts, loopStarts,
      workerInOrder, loopInOrder⟩
  constructor
  · exact follows (by decide +kernel) (by decide +kernel)
  · exact follows (by decide +kernel) (by decide +kernel)

end RopHive.Schedule
