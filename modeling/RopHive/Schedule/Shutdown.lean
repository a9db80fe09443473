import RopHive.Schedule.LostWakeup

namespace RopHive.Schedule

open Transition

/-! Whether anyone stays asleep after `requestExit`.  The IO workers are woken
through their eventfds, which keep a notification until it is read; the compute
workers through a condition variable, which does not. -/

section Points

variable {Outside : Type} {workers computers : Nat} {Task : Type}

/-- The worker has passed its last check of the exit flag before a wait that
may block. -/
def IOPoint.deaf : IOPoint workers Task → Bool
  | .readInbound | .readLocal | .readGlobal | .readClock
  | .markSleeping _ => true
  | .enterWait timeout | .waiting timeout => timeout ≠ 0
  | _ => false

theorem deaf_of_junction {point : IOPoint workers Task}
    (junction : point.junction) : point.deaf = false := by
  cases point with
  | enterWait timeout =>
      simp only [IOPoint.junction, decide_eq_true_eq] at junction
      simp [IOPoint.deaf, junction]
  | readInbound | readLocal | readGlobal | readClock | markSleeping timeout
  | waiting timeout => cases junction
  | _ => rfl

/-- The call has set the exit flag and has not returned. -/
def Call.leading : Call workers computers Task → Bool
  | .exitStop _ | .exitWake _ | .computeStop _ | .notifyAll => true
  | _ => false

/-- The call will write to the eventfd of the worker. -/
def Call.willWake (worker : Fin workers) : Call workers computers Task → Bool
  | .exitStop next | .exitWake next => next ≤ worker
  | _ => false

theorem leading_exitStopFrom (index : Nat) :
    (Call.exitStopFrom index : Call workers computers Task).leading := by
  grind -linarith [Call.exitStopFrom, Call.computeStopFrom, Call.leading]

theorem leading_of_willWake {worker : Fin workers}
    {call : Call workers computers Task} (wakes : call.willWake worker) :
    call.leading := by
  cases call with
  | exitStop next | exitWake next => rfl
  | _ => cases wakes

theorem willWake_exitStopFrom {index : Nat} {worker : Fin workers}
    (ahead : index ≤ worker) :
    (Call.exitStopFrom index : Call workers computers Task).willWake worker := by
  have inside : index < workers := Nat.lt_of_le_of_lt ahead worker.isLt
  simpa [Call.exitStopFrom, inside, Call.willWake, Fin.le_def] using ahead

/-- The worker has found the predicate false, or has gone to sleep over it. -/
def ComputePoint.asleep : ComputePoint Task → Bool
  | .enterWait | .waiting => true
  | _ => false

theorem asleep_onStop (site : ComputeSite Task) :
    site.onStop.asleep = false := by
  cases site <;> rfl

theorem asleep_next (batch : List Task) :
    (ComputeWorker.next batch).asleep = false := by
  cases batch <;> rfl

def IOWorker.Asleep (worker : IOWorker workers Task) : Prop :=
  ∃ timeout, worker.point = .waiting timeout ∧ timeout ≠ 0 ∧
    worker.wakeup = 0

/-- With the exit flag set a worker does not pass the checks, and one that has
passed them keeps its notification until it dispatches. -/
theorem IOWorker.step_deaf {options : Options} {self : Fin workers}
    {view : View workers Task} {worker : IOWorker workers Task}
    {choice : Choice workers} {outcome : Outcome workers Task}
    (exiting : view.exitRequested = true)
    (stepped : worker.step options self view choice = some outcome)
    (deaf : outcome.worker.point.deaf) :
    worker.point.deaf ∧ outcome.worker.wakeup = worker.wakeup := by
  cases point : worker.point with
  | _ =>
      simp only [step, point] at stepped
      grind -linarith [goto, start, block, stealOnce, IOPoint.deaf,
        deaf_of_junction, junction_haulNext, junction_done, junction_onStop]

theorem ComputeWorker.step_asleep {computeBatchSize : Nat}
    {self : Fin computers} {exitRequested : Bool}
    {pool : GlobalComputePool computers Task} {worker : ComputeWorker Task}
    {outcome : ComputeOutcome computers Task}
    (exiting : exitRequested = true)
    (stepped : worker.step computeBatchSize self exitRequested pool =
      some outcome)
    (asleep : outcome.worker.point.asleep) : worker.point.asleep := by
  cases point : worker.point with
  | _ =>
      simp only [step, point] at stepped
      grind -linarith [goto, ComputePoint.asleep, asleep_onStop, asleep_next]

namespace State

variable (state : State Outside workers computers Task)

/-- The `requestExit` call that set the exit flag has returned. -/
def ShutDown : Prop :=
  state.exitRequested = true ∧ ∀ thread, (state.calls thread).leading = false

/-- Once the exit flag is set, every IO worker that may still block has been
notified or is about to be. -/
def Roused : Prop :=
  state.exitRequested = true → ∀ worker,
    (∃ thread, (state.calls thread).willWake worker) ∨
      ((state.ioWorkers worker).point.deaf →
        0 < (state.ioWorkers worker).wakeup)

/-- Once the exit flag is set, no compute worker sleeps unless the notification
is still to come. -/
def Released : Prop :=
  state.exitRequested = true →
    (∃ thread, (state.calls thread).leading) ∨
      ∀ worker, (state.computeWorkers worker).point.asleep = false

end State

/-- At the notification of `requestExit` no compute worker stands between
finding the predicate false and entering the wait set. -/
def NotifyHeard (state : State Outside workers computers Task)
    (label : Label Outside workers computers Task) : Prop :=
  ∀ thread, label.advances = some thread →
    state.calls thread = .notifyAll →
    ∀ worker, (state.computeWorkers worker).point ≠ .enterWait

instance [Fintype Outside] [DecidableEq Outside] [DecidableEq Task]
    (state : State Outside workers computers Task)
    (label : Label Outside workers computers Task) :
    Decidable (NotifyHeard state label) :=
  inferInstanceAs (Decidable (∀ _, _ → _))

variable {config : Config workers computers}
  {state after : State Outside workers computers Task}

theorem callEffect_wakes {waiter : Option (Fin computers)}
    {call next : Call workers computers Task}
    {changed : State Outside workers computers Task}
    (found : state.callEffect config waiter call = some (changed, next))
    {worker : Fin workers} (wakes : call.willWake worker) :
    next.willWake worker ∨ 0 < (changed.ioWorkers worker).wakeup := by
  cases call with
  | exitStop target =>
      cases found
      exact .inl wakes
  | exitWake target =>
      cases found
      by_cases same : target = worker
      · right
        simp [same, State.notify, State.setWorker]
      · left
        apply willWake_exitStopFrom
        simp only [Call.willWake, decide_eq_true_eq] at wakes
        omega
  | _ => cases wakes

theorem callEffect_leads {waiter : Option (Fin computers)}
    {call next : Call workers computers Task}
    {changed : State Outside workers computers Task}
    (found : state.callEffect config waiter call = some (changed, next))
    (leads : call.leading) : next.leading ∨ call = .notifyAll := by
  cases call with
  | exitStop target | exitWake target | computeStop target =>
      cases found
      grind -linarith [Call.exitStopFrom, Call.computeStopFrom, Call.leading]
  | notifyAll => exact .inr rfl
  | _ => cases leads

theorem callEffect_asleep {waiter : Option (Fin computers)}
    {call next : Call workers computers Task}
    {changed : State Outside workers computers Task}
    (found : state.callEffect config waiter call = some (changed, next))
    {worker : Fin computers}
    (asleep : (changed.computeWorkers worker).point.asleep) :
    (state.computeWorkers worker).point.asleep := by
  cases call with
  | computeNotify =>
      simp only [State.callEffect] at found
      split at found <;> split at found <;> cases found
      · next target waits =>
          by_cases same : worker = target
          · simp [same, State.wakeCompute, ComputePoint.asleep] at asleep
          · simpa [same, State.wakeCompute] using asleep
      · exact asleep
  | computeStop target =>
      cases found
      by_cases same : worker = target
      · subst same
        simpa using asleep
      · simpa [same] using asleep
  | notifyAll =>
      cases found
      simp only [State.released] at asleep
      split at asleep
      · cases asleep
      · exact asleep
  | localPush target task | computePush task | exitExchange =>
      simp only [State.callEffect] at found
      split at found <;> cases found <;> exact asleep
  | idle => cases found
  | _ =>
      cases found
      exact asleep

variable [DecidableEq Outside]

namespace State.Roused

theorem callStep (roused : state.Roused)
    {thread : Thread Outside workers computers}
    {waiter : Option (Fin computers)}
    (stepped : state.callStep config thread waiter = some after) :
    after.Roused := by
  obtain ⟨⟨changed, next⟩, found, rfl⟩ := Option.map_eq_some_iff.mp stepped
  intro exiting worker
  have disturbed := state.callEffect_disturbs found worker
  have notified := disturbed.wakeup
  rcases state.callEffect_exitRequested found with same | ⟨_, leads⟩
  · rcases roused (same ▸ exiting) worker with ⟨other, wakes⟩ | ready
    · by_cases mine : other = thread
      · subst mine
        rcases callEffect_wakes found wakes with still | woken
        · exact .inl ⟨other, by simpa [State.setCall] using still⟩
        · exact .inr fun _ => woken
      · refine .inl ⟨other, ?_⟩
        simpa [State.setCall, mine, state.callEffect_calls found] using wakes
    · right
      intro deaf
      simp only [State.setCall, disturbed.point] at deaf
      have := ready deaf
      simp only [State.setCall]
      omega
  · refine .inl ⟨thread, ?_⟩
    subst leads
    simpa [State.setCall] using willWake_exitStopFrom (Nat.zero_le _)

omit [DecidableEq Outside] in
theorem ioStep (roused : state.Roused) {worker : Fin workers}
    {choice : Choice workers}
    (stepped : state.ioStep config worker choice = some after) :
    after.Roused := by
  obtain ⟨outcome, found, rfl⟩ := State.ioStep_cases stepped
  intro exiting other
  have exitRequested : state.exitRequested = true := by
    cases victim : outcome.robbed <;>
      simpa [victim, State.rob, State.setWorker] using exiting
  rcases roused exitRequested other with ⟨thread, wakes⟩ | ready
  · exact .inl ⟨thread, by simpa [State.setWorker] using wakes⟩
  · right
    by_cases same : other = worker
    · subst same
      intro deaf
      simp only [State.setWorker, Function.update_self] at deaf ⊢
      obtain ⟨wasDeaf, kept⟩ := IOWorker.step_deaf exitRequested found deaf
      rw [kept]
      exact ready wasDeaf
    · simpa [State.setWorker, same, State.rob_ioWorkers] using ready

theorem step (roused : state.Roused)
    {label : Label Outside workers computers Task}
    (stepped : state.step config label = some after) : after.Roused := by
  cases label with
  | call thread request =>
      simp only [State.step] at stepped
      split at stepped
      · next idle =>
          split at stepped <;> cases stepped
          intro exiting worker
          rcases roused exiting worker with ⟨other, wakes⟩ | ready
          · have differs : other ≠ thread := by
              rintro rfl
              rw [idle] at wakes
              cases wakes
            refine .inl ⟨other, ?_⟩
            simpa [State.begin, State.setCall, differs] using wakes
          · exact .inr ready
      · cases stepped
  | advance thread waiter => exact roused.callStep stepped
  | io worker choice =>
      simp only [State.step] at stepped
      split at stepped
      · exact roused.ioStep stepped
      · cases stepped
  | compute worker =>
      simp only [State.step] at stepped
      split at stepped
      · obtain ⟨outcome, _, rfl⟩ := Option.map_eq_some_iff.mp stepped
        exact roused
      · cases stepped
  | tick nanos =>
      cases stepped
      exact roused

end State.Roused

namespace State.Released

theorem callStep (released : state.Released)
    {thread : Thread Outside workers computers}
    {waiter : Option (Fin computers)}
    (heard : NotifyHeard state (.advance thread waiter))
    (stepped : state.callStep config thread waiter = some after) :
    after.Released := by
  obtain ⟨⟨changed, next⟩, found, rfl⟩ := Option.map_eq_some_iff.mp stepped
  intro exiting
  rcases state.callEffect_exitRequested found with same | ⟨_, leads⟩
  · rcases released (same ▸ exiting) with ⟨other, leads⟩ | awake
    · by_cases mine : other = thread
      · subst mine
        rcases callEffect_leads found leads with still | notifies
        · exact .inl ⟨other, by simpa [State.setCall] using still⟩
        · -- The notification reaches whoever is in the wait set.
          right
          intro worker
          have entering := heard other rfl notifies worker
          rw [notifies] at found
          cases found
          simp only [State.setCall, State.released]
          split
          · rfl
          · next unnotified =>
              cases point : (state.computeWorkers worker).point <;>
                simp_all [ComputeWorker.isWaiting, ComputePoint.asleep]
      · refine .inl ⟨other, ?_⟩
        simpa [State.setCall, mine, state.callEffect_calls found] using leads
    · right
      intro worker
      by_contra asleep
      have slept := callEffect_asleep found
        (by simpa [State.setCall] using asleep)
      rw [awake worker] at slept
      cases slept
  · refine .inl ⟨thread, ?_⟩
    subst leads
    simpa [State.setCall] using leading_exitStopFrom 0

theorem step (released : state.Released)
    {label : Label Outside workers computers Task}
    (heard : NotifyHeard state label)
    (stepped : state.step config label = some after) : after.Released := by
  cases label with
  | call thread request =>
      simp only [State.step] at stepped
      split at stepped
      · next idle =>
          split at stepped <;> cases stepped
          intro exiting
          rcases released exiting with ⟨other, leads⟩ | awake
          · have differs : other ≠ thread := by
              rintro rfl
              rw [idle] at leads
              cases leads
            refine .inl ⟨other, ?_⟩
            simpa [State.begin, State.setCall, differs] using leads
          · exact .inr awake
      · cases stepped
  | advance thread waiter => exact released.callStep heard stepped
  | io worker choice =>
      simp only [State.step] at stepped
      split at stepped
      · obtain ⟨outcome, _, rfl⟩ := State.ioStep_cases stepped
        cases outcome.robbed <;> exact released
      · cases stepped
  | compute worker =>
      simp only [State.step] at stepped
      split at stepped
      · obtain ⟨outcome, found, rfl⟩ := Option.map_eq_some_iff.mp stepped
        intro exiting
        refine (released exiting).imp_right fun awake other => ?_
        by_cases same : other = worker
        · subst same
          by_contra asleep
          have slept := ComputeWorker.step_asleep exiting found
            (by simpa using asleep)
          rw [awake other] at slept
          cases slept
        · simpa [same] using awake other
      · cases stepped
  | tick nanos =>
      cases stepped
      exact released

end State.Released

theorem released_of_reachableUnder
    (reached : (machine Outside Task config).ReachableUnder NotifyHeard
      state) : state.Roused ∧ state.Released := by
  refine reached.invariant (fun state => state.Roused ∧ state.Released) ?_ ?_
  · rintro _ rfl
    constructor <;> (intro exiting; cases exiting)
  · rintro state label after ⟨roused, released⟩ heard stepped
    exact ⟨roused.step stepped, released.step heard stepped⟩

/-- In every run whose `notify_all` finds no compute worker about to enter the
wait set, nobody is asleep once the `requestExit` call that set the flag has
returned. -/
theorem awake_after_requestExit_of_notifyHeard
    (config : Config workers computers)
    (state : State Outside workers computers Task)
    (reached : (machine Outside Task config).ReachableUnder NotifyHeard state)
    (shutDown : state.ShutDown) :
    (∀ worker, ¬ (state.ioWorkers worker).Asleep) ∧
      ∀ worker, (state.computeWorkers worker).isWaiting = false := by
  obtain ⟨roused, released⟩ := released_of_reachableUnder reached
  obtain ⟨exiting, returned⟩ := shutDown
  constructor
  · rintro worker ⟨timeout, waits, blocks, empty⟩
    rcases roused exiting worker with ⟨thread, wakes⟩ | ready
    · have leads := leading_of_willWake wakes
      rw [returned thread] at leads
      cases leads
    · have woken := ready (by simpa [waits, IOPoint.deaf] using blocks)
      omega
  · intro worker
    rcases released exiting with ⟨thread, leads⟩ | awake
    · rw [returned thread] at leads
      cases leads
    · have sleepless := awake worker
      unfold ComputeWorker.isWaiting
      split
      · next waits =>
          rw [waits] at sleepless
          cases sleepless
      · rfl

end Points

def workerPair : Config 1 1 where
  io := fun _ => {}
  computeBatchSize := fun _ => 4

def exitFromOutside : List (Label Unit 1 1 Nat) :=
  .call (.outside ()) .requestExit ::
    List.replicate 5 (.advance (.outside ()) none)

/-- The compute worker waits and the IO worker is blocked when `requestExit`
comes. -/
def exitWhileWaiting : List (Label Unit 1 1 Nat) :=
  List.replicate 6 (Label.compute 0) ++ List.replicate 12 (Label.io 0 .go) ++
    exitFromOutside

theorem awake_after_requestExit_of_notifyHeard_exitWhileWaiting :
    ∃ state : State Unit 1 1 Nat,
      (state.ioWorkers 0).point = .waiting (-1) ∧
      (∀ worker, ¬ (state.ioWorkers worker).Asleep) ∧
      ∀ worker, (state.computeWorkers worker).isWaiting = false := by
  have run : ((machine Unit Nat workerPair).replay initialState
      exitWhileWaiting).map (fun state => decide (
        (state.ioWorkers 0).point = .waiting (-1) ∧
        state.exitRequested = true ∧
        ∀ thread, (state.calls thread).leading = false)) = some true := by
    decide +kernel
  have guarded : (machine Unit Nat workerPair).Follows NotifyHeard
      initialState exitWhileWaiting := by decide +kernel
  obtain ⟨state, ends, found⟩ := Option.map_eq_some_iff.mp run
  obtain ⟨blocked, exiting, returned⟩ := of_decide_eq_true found
  exact ⟨state, blocked, awake_after_requestExit_of_notifyHeard workerPair
    state (System.ReachableUnder.replay exitWhileWaiting (.start rfl) guarded
      ends) ⟨exiting, returned⟩⟩

/-- `requestExit` runs between the compute worker's evaluation of the predicate
and its entry to the wait set. -/
def exitBeforeWait : List (Label Unit 1 1 Nat) :=
  List.replicate 5 (Label.compute 0) ++ exitFromOutside ++ [Label.compute 0]

theorem exitBeforeWait_asleep :
    ¬ ∀ state, (machine Unit Nat workerPair).Reachable state →
      state.ShutDown →
      (∀ worker, ¬ (state.ioWorkers worker).Asleep) ∧
        ∀ worker, (state.computeWorkers worker).isWaiting = false := by
  have run : ((machine Unit Nat workerPair).replay initialState
      exitBeforeWait).map (fun state => decide (
        (state.computeWorkers 0).isWaiting = true ∧
        state.exitRequested = true ∧
        ∀ thread, (state.calls thread).leading = false)) = some true := by
    decide +kernel
  obtain ⟨state, ends, found⟩ := Option.map_eq_some_iff.mp run
  obtain ⟨waits, exiting, returned⟩ := of_decide_eq_true found
  intro claimed
  have awake := (claimed state (System.Reachable.replay exitBeforeWait
    (.start rfl) ends) ⟨exiting, returned⟩).2 0
  rw [waits] at awake
  cases awake

end RopHive.Schedule
