import RopHive.Schedule.Hive
import RopHive.Transition.Threads

namespace RopHive.Schedule

open Transition

/-! Whether a task in the global pool can be left behind by sleeping workers.
`approx_size_` lags behind the pool by what is between a locked section and the
atomic operation after it. -/

section Counting

variable {workers computers : Nat} {Task : Type}

/-- Tasks taken from the pool and not yet subtracted. -/
def IOPoint.uncounted : IOPoint workers Task → Int
  | .harvestCount batch => batch.length
  | _ => 0

/-- Tasks pushed into the pool and not yet added. -/
def Call.uncounted : Call workers computers Task → Int
  | .microCount => 1
  | _ => 0

/-- The worker has decided to wait without a timeout. -/
def IOPoint.endless : IOPoint workers Task → Bool
  | .markSleeping timeout | .enterWait timeout | .waiting timeout =>
      timeout = -1
  | _ => false

theorem uncounted_of_junction {point : IOPoint workers Task}
    (junction : point.junction) : point.uncounted = 0 := by
  cases point with
  | harvestCount batch => cases junction
  | _ => rfl

theorem uncounted_onward (site : Site workers Task) :
    site.onward.uncounted = 0 := by
  rcases junction_onward site with rfl | junction
  · rfl
  · exact uncounted_of_junction junction

theorem endless_of_junction {point : IOPoint workers Task}
    (junction : point.junction) : point.endless = false := by
  cases point with
  | enterWait timeout =>
      simp only [IOPoint.junction, decide_eq_true_eq] at junction
      simp [IOPoint.endless, junction]
  | markSleeping timeout | waiting timeout => cases junction
  | _ => rfl

theorem endless_onward (site : Site workers Task) :
    site.onward.endless = false := by
  rcases junction_onward site with rfl | junction
  · rfl
  · exact endless_of_junction junction

end Counting

namespace IOWorker

variable {workers : Nat} {Task : Type}

/-- The worker has decided to wait without a timeout, and nothing has been
written to its eventfd. -/
def Committed (worker : IOWorker workers Task) : Prop :=
  worker.point.endless ∧ worker.wakeup = 0

instance (worker : IOWorker workers Task) : Decidable worker.Committed :=
  inferInstanceAs (Decidable (_ ∧ _))

/-- The worker is blocked in `runOnce(-1)` with an empty eventfd. -/
def Blocked (worker : IOWorker workers Task) : Prop :=
  worker.point = .waiting (-1) ∧ worker.wakeup = 0

instance [DecidableEq Task] (worker : IOWorker workers Task) :
    Decidable worker.Blocked :=
  inferInstanceAs (Decidable (_ ∧ _))

theorem Blocked.committed {worker : IOWorker workers Task}
    (blocked : worker.Blocked) : worker.Committed :=
  ⟨by rw [blocked.1]; rfl, blocked.2⟩

variable {options : Options} {self : Fin workers} {view : View workers Task}
  {worker : IOWorker workers Task} {choice : Choice workers}
  {outcome : Outcome workers Task}

/-- A step moves the pool's counter and the pool's length apart by what it
leaves uncounted. -/
theorem step_uncounted
    (stepped : worker.step options self view choice = some outcome) :
    outcome.globalMicro.approxSize - outcome.globalMicro.q.length -
        outcome.worker.point.uncounted =
      view.globalMicro.approxSize - view.globalMicro.q.length -
        worker.point.uncounted := by
  cases point : worker.point with
  | harvestPop =>
      simp only [step, point] at stepped
      split at stepped <;> cases stepped
      · simp only [goto, stealOnce]
        split <;> simp [IOPoint.uncounted]
      · simp only [goto, IOPoint.uncounted, List.length_take, List.length_drop]
        omega
  | harvestCount batch =>
      simp only [step, point] at stepped
      cases stepped
      simp only [goto, uncounted_of_junction (junction_haulNext _)]
      simp only [IOPoint.uncounted]
      omega
  | _ =>
      simp only [step, point] at stepped
      grind -linarith [goto, start, block, IOPoint.uncounted,
        uncounted_of_junction, junction_haulNext, junction_done,
        junction_onStop, uncounted_onward]

/-- A worker decides to wait without a timeout only after it has read zero
from the pool's counter. -/
theorem step_committed
    (stepped : worker.step options self view choice = some outcome)
    (committed : outcome.worker.Committed) :
    worker.Committed ∨
      worker.point = .readGlobal ∧ view.globalMicro.approxSize = 0 := by
  unfold Committed at committed ⊢
  cases point : worker.point with
  | readClock =>
      simp only [step, point] at stepped
      have := timeoutUntil_nonneg
      grind -linarith [goto, block, IOPoint.endless]
  | _ =>
      simp only [step, point] at stepped
      grind -linarith [goto, start, block, stealOnce, IOPoint.endless,
        endless_of_junction, junction_haulNext, junction_done,
        junction_onStop, endless_onward]

theorem step_pool
    (stepped : worker.step options self view choice = some outcome)
    (left : outcome.globalMicro.q ≠ []) : view.globalMicro.q ≠ [] := by
  cases point : worker.point with
  | harvestPop =>
      simp only [step, point] at stepped
      split at stepped <;> cases stepped
      · exact left
      · rintro empty
        simp [empty] at left
  | _ =>
      simp only [step, point] at stepped
      grind -linarith [goto, start]

end IOWorker

section Posting

variable {Outside : Type} {workers computers : Nat} {Task : Type}

/-- The call has pushed its task into the global pool and has not yet woken
anyone for it. -/
def Call.posting : Call workers computers Task → Bool
  | .microCount | .scan _ | .wakeIdle _ => true
  | _ => false

def Call.inPostIo : Call workers computers Task → Bool
  | .microPush _ => true
  | call => call.posting

theorem inPostIo_of_posting {call : Call workers computers Task}
    (posts : call.posting) : call.inPostIo := by
  cases call with
  | microPush task => rfl
  | _ => exact posts

namespace State

variable (state : State Outside workers computers Task)

/-- A task is in the global pool, no `postIO` is in progress and every IO
worker is blocked in `runOnce(-1)` with an empty eventfd. -/
def Stranded : Prop :=
  state.globalMicro.q ≠ [] ∧
    (∀ thread, (state.calls thread).inPostIo = false) ∧
    ∀ worker, (state.ioWorkers worker).Blocked

instance [Fintype Outside] [DecidableEq Task] : Decidable state.Stranded :=
  inferInstanceAs (Decidable (_ ∧ _))

/-- A task in the global pool has someone who will see to it: a poster that
has yet to look for a sleeper, or a worker that does not wait for good. -/
def Heeded : Prop :=
  state.globalMicro.q = [] ∨ (∃ thread, (state.calls thread).posting) ∨
    ∃ worker, ¬ (state.ioWorkers worker).Committed

/-- What `approx_size_` would be with every push and pop counted, less the
length of the pool. -/
def discrepancy [Fintype Outside] : Int :=
  state.globalMicro.approxSize - state.globalMicro.q.length +
    total Call.uncounted state.calls -
    total IOPoint.uncounted fun worker => (state.ioWorkers worker).point

end State

/-- When `wakeOneIdleIOWorker` finds the last worker awake too and gives up,
some other poster is still to look, or some worker has not yet decided to wait
for good. -/
def SleeperFound (state : State Outside workers computers Task)
    (label : Label Outside workers computers Task) : Prop :=
  ∀ thread worker, label.advances = some thread →
    state.calls thread = .scan worker → worker.val + 1 = workers →
    (state.ioWorkers worker).sleeping = false →
    state.globalMicro.q = [] ∨
      (∃ other, other ≠ thread ∧ (state.calls other).posting) ∨
      ∃ other, ¬ (state.ioWorkers other).Committed

instance [Fintype Outside] [DecidableEq Outside] [DecidableEq Task]
    (state : State Outside workers computers Task)
    (label : Label Outside workers computers Task) :
    Decidable (SleeperFound state label) :=
  inferInstanceAs (Decidable (∀ _ _, _ → _))

variable {config : Config workers computers}
  {state after : State Outside workers computers Task}

theorem enter_uncounted (thread : Thread Outside workers computers)
    (request : Request workers Task) :
    (state.enter thread request).1.uncounted = 0 := by
  fun_cases State.enter state thread request <;>
    simp only [*] <;> grind -linarith [Call.uncounted]

@[simp] theorem scanFrom_uncounted (index : Nat) :
    (Call.scanFrom index : Call workers computers Task).uncounted = 0 := by
  fun_cases Call.scanFrom index <;> rfl

@[simp] theorem computeStopFrom_uncounted (index : Nat) :
    (Call.computeStopFrom index : Call workers computers Task).uncounted =
      0 := by
  fun_cases Call.computeStopFrom index <;> rfl

@[simp] theorem exitStopFrom_uncounted (index : Nat) :
    (Call.exitStopFrom index : Call workers computers Task).uncounted = 0 := by
  fun_cases Call.exitStopFrom index
  · rfl
  · exact computeStopFrom_uncounted 0

theorem callEffect_uncounted {waiter : Option (Fin computers)}
    {call next : Call workers computers Task}
    {changed : State Outside workers computers Task}
    (found : state.callEffect config waiter call = some (changed, next)) :
    changed.globalMicro.approxSize - changed.globalMicro.q.length +
        next.uncounted =
      state.globalMicro.approxSize - state.globalMicro.q.length +
        call.uncounted := by
  cases call with
  | microPush task =>
      cases found
      simp only [State.record, Call.uncounted, List.length_append,
        List.length_singleton]
      omega
  | microCount =>
      cases found
      simp only [scanFrom_uncounted]
      simp only [Call.uncounted]
      omega
  | computeNotify =>
      simp only [State.callEffect] at found
      split at found <;> split at found <;> cases found <;> rfl
  | _ =>
      simp only [State.callEffect] at found
      grind -linarith [Call.uncounted, scanFrom_uncounted,
        computeStopFrom_uncounted, exitStopFrom_uncounted, State.record,
        State.setWorker, State.notify, State.stopWorker]

variable [DecidableEq Outside] [Fintype Outside]

theorem discrepancy_step {label : Label Outside workers computers Task}
    (stepped : state.step config label = some after) :
    after.discrepancy = state.discrepancy := by
  cases label with
  | call thread request =>
      simp only [State.step] at stepped
      split at stepped
      · next idle =>
          split at stepped <;> cases stepped
          simp only [State.discrepancy, State.begin, State.setCall,
            total_update, enter_uncounted, idle]
          simp only [Call.uncounted]
          omega
      · cases stepped
  | advance thread waiter =>
      obtain ⟨⟨changed, next⟩, found, rfl⟩ := Option.map_eq_some_iff.mp stepped
      have counted := callEffect_uncounted found
      have samePoints : (fun worker => (changed.ioWorkers worker).point) =
          fun worker => (state.ioWorkers worker).point := by
        funext worker
        exact (state.callEffect_disturbs found worker).point
      simp only [State.discrepancy, State.setCall, total_update, samePoints,
        state.callEffect_calls found]
      omega
  | io worker choice =>
      simp only [State.step] at stepped
      split at stepped
      · obtain ⟨outcome, found, rfl⟩ := State.ioStep_cases stepped
        have counted := IOWorker.step_uncounted found
        have points : (fun other => (Function.update
              (state.rob outcome.robbed).ioWorkers worker outcome.worker
                other).point) =
            Function.update (fun other => (state.ioWorkers other).point) worker
              outcome.worker.point := by
          funext other
          by_cases same : other = worker
          · rw [same, Function.update_self, Function.update_self]
          · rw [Function.update_of_ne same, Function.update_of_ne same,
              State.rob_ioWorkers]
        simp only [State.discrepancy, State.setWorker, points, total_update,
          State.rob_calls]
        simp only [State.view] at counted
        omega
      · cases stepped
  | compute worker =>
      simp only [State.step] at stepped
      split at stepped
      · obtain ⟨outcome, _, rfl⟩ := Option.map_eq_some_iff.mp stepped
        rfl
      · cases stepped
  | tick nanos =>
      cases stepped
      rfl

namespace State.Heeded

omit [DecidableEq Outside] [Fintype Outside] in
theorem carry (heeded : state.Heeded)
    (pool : state.globalMicro.q = [] → after.globalMicro.q = [])
    (posting : ∀ thread, (state.calls thread).posting →
      (after.calls thread).posting)
    (committed : ∀ worker, (after.ioWorkers worker).Committed →
      (state.ioWorkers worker).Committed) : after.Heeded := by
  rcases heeded with empty | ⟨thread, posts⟩ | ⟨worker, awake⟩
  · exact .inl (pool empty)
  · exact .inr (.inl ⟨thread, posting thread posts⟩)
  · exact .inr (.inr ⟨worker, fun sleeps => awake (committed worker sleeps)⟩)

omit [Fintype Outside] in
theorem callStep (heeded : state.Heeded) (inhabited : 0 < workers)
    {thread : Thread Outside workers computers}
    {waiter : Option (Fin computers)}
    (sleeper : SleeperFound state (.advance thread waiter))
    (stepped : state.callStep config thread waiter = some after) :
    after.Heeded := by
  obtain ⟨⟨changed, next⟩, found, rfl⟩ := Option.map_eq_some_iff.mp stepped
  have stillPosting (posts : next.posting) :
      (changed.setCall thread next).Heeded :=
    .inr (.inl ⟨thread, by simpa [State.setCall] using posts⟩)
  cases point : state.calls thread with
  | microPush task =>
      rw [point] at found
      cases found
      exact stillPosting rfl
  | microCount =>
      rw [point] at found
      cases found
      exact stillPosting (by simp [Call.scanFrom, inhabited, Call.posting])
  | scan worker =>
      rw [point] at found
      cases found
      by_cases sleeping : (state.ioWorkers worker).sleeping
      · exact stillPosting (by simp [sleeping, Call.posting])
      by_cases last : worker.val + 1 < workers
      · exact stillPosting (by
          simp [sleeping, Call.scanFrom, last, Call.posting])
      · -- The scan ends without having woken anyone.
        have worker_lt := worker.isLt
        rcases sleeper thread worker rfl point (by omega)
          (by simpa using sleeping) with empty | ⟨other, differs, posts⟩ | awake
        · exact .inl empty
        · refine .inr (.inl ⟨other, ?_⟩)
          simpa [State.setCall, differs] using posts
        · exact .inr (.inr awake)
  | wakeIdle worker =>
      rw [point] at found
      cases found
      refine .inr (.inr ⟨worker, fun committed => ?_⟩)
      simp [IOWorker.Committed, State.setCall, State.notify, State.setWorker]
        at committed
  | _ =>
      rw [point] at found
      refine heeded.carry ?_ ?_ ?_
      · intro empty
        simp [State.setCall, state.callEffect_pool found, empty, Call.pooling]
      · intro other posts
        have differs : other ≠ thread := by
          rintro rfl
          rw [point] at posts
          cases posts
        simpa [State.setCall, differs, state.callEffect_calls found] using posts
      · intro worker committed
        have disturbed := state.callEffect_disturbs found worker
        have notified := disturbed.wakeup
        simp only [State.setCall, IOWorker.Committed, disturbed.point]
          at committed
        exact ⟨committed.1, by omega⟩

omit [DecidableEq Outside] in
/-- A worker that reads zero from the counter while the pool is not empty has
overtaken a poster between its push and its addition. -/
theorem of_overtaken (balanced : state.discrepancy = 0)
    (counter : state.globalMicro.approxSize = 0) :
    state.globalMicro.q = [] ∨
      ∃ thread, (state.calls thread).posting := by
  by_cases empty : state.globalMicro.q = []
  · exact .inl empty
  · have length := List.length_pos_of_ne_nil empty
    have taken : 0 ≤ total IOPoint.uncounted fun worker =>
        (state.ioWorkers worker).point := by
      apply total_nonneg
      intro point
      cases point <;> simp [IOPoint.uncounted]
    have pushed : 0 < total Call.uncounted state.calls := by
      simp only [State.discrepancy] at balanced
      omega
    obtain ⟨thread, counts⟩ := exists_of_total_pos pushed
    refine .inr ⟨thread, ?_⟩
    cases point : state.calls thread <;>
      simp_all [Call.uncounted, Call.posting]

theorem step (heeded : state.Heeded) (balanced : state.discrepancy = 0)
    (inhabited : 0 < workers) {label : Label Outside workers computers Task}
    (sleeper : SleeperFound state label)
    (stepped : state.step config label = some after) : after.Heeded := by
  cases label with
  | call thread request =>
      simp only [State.step] at stepped
      split at stepped
      · next idle =>
          split at stepped <;> cases stepped
          refine heeded.carry id ?_ fun _ committed => committed
          intro other posts
          have differs : other ≠ thread := by
            rintro rfl
            rw [idle] at posts
            cases posts
          simpa [State.begin, State.setCall, differs] using posts
      · cases stepped
  | advance thread waiter => exact heeded.callStep inhabited sleeper stepped
  | io worker choice =>
      simp only [State.step] at stepped
      split at stepped
      · obtain ⟨outcome, found, rfl⟩ := State.ioStep_cases stepped
        have pool (empty : state.globalMicro.q = []) :
            outcome.globalMicro.q = [] := by
          by_contra left
          exact IOWorker.step_pool found left empty
        by_cases overtaken : (state.ioWorkers worker).point = .readGlobal ∧
            state.globalMicro.approxSize = 0
        · rcases of_overtaken balanced overtaken.2 with empty | posting
          · exact .inl (pool empty)
          · exact .inr (.inl (by simpa [State.setWorker] using posting))
        · refine heeded.carry pool ?_ ?_
          · intro thread posts
            simpa [State.setWorker] using posts
          · intro other committed
            by_cases same : other = worker
            · subst same
              simp only [State.setWorker, Function.update_self] at committed
              exact (IOWorker.step_committed found committed).resolve_right
                overtaken
            · simpa [State.setWorker, same, State.rob_ioWorkers,
                IOWorker.Committed] using committed
      · cases stepped
  | compute worker =>
      simp only [State.step] at stepped
      split at stepped
      · obtain ⟨outcome, _, rfl⟩ := Option.map_eq_some_iff.mp stepped
        exact heeded
      · cases stepped
  | tick nanos =>
      cases stepped
      exact heeded

end State.Heeded

theorem heeded_of_reachableUnder (inhabited : 0 < workers)
    (reached : (machine Outside Task config).ReachableUnder SleeperFound
      state) : state.discrepancy = 0 ∧ state.Heeded := by
  refine reached.invariant
    (fun state => state.discrepancy = 0 ∧ state.Heeded) ?_ ?_
  · rintro _ rfl
    refine ⟨?_, .inl rfl⟩
    simp [State.discrepancy, initialState, total, Call.uncounted,
      IOPoint.uncounted]
  · rintro state label after ⟨balanced, heeded⟩ sleeper stepped
    exact ⟨(discrepancy_step stepped).trans balanced,
      heeded.step balanced inhabited sleeper stepped⟩

/-- In every run in which no scan for a sleeper gives up while all workers are
committed to waiting for good, a posted task is never left to blocked workers,
with any number of workers and posters. -/
theorem not_stranded_of_sleeperFound
    (config : Config workers computers) (inhabited : 0 < workers)
    (state : State Outside workers computers Task)
    (reached : (machine Outside Task config).ReachableUnder SleeperFound
      state) : ¬ state.Stranded := by
  rintro ⟨posted, quiet, blocked⟩
  rcases (heeded_of_reachableUnder inhabited reached).2 with
    empty | ⟨thread, posts⟩ | ⟨worker, awake⟩
  · exact posted empty
  · have busy := quiet thread
    rw [inPostIo_of_posting posts] at busy
    cases busy
  · exact awake (blocked worker).committed

end Posting

def loneWorker : Config 1 0 where
  io := fun _ => {}
  computeBatchSize := Fin.elim0

def decideToWait : List (Label Unit 1 0 Nat) :=
  List.replicate 10 (.io 0 .go)

def postOne (steps : Nat) : List (Label Unit 1 0 Nat) :=
  .call (.outside ()) (.postIo (some 5)) ::
    List.replicate steps (.advance (.outside ()) none)

/-- The worker is asleep when the task is posted. -/
def postToSleeper : List (Label Unit 1 0 Nat) :=
  decideToWait ++ [Label.io 0 .go, .io 0 .go] ++ postOne 4 ++
    List.replicate 6 (Label.io 0 .woken)

theorem not_stranded_of_sleeperFound_postToSleeper :
    ∃ state : State Unit 1 0 Nat,
      (state.ioWorkers 0).point = .privateNext ∧ ¬ state.Stranded := by
  have run : ((machine Unit Nat loneWorker).replay initialState
      postToSleeper).map (fun state => (state.ioWorkers 0).point) =
        some .privateNext := by decide +kernel
  have guarded : (machine Unit Nat loneWorker).Follows SleeperFound
      initialState postToSleeper := by decide +kernel
  obtain ⟨state, ends, point⟩ := Option.map_eq_some_iff.mp run
  exact ⟨state, point, not_stranded_of_sleeperFound loneWorker Nat.one_pos
    state (System.ReachableUnder.replay postToSleeper (.start rfl) guarded
      ends)⟩

/-- The task is posted between the worker's decision and its store to
`sleeping_`. -/
def postBeforeSleep : List (Label Unit 1 0 Nat) :=
  decideToWait ++ postOne 3 ++ [Label.io 0 .go, .io 0 .go]

theorem postBeforeSleep_stranded :
    ¬ ∀ state, (machine Unit Nat loneWorker).Reachable state →
      state.exitRequested = false →
      (∀ worker, (state.ioWorkers worker).stopRequested = false) →
      ¬ state.Stranded := by
  have run : ((machine Unit Nat loneWorker).replay initialState
      postBeforeSleep).map (fun state => decide (state.Stranded ∧
        state.exitRequested = false ∧
        ∀ worker, (state.ioWorkers worker).stopRequested = false)) =
          some true := by decide +kernel
  obtain ⟨state, ends, found⟩ := Option.map_eq_some_iff.mp run
  obtain ⟨stranded, running, unstopped⟩ := of_decide_eq_true found
  intro claimed
  exact claimed state (System.Reachable.replay postBeforeSleep (.start rfl)
    ends) running unstopped stranded

end RopHive.Schedule
