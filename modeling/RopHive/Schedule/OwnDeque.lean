import RopHive.Schedule.LocalLoop

namespace RopHive.Schedule.LocalLoop

open Transition

/-! What a worker knows of its own deque: in which call of it the thread is,
and that it has found it empty when it goes to sleep. -/

section Points

variable {workers : Nat} {Task : Type}

/-- The points between a look at the deque that found nothing and the end of
the wait. -/
def dozes : IOPoint workers Task → Bool
  | .readGlobal | .readClock | .markSleeping _ => true
  | .enterWait timeout | .waiting timeout => timeout ≠ 0
  | _ => false

def callsDeque : IOPoint workers Task → Bool
  | .readLocal | .localPop _ | .offerSpace _ _ | .offerPush _ _ => true
  | _ => false

def runsUser : IOPoint workers Task → Bool
  | .running _ | .dispatching _ _ => true
  | _ => false

theorem awake_of_junction {point : IOPoint workers Task}
    (junction : point.junction = true) : dozes point = false := by
  cases point with
  | enterWait timeout => simpa [IOPoint.junction, dozes] using junction
  | checkStop | privateNext | timersClock | timersNext | localPop
  | offerSpace | stealPick | stealTake | returned => rfl
  | _ => cases junction

theorem awake_of_runsUser {point : IOPoint workers Task}
    (user : runsUser point = true) : dozes point = false := by
  cases point with
  | running | dispatching => rfl
  | _ => cases user

variable {options : Options} {self : Fin workers} {view : View workers Task}
  {worker : IOWorker workers Task} {choice : Choice workers}
  {outcome : Outcome workers Task}

theorem awake_onward {site : Site workers Task} :
    dozes site.onward = false := by
  obtain rfl | junction := junction_onward site
  · rfl
  · exact awake_of_junction junction

/-- Only the worker's look at its own deque sends it to sleep. -/
theorem awake_step (awake : dozes worker.point = false)
    (elsewhere : callsDeque worker.point = false)
    (stepped : worker.step options self view choice = some outcome) :
    dozes outcome.worker.point = false := by
  cases point : worker.point with
  | readLocal | localPop | offerSpace | offerPush =>
      rw [point] at elsewhere
      cases elsewhere
  | readGlobal | readClock | markSleeping =>
      rw [point] at awake
      cases awake
  | checkStop site =>
      simp only [IOWorker.step, point] at stepped
      cases stepped
      simp only [IOWorker.goto]
      split
      · exact awake_of_junction (junction_onStop site)
      · rfl
  | checkExit site =>
      simp only [IOWorker.step, point] at stepped
      cases stepped
      simp only [IOWorker.goto]
      split
      · exact awake_of_junction (junction_onStop site)
      · exact awake_onward
  | running errand =>
      simp only [IOWorker.step, point] at stepped
      cases stepped
      exact awake_of_junction (junction_done errand)
  | harvestCount batch =>
      simp only [IOWorker.step, point] at stepped
      cases stepped
      exact awake_of_junction (junction_haulNext _)
  | stealSize attempt victim =>
      simp only [IOWorker.step, point] at stepped
      cases stepped
      simp only [IOWorker.goto]
      split
      · rfl
      · exact awake_of_junction (junction_haulNext _)
  | stealTake attempt victim left stolen =>
      simp only [IOWorker.step, point] at stepped
      split at stepped <;> cases stepped
      · exact awake_of_junction
          (@junction_haulNext workers Task (.steal attempt victim 0 stolen))
      · rfl
  | enterWait timeout =>
      rw [point] at awake
      simp only [IOWorker.step, point] at stepped
      cases stepped
      exact awake
  | dispatching timeout woken =>
      cases woken with
      | _ =>
          simp only [IOWorker.step, point] at stepped
          repeat' split at stepped
          all_goals cases stepped
          all_goals rfl
  | harvestPop =>
      simp only [IOWorker.step, point] at stepped
      split at stepped <;> cases stepped
      · simp only [IOWorker.goto, IOWorker.stealOnce]
        split <;> rfl
      · rfl
  | draining commands =>
      cases commands with
      | _ =>
          simp only [IOWorker.step, point] at stepped
          cases stepped
          rfl
  | _ =>
      simp only [IOWorker.step, point] at stepped
      repeat' split at stepped
      all_goals cases stepped
      all_goals rfl

end Points

section Loop

variable {workers : Nat} {Task Thief : Type}

namespace State

variable (state : State workers Task Thief)

def used : Nat := state.deque.bottom - state.deque.top

def Placed : Prop :=
  match state.stage with
  | .loop => state.deque.owner = .idle
  | .popping ran =>
      state.deque.owner.pops = true ∧ state.worker.point = .localPop ran
  | .spaceTop haul task b =>
      state.deque.owner = .idle ∧ b = state.deque.bottom ∧
        state.worker.point = .offerSpace haul task
  | .pushing haul task =>
      state.deque.owner.pushes task ∧
        state.worker.point = .offerPush haul task
  | .postSpace _ _ | .postPush _ =>
      state.deque.owner = .idle ∧ runsUser state.worker.point = true
  | .posting task =>
      state.deque.owner.pushes task ∧ runsUser state.worker.point = true

end State

structure Keeps [Fintype Thief] (width : Nat) (options : Options)
    (state : State workers Task Thief) : Prop where
  sane : TaskDeque.Sane width options.localQueueCapacity state.deque
  placed : state.Placed
  empty : dozes state.worker.point = true → state.used = 0

variable [Fintype Thief] {width : Nat} {options : Options}
  {self : Fin workers} {state after : State workers Task Thief}

theorem keeps_initialState :
    Keeps width options (initialState : State workers Task Thief) :=
  ⟨TaskDeque.sane_initialState, rfl, nofun⟩

namespace Keeps

theorem of_awake
    (sane : TaskDeque.Sane width options.localQueueCapacity after.deque)
    (placed : after.Placed) (awake : dozes after.worker.point = false) :
    Keeps width options after :=
  ⟨sane, placed, fun dozing => by
    rw [awake] at dozing
    cases dozing⟩

theorem goto (keeps : Keeps width options state)
    (idle : state.deque.owner = .idle) {point : IOPoint workers Task}
    (awake : dozes point = false) : Keeps width options (state.goto point) :=
  of_awake keeps.sane idle awake

theorem afterPop {ran : Nat} (point : state.worker.point = .localPop ran)
    {deque : TaskDeque.State Task Thief}
    (sane : TaskDeque.Sane width options.localQueueCapacity deque)
    (ends : deque.owner.pops = true ∨ deque.owner = .idle) :
    Keeps width options
      (state.afterPop options ran deque { state with deque }) := by
  unfold State.afterPop
  split
  · next idle =>
      split
      · refine of_awake sane idle ?_
        simp only [State.goto, drained]
        split <;> rfl
      · exact of_awake sane idle rfl
      · exact of_awake sane idle rfl
  · next busy =>
      refine of_awake sane ⟨ends.resolve_right busy, point⟩ ?_
      simp only [point, dozes]

theorem afterPush {haul : Haul workers Task} {task : Task}
    (point : state.worker.point = .offerPush haul task)
    {deque : TaskDeque.State Task Thief}
    (sane : TaskDeque.Sane width options.localQueueCapacity deque)
    (ends : deque.owner.pushes task ∨ deque.owner = .idle) :
    Keeps width options
      (state.afterPush haul task deque { state with deque }) := by
  unfold State.afterPush
  split
  · next idle =>
      refine of_awake sane idle ?_
      simp only [State.goto]
      split
      · exact awake_of_junction (junction_haulNext haul)
      · rfl
  · next busy =>
      refine of_awake sane ⟨ends.resolve_right busy, point⟩ ?_
      simp only [point, dozes]

theorem afterPost {task : Task} (user : runsUser state.worker.point = true)
    {deque : TaskDeque.State Task Thief}
    (sane : TaskDeque.Sane width options.localQueueCapacity deque)
    (ends : deque.owner.pushes task ∨ deque.owner = .idle) :
    Keeps width options
      (State.afterPost task deque { state with deque }) := by
  have awake := awake_of_runsUser user
  unfold State.afterPost
  split
  · next idle => exact of_awake sane idle awake
  · next busy => exact of_awake sane ⟨ends.resolve_right busy, user⟩ awake

omit [Fintype Thief] in
theorem mayPost_iff : state.mayPost = true ↔
    state.stage = .loop ∧ runsUser state.worker.point = true := by
  unfold State.mayPost
  cases state.stage with
  | loop => cases state.worker.point <;> simp [runsUser]
  | _ => simp

variable [DecidableEq Thief]

theorem onDeque (keeps : Keeps width options state)
    (publishes : state.deque.mayPublish width = true)
    {label : TaskDeque.Label Task Thief}
    {onward : TaskDeque.State Task Thief → State workers Task Thief →
      State workers Task Thief}
    (stepped : state.onDeque width options label onward = some after) :
    ∃ deque, state.deque.step options.localQueueCapacity label = some deque ∧
      TaskDeque.Sane width options.localQueueCapacity deque ∧
      onward deque { state with deque } = after := by
  obtain ⟨deque, wordStepped, isAfter⟩ := Option.map_eq_some_iff.mp stepped
  have found := keeps.sane.of_wordStep publishes wordStepped
  exact ⟨deque, found, keeps.sane.step publishes found, isAfter⟩

omit [Fintype Thief] in
theorem used_le {deque : TaskDeque.State Task Thief}
    {label : TaskDeque.Label Task Thief} {actor : Thief}
    (consistent : TaskDeque.Consistent options.localQueueCapacity state.deque)
    (isThief : label.thief? = some actor)
    (stepped : state.deque.step options.localQueueCapacity label =
      some deque) :
    ({ state with deque } : State workers Task Thief).used ≤ state.used := by
  have bottom := TaskDeque.bottom_eq_of_step isThief stepped
  have climbs := TaskDeque.top_le_of_step consistent stepped
  simp only [State.used]
  omega

theorem thief (keeps : Keeps width options state)
    (publishes : state.deque.mayPublish width = true)
    {label : TaskDeque.Label Task Thief} {actor : Thief}
    (isThief : label.thief? = some actor)
    (stepped : state.onDeque width options label (fun _ => id) =
      some after) :
    Keeps width options after := by
  obtain ⟨deque, found, sane, rfl⟩ := keeps.onDeque publishes stepped
  have fewer := used_le keeps.sane.consistent isThief found
  have placed := keeps.placed
  refine ⟨sane, ?_, fun dozing => ?_⟩
  · simp only [State.Placed, id] at placed ⊢
    rw [TaskDeque.owner_eq_of_step isThief found,
      TaskDeque.bottom_eq_of_step isThief found]
    exact placed
  · have empty := keeps.empty dozing
    exact Nat.le_zero.mp (empty ▸ fewer)

omit [Fintype Thief] in
theorem pushes_or_idle {deque : TaskDeque.State Task Thief} {task : Task}
    (consistent : TaskDeque.Consistent options.localQueueCapacity state.deque)
    (pushes : state.deque.owner.pushes task)
    (stepped : state.deque.step options.localQueueCapacity .owner =
      some deque) : deque.owner.pushes task ∨ deque.owner = .idle := by
  obtain ⟨_, ⟨idle, _⟩ | ⟨published, _⟩ | ⟨_, still, _⟩⟩ :=
    TaskDeque.pushes_step consistent pushes stepped
  · exact .inr idle
  · left
    rw [published]
    trivial
  · exact .inl still

theorem loopStep (keeps : Keeps width options state)
    (publishes : state.deque.mayPublish width = true)
    {choice : Choice workers} {view : View workers Task}
    (stage : state.stage = .loop)
    (stepped : state.loopStep width options self choice view = some after) :
    Keeps width options after := by
  have idle := keeps.placed
  simp only [State.Placed, stage] at idle
  cases point : state.worker.point with
  | readLocal =>
      simp only [State.loopStep, point] at stepped
      cases stepped
      split
      · exact keeps.goto idle rfl
      · next isZero =>
          have empty := keeps.sane.empty_of_size idle (not_not.mp isZero)
          have none : state.used = 0 := by
            rw [State.used, empty, Nat.sub_self]
          exact ⟨keeps.sane, idle, fun _ => none⟩
  | localPop ran =>
      simp only [State.loopStep, point] at stepped
      split at stepped
      · obtain ⟨deque, found, sane, rfl⟩ := keeps.onDeque publishes stepped
        obtain ⟨_, ends⟩ := TaskDeque.pop_step keeps.sane.consistent found
        exact afterPop point sane (ends.imp_right And.left)
      · cases stepped
        refine keeps.goto idle ?_
        unfold drained
        split <;> rfl
  | offerSpace haul task =>
      simp only [State.loopStep, point] at stepped
      cases stepped
      refine of_awake keeps.sane ⟨idle, rfl, point⟩ ?_
      simp only [point, dozes]
  | offerPush haul task =>
      simp only [State.loopStep, point] at stepped
      obtain ⟨deque, found, sane, rfl⟩ := keeps.onDeque publishes stepped
      obtain ⟨_, rfl⟩ := TaskDeque.push_step found
      refine of_awake sane ⟨rfl, point⟩ ?_
      simp only [point, dozes]
  | _ =>
      simp only [State.loopStep, point] at stepped
      obtain ⟨outcome, found, rfl⟩ := Option.map_eq_some_iff.mp stepped
      refine ⟨keeps.sane, ?_, fun dozing => keeps.empty ?_⟩
      · simp only [State.Placed, stage]
        exact idle
      · by_contra awake
        rw [awake_step (by simpa using awake) (by rw [point]; rfl) found]
          at dozing
        cases dozing

theorem go (keeps : Keeps width options state)
    (publishes : state.deque.mayPublish width = true)
    {choice : Choice workers} {view : View workers Task}
    (stepped : state.go width options self choice view = some after) :
    Keeps width options after := by
  have placed := keeps.placed
  unfold State.go at stepped
  cases stage : state.stage with
  | loop =>
      simp only [stage] at stepped
      exact keeps.loopStep publishes stage stepped
  | popping ran =>
      simp only [stage] at stepped
      simp only [State.Placed, stage] at placed
      obtain ⟨deque, found, sane, rfl⟩ := keeps.onDeque publishes stepped
      have ends := TaskDeque.pops_step keeps.sane.consistent placed.1 found
      exact afterPop placed.2 sane (ends.imp_right And.left)
  | spaceTop haul task b =>
      simp only [stage] at stepped
      simp only [State.Placed, stage] at placed
      cases stepped
      refine keeps.goto placed.1 ?_
      split <;> rfl
  | pushing haul task =>
      simp only [stage] at stepped
      simp only [State.Placed, stage] at placed
      obtain ⟨deque, found, sane, rfl⟩ := keeps.onDeque publishes stepped
      exact afterPush placed.2 sane
        (pushes_or_idle keeps.sane.consistent placed.1 found)
  | postSpace task b =>
      simp only [stage] at stepped
      simp only [State.Placed, stage] at placed
      cases stepped
      refine of_awake keeps.sane ?_ (awake_of_runsUser placed.2)
      split
      · exact placed.1
      · exact placed
  | postPush task =>
      simp only [stage] at stepped
      simp only [State.Placed, stage] at placed
      obtain ⟨deque, found, sane, rfl⟩ := keeps.onDeque publishes stepped
      obtain ⟨_, rfl⟩ := TaskDeque.push_step found
      exact of_awake sane ⟨rfl, placed.2⟩ (awake_of_runsUser placed.2)
  | posting task =>
      simp only [stage] at stepped
      simp only [State.Placed, stage] at placed
      obtain ⟨deque, found, sane, rfl⟩ := keeps.onDeque publishes stepped
      exact afterPost placed.2 sane
        (pushes_or_idle keeps.sane.consistent placed.1 found)

theorem step (keeps : Keeps width options state)
    {label : Label workers Task Thief}
    (publishes : mayPublish width state label)
    (stepped : state.step width options self label = some after) :
    Keeps width options after := by
  cases label with
  | go choice view => exact keeps.go publishes stepped
  | post task =>
      simp only [State.step] at stepped
      split at stepped <;> cases stepped
      next mayPost =>
        obtain ⟨stage, user⟩ := mayPost_iff.mp mayPost
        have idle := keeps.placed
        simp only [State.Placed, stage] at idle
        exact of_awake keeps.sane ⟨idle, user⟩ (awake_of_runsUser user)
  | disturb inbound wakeup stopRequested =>
      cases stepped
      exact ⟨keeps.sane, keeps.placed, keeps.empty⟩
  | steal actor => exact keeps.thief publishes rfl stepped
  | thief actor => exact keeps.thief publishes rfl stepped

end Keeps

theorem Keeps.idle_of_dozes (keeps : Keeps width options state)
    (dozing : dozes state.worker.point = true) :
    state.deque.owner = .idle := by
  have placed := keeps.placed
  unfold State.Placed at placed
  have busy {point : IOPoint workers Task} (here : state.worker.point = point)
      (awake : dozes point = false) : False := by
    rw [here, awake] at dozing
    cases dozing
  split at placed
  · exact placed
  · exact (busy placed.2 rfl).elim
  · exact placed.1
  · exact (busy placed.2 rfl).elim
  · exact placed.1
  · exact placed.1
  · exact (busy rfl (awake_of_runsUser placed.2)).elim

variable [DecidableEq Thief]

theorem keeps_of_reachable
    (reached : (machine Task Thief width options self).ReachableUnder
      (mayPublish width) state) : Keeps width options state := by
  apply reached.invariant (Keeps width options)
  · intro _ isInitial
    cases isInitial
    exact keeps_initialState
  · intro state label after keeps publishes stepped
    exact keeps.step publishes stepped

/-- Between the calls of the owner `size_` is the number of tasks and of
thieves that have yet to subtract, so a zero is right; and a worker that blocks
has nothing in its own deque. -/
theorem size_exact_and_blocked_empty :
    (∀ (capacity : TaskDeque.Capacity) (deque : TaskDeque.State Task Thief),
      (TaskDeque.machine Task Thief capacity).Reachable deque →
        deque.owner = .idle → TaskDeque.CountsTasks deque) ∧
    ∀ (width : Nat) (options : Options) (self : Fin workers)
      (state : State workers Task Thief),
      (machine Task Thief width options self).ReachableUnder
          (mayPublish width) state →
        ∀ timeout, timeout ≠ 0 →
          (state.worker.point = .enterWait timeout ∨
            state.worker.point = .waiting timeout) →
          state.deque.bottom = state.deque.top := by
  constructor
  · intro capacity deque reached idle
    exact TaskDeque.countsTasks_of_reachable reached idle
  · intro width options self state reached timeout patient blocked
    have keeps := keeps_of_reachable reached
    have dozing : dozes state.worker.point = true := by
      obtain point | point := blocked
      · simpa [point, dozes] using patient
      · simpa [point, dozes] using patient
    have empty := keeps.empty dozing
    have ordered :=
      (keeps.sane.countsTasks (keeps.idle_of_dozes dozing)).ordered
    simp only [State.used] at empty
    omega

def nothingElse : View 1 Unit := ⟨false, 0, {}, fun _ => []⟩

def turns (count : Nat) : List (Label 1 Unit (Fin 1)) :=
  List.replicate count (.go .go nothingElse)

/-- A handler posts a task, and a thief takes it; its `fetch_sub` comes only
when the worker has been through one turn of the loop without a wait. -/
def stolenBehindWait : List (Label 1 Unit (Fin 1)) :=
  turns 13 ++ .post () :: turns 6 ++ [Label.steal 0, .thief 0, .thief 0] ++
    turns 22 ++ Label.thief 0 :: turns 24

/-- A push, and a steal up to its compare-and-swap. -/
def pushedAndStolen : List (TaskDeque.Label Unit (Fin 1)) :=
  [.push (some ()), .owner, .owner, .owner, .owner, .steal 0, .thief 0,
    .thief 0]

theorem size_exact_and_blocked_empty_stolen :
    (∃ deque : TaskDeque.State Unit (Fin 1), deque.pendingThieves = 1 ∧
      deque.size = 1 ∧ TaskDeque.CountsTasks deque) ∧
    ∃ state : State 1 Unit (Fin 1), state.worker.point = .waiting (-1) ∧
      state.deque.top = 1 ∧ state.deque.bottom = state.deque.top := by
  constructor
  · obtain ⟨deque, run, idle, pending, size⟩ : ∃ deque,
        (TaskDeque.machine Unit (Fin 1) ⟨1, Nat.one_pos⟩).replay
          TaskDeque.initialState pushedAndStolen = some deque ∧
        deque.owner = .idle ∧ deque.pendingThieves = 1 ∧ deque.size = 1 :=
      ⟨_, rfl, rfl, rfl, rfl⟩
    have reached := System.Reachable.replay pushedAndStolen (.start rfl) run
    exact ⟨deque, pending, size,
      (@size_exact_and_blocked_empty 1 Unit (Fin 1) _ _).1 _ deque reached
        idle⟩
  · obtain ⟨state, run, point, top⟩ : ∃ state,
        (machine Unit (Fin 1) 64 {} 0).replay initialState stolenBehindWait =
          some state ∧ state.worker.point = .waiting (-1) ∧
        state.deque.top = 1 := ⟨_, rfl, rfl, rfl⟩
    have follows : (machine Unit (Fin 1) 64 {} 0).Follows (mayPublish 64)
        initialState stolenBehindWait := by decide +kernel
    have reached :=
      System.ReachableUnder.replay stolenBehindWait (.start rfl) follows run
    exact ⟨state, point, top, size_exact_and_blocked_empty.2 64 {} 0 state
      reached (-1) (by decide) (.inr point)⟩

end Loop

end RopHive.Schedule.LocalLoop
