import RopHive.Schedule.OwnDeque

namespace RopHive.Schedule.LocalLoop

open Transition

/-! The room that `harvestGlobalBatch` finds in the worker's own deque. -/

section Points

variable {workers : Nat} {Task : Type}

def entersHarvest : IOPoint workers Task → Bool
  | .harvestPop => true
  | _ => false

/-- The tasks of a batch that are not in the deque yet. -/
def owed : IOPoint workers Task → List Task
  | .harvestCount batch => batch
  | .offerSpace (.harvest rest) task | .offerPush (.harvest rest) task =>
      task :: rest
  | _ => []

def runsHarvested : IOPoint workers Task → Bool
  | .running (.inline (.harvest _)) | .checkStop (.task (.inline (.harvest _)))
  | .checkExit (.task (.inline (.harvest _))) => true
  | _ => false

/-- What holds at a point of the loop, where `used` tasks are in the deque
and `limit` is its `maxSize`. -/
structure Asserts (limit used : Nat) (point : IOPoint workers Task) :
    Prop where
  empty : entersHarvest point = true → used = 0
  room : owed point = [] ∨ used + (owed point).length ≤ limit
  queued : runsHarvested point = false

structure Plain (point : IOPoint workers Task) : Prop where
  outside : entersHarvest point = false
  nothing : owed point = []
  queued : runsHarvested point = false

theorem Plain.asserts {point : IOPoint workers Task} (plain : Plain point)
    (limit used : Nat) : Asserts limit used point where
  empty := fun found => by
    rw [plain.outside] at found
    cases found
  room := .inl plain.nothing
  queued := plain.queued

theorem plain_haulNext {haul : Haul workers Task}
    (other : ∀ rest, haul ≠ .harvest rest) : Plain haul.next := by
  fun_cases Haul.next haul with
  | case1 | case2 => exact absurd rfl (other _)
  | case3 | case4 | case5 => exact ⟨rfl, rfl, rfl⟩

theorem plain_errand {errand : Errand workers Task}
    (queued : runsHarvested (.running errand) = false) :
    Plain errand.done ∧ Plain errand.next ∧ Plain errand.leave := by
  cases errand with
  | privateTasks | expiredTimers | localBatch =>
      exact ⟨⟨rfl, rfl, rfl⟩, ⟨rfl, rfl, rfl⟩, ⟨rfl, rfl, rfl⟩⟩
  | inline haul =>
      cases haul with
      | harvest rest => cases queued
      | steal attempt victim left stolen =>
          have onward := @plain_haulNext workers Task
            (.steal attempt victim left stolen) nofun
          exact ⟨onward, onward, ⟨rfl, rfl, rfl⟩⟩

theorem runsHarvested_checkExit (site : Site workers Task) :
    runsHarvested (.checkExit site) = runsHarvested (.checkStop site) := by
  cases site with
  | task errand =>
      cases errand with
      | inline haul => cases haul <;> rfl
      | _ => rfl
  | _ => rfl

theorem plain_site {site : Site workers Task}
    (queued : runsHarvested (.checkExit site) = false) :
    Plain site.onStop ∧ Plain site.onward ∧ Plain (.checkExit site) := by
  cases site with
  | task errand =>
      have same : runsHarvested (.running errand) = false := by
        cases errand with
        | inline haul =>
            cases haul with
            | harvest rest => cases queued
            | steal => rfl
        | _ => rfl
      have onward := plain_errand same
      refine ⟨onward.2.2, onward.2.1, rfl, rfl, ?_⟩
      cases errand with
      | inline haul =>
          cases haul with
          | harvest rest => cases queued
          | steal => rfl
      | _ => rfl
  | _ => exact ⟨⟨rfl, rfl, rfl⟩, ⟨rfl, rfl, rfl⟩, ⟨rfl, rfl, rfl⟩⟩

variable {options : Options} {self : Fin workers} {view : View workers Task}
  {worker : IOWorker workers Task} {choice : Choice workers}
  {outcome : Outcome workers Task} {limit used : Nat}

/-- Only `runLocalBatch` leads into `harvestGlobalBatch`. -/
theorem plain_step (elsewhere : callsDeque worker.point = false)
    (plain : Plain worker.point)
    (stepped : worker.step options self view choice = some outcome) :
    Plain outcome.worker.point := by
  cases point : worker.point with
  | readLocal | localPop | offerSpace | offerPush =>
      rw [point] at elsewhere
      cases elsewhere
  | harvestPop =>
      rw [point] at plain
      cases plain.outside
  | checkStop site =>
      rw [point] at plain
      obtain ⟨left, _, exit⟩ :=
        plain_site ((runsHarvested_checkExit site).trans plain.queued)
      simp only [IOWorker.step, point] at stepped
      cases stepped
      simp only [IOWorker.goto]
      split
      · exact left
      · exact exit
  | checkExit site =>
      rw [point] at plain
      obtain ⟨left, onward, _⟩ := plain_site plain.queued
      simp only [IOWorker.step, point] at stepped
      cases stepped
      simp only [IOWorker.goto]
      split
      · exact left
      · exact onward
  | running errand =>
      rw [point] at plain
      simp only [IOWorker.step, point] at stepped
      cases stepped
      exact (plain_errand plain.queued).1
  | harvestCount batch =>
      rw [point] at plain
      obtain rfl : batch = [] := plain.nothing
      simp only [IOWorker.step, point] at stepped
      cases stepped
      exact ⟨rfl, rfl, rfl⟩
  | stealSize attempt victim =>
      simp only [IOWorker.step, point] at stepped
      cases stepped
      simp only [IOWorker.goto]
      split
      · exact ⟨rfl, rfl, rfl⟩
      · exact plain_haulNext (by simp)
  | stealTake attempt victim left stolen =>
      simp only [IOWorker.step, point] at stepped
      split at stepped <;> cases stepped
      · exact @plain_haulNext workers Task (.steal attempt victim 0 stolen)
          (by simp)
      · exact ⟨rfl, rfl, rfl⟩
  | readClock =>
      simp only [IOWorker.step, point] at stepped
      split at stepped <;> cases stepped
      simp only [IOWorker.goto, IOWorker.block]
      split
      · exact ⟨rfl, rfl, rfl⟩
      · exact ⟨rfl, rfl, rfl⟩
  | dispatching timeout woken =>
      cases woken with
      | _ =>
          simp only [IOWorker.step, point] at stepped
          repeat' split at stepped
          all_goals cases stepped
          all_goals exact ⟨rfl, rfl, rfl⟩
  | draining commands =>
      cases commands with
      | _ =>
          simp only [IOWorker.step, point] at stepped
          cases stepped
          exact ⟨rfl, rfl, rfl⟩
  | _ =>
      simp only [IOWorker.step, point] at stepped
      repeat' split at stepped
      all_goals cases stepped
      all_goals exact ⟨rfl, rfl, rfl⟩

theorem asserts_step (small : options.globalBatchSize ≤ limit)
    (elsewhere : callsDeque worker.point = false)
    (asserts : Asserts limit used worker.point)
    (stepped : worker.step options self view choice = some outcome) :
    Asserts limit used outcome.worker.point ∧
      (owed outcome.worker.point = owed worker.point ∨
        worker.point = .harvestPop ∧
          ∃ batch, outcome.worker.point = .harvestCount batch) := by
  have known (empty : used = 0) {point : IOPoint workers Task}
      (nothing : owed point = []) (queued : runsHarvested point = false) :
      Asserts limit used point := ⟨fun _ => empty, .inl nothing, queued⟩
  cases point : worker.point with
  | harvestPop =>
      rw [point] at asserts
      have empty := asserts.empty rfl
      simp only [IOWorker.step, point] at stepped
      split at stepped <;> cases stepped
      · simp only [IOWorker.goto, IOWorker.stealOnce]
        split
        · exact ⟨known empty rfl rfl, .inl rfl⟩
        · exact ⟨known empty rfl rfl, .inl rfl⟩
      · refine ⟨⟨Bool.noConfusion, .inr ?_, rfl⟩, .inr ⟨rfl, _, rfl⟩⟩
        have length : (view.globalMicro.q.take options.globalBatchSize).length
            ≤ options.globalBatchSize := List.length_take_le _ _
        simp only [IOWorker.goto, owed]
        omega
  | harvestCount batch =>
      rw [point] at asserts
      simp only [IOWorker.step, point] at stepped
      cases stepped
      cases batch with
      | nil => exact ⟨⟨Bool.noConfusion, .inl rfl, rfl⟩, .inl rfl⟩
      | cons task rest =>
          exact ⟨⟨Bool.noConfusion, asserts.room, rfl⟩, .inl rfl⟩
  | readLocal | localPop | offerSpace | offerPush =>
      rw [point] at elsewhere
      cases elsewhere
  | _ =>
      have plain : Plain worker.point :=
        ⟨by rw [point]; rfl, by rw [point]; rfl, asserts.queued⟩
      have after := plain_step elsewhere plain stepped
      exact ⟨after.asserts limit used, .inl after.nothing⟩

end Points

section Loop

variable {workers : Nat} {Task Thief : Type}

theorem plain_of_runsUser {point : IOPoint workers Task}
    (user : runsUser point = true) :
    entersHarvest point = false ∧ owed point = [] := by
  cases point with
  | running | dispatching => exact ⟨rfl, rfl⟩
  | _ => cases user

def State.owed (state : State workers Task Thief) : List Task :=
  match state.stage, state.deque.owner with
  | .pushing _ _, .pushSize => (LocalLoop.owed state.worker.point).tail
  | _, _ => LocalLoop.owed state.worker.point

/-- There is room for all that is owed, and the batch of a harvest is what has
been queued and what is owed. -/
structure Harvests (options : Options) (state : State workers Task Thief)
    (harvest : Harvest Task) : Prop where
  empty : entersHarvest state.worker.point = true → state.used = 0
  room : state.owed = [] ∨
    state.used + state.owed.length ≤ IOWorker.maxLocal options
  queued : runsHarvested state.worker.point = false
  order : harvest.batch = harvest.queued ++ state.owed

namespace Harvests

variable {width : Nat} {options : Options} {self : Fin workers}
  {state after : State workers Task Thief} {harvest : Harvest Task}
  {haul : Haul workers Task} {task : Task}

theorem asserts (holds : Harvests options state harvest)
    (stage : state.stage = .loop) :
    Asserts (IOWorker.maxLocal options) state.used state.worker.point := by
  have room := holds.room
  simp only [State.owed, stage] at room
  exact ⟨holds.empty, room, holds.queued⟩

theorem of_loop (stage : after.stage = .loop)
    (asserts : Asserts (IOWorker.maxLocal options) after.used
      after.worker.point)
    (order : harvest.batch = harvest.queued ++ owed after.worker.point) :
    Harvests options after harvest where
  empty := asserts.empty
  room := by
    simp only [State.owed, stage]
    exact asserts.room
  queued := asserts.queued
  order := by
    simp only [State.owed, stage]
    exact order

theorem of_plain (holds : Harvests options state harvest)
    (owes : state.owed = []) (plain : Plain after.worker.point) :
    Harvests options after harvest := by
  have owesNothing : after.owed = [] := by
    unfold State.owed
    rw [plain.nothing]
    split <;> rfl
  refine ⟨fun enters => ?_, .inl owesNothing, plain.queued, ?_⟩
  · rw [plain.outside] at enters
    cases enters
  · rw [owesNothing, ← owes]
    exact holds.order

theorem owed_nil {state : State workers Task Thief}
    (nothing : owed state.worker.point = []) : state.owed = [] := by
  unfold State.owed
  rw [nothing]
  split <;> rfl

theorem of_user (holds : Harvests options state harvest)
    (user : runsUser state.worker.point = true)
    (same : after.worker = state.worker) :
    Harvests options after harvest := by
  obtain ⟨outside, nothing⟩ := plain_of_runsUser user
  refine holds.of_plain (owed_nil nothing) ?_
  rw [same]
  exact ⟨outside, nothing, holds.queued⟩

theorem afterPop (holds : Harvests options state harvest)
    {ran : Nat} (point : state.worker.point = .localPop ran)
    {deque : TaskDeque.State Task Thief}
    (emptied : deque.owner = .idle →
      state.deque.popped options.localQueueCapacity = none →
        deque.bottom = deque.top) :
    Harvests options
      (state.afterPop options ran deque { state with deque }) harvest := by
  have owes : state.owed = [] := owed_nil (by rw [point]; rfl)
  unfold State.afterPop
  split
  · next idle =>
      split
      · next isNone =>
          simp only [drained]
          split
          · exact holds.of_plain owes ⟨rfl, rfl, rfl⟩
          · have empty : deque.bottom - deque.top = 0 := by
              rw [emptied idle isNone, Nat.sub_self]
            have order := holds.order
            rw [owes] at order
            exact of_loop rfl ⟨fun _ => empty, .inl rfl, rfl⟩ order
      · exact holds.of_plain owes ⟨rfl, rfl, rfl⟩
      · exact holds.of_plain owes ⟨rfl, rfl, rfl⟩
  · refine holds.of_plain owes ?_
    simp only [point]
    exact ⟨rfl, rfl, rfl⟩

theorem owed_of_unpublished (point : state.worker.point = .offerPush haul task)
    (unpublished : state.deque.owner ≠ .pushSize) :
    state.owed = owed (.offerPush haul task) := by
  unfold State.owed
  rw [point]
  split
  · next isPushSize => exact absurd isPushSize unpublished
  · rfl

theorem hasSpace [Fintype Thief] (holds : Harvests options state harvest)
    (keeps : Keeps width options state) {rest : List Task} {b : Nat}
    (stage : state.stage = .spaceTop (.harvest rest) task b) :
    full options state.deque.top b = false := by
  have placed := keeps.placed
  have room := holds.room
  simp only [State.Placed, stage] at placed
  obtain ⟨idle, rfl, point⟩ := placed
  simp only [State.owed, stage, point, LocalLoop.owed, List.length_cons,
    reduceCtorEq, false_or, State.used] at room
  have ordered := (keeps.sane.countsTasks idle).ordered
  simp only [full, if_pos ordered]
  apply decide_eq_false
  omega

theorem hasRoom (holds : Harvests options state harvest)
    {rest : List Task}
    (point : state.worker.point = .offerPush (.harvest rest) task)
    (unpublished : state.deque.owner ≠ .pushSize) :
    state.deque.bottom - state.deque.top <
      options.localQueueCapacity.maxSize := by
  have room := holds.room
  rw [owed_of_unpublished point unpublished] at room
  simp only [LocalLoop.owed, List.length_cons, reduceCtorEq, false_or,
    State.used, IOWorker.maxLocal] at room
  omega

theorem accepted (holds : Harvests options state harvest)
    (stage : state.stage = .pushing haul task)
    (point : state.worker.point = .offerPush haul task)
    (finished : state.deque.owner = .pushSize)
    {deque : TaskDeque.State Task Thief} (sameTop : deque.top = state.deque.top)
    (sameBottom : deque.bottom = state.deque.bottom) :
    Harvests options
      (({ state with deque } : State workers Task Thief).goto haul.next)
      harvest := by
  have room := holds.room
  have order := holds.order
  simp only [State.owed, stage, finished, point] at room order
  have sameUsed : deque.bottom - deque.top = state.used := by
    rw [sameTop, sameBottom, State.used]
  cases haul with
  | steal attempt victim left stolen =>
      have plain := @plain_haulNext workers Task
        (.steal attempt victim left stolen) (by simp)
      exact of_loop rfl (plain.asserts _ _)
        (order.trans (congrArg _ plain.nothing.symm))
  | harvest rest =>
      cases rest with
      | nil => exact of_loop rfl ⟨Bool.noConfusion, .inl rfl, rfl⟩ order
      | cons next rest =>
          refine of_loop rfl ⟨Bool.noConfusion, ?_, rfl⟩ order
          change _ ∨ deque.bottom - deque.top + _ ≤ _
          rw [sameUsed]
          exact room

theorem goesOn (holds : Harvests options state harvest)
    (point : state.worker.point = .offerPush haul task)
    (unpublished : state.deque.owner ≠ .pushSize)
    {deque : TaskDeque.State Task Thief} (still : deque.owner ≠ .pushSize)
    (sameTop : deque.top = state.deque.top)
    (sameBottom : deque.bottom = state.deque.bottom) :
    Harvests options
      { state with
        deque := deque
        stage := .pushing haul task } harvest := by
  have sameUsed : deque.bottom - deque.top = state.used := by
    rw [sameTop, sameBottom, State.used]
  have owes := owed_of_unpublished point unpublished
  have owesStill := @owed_of_unpublished _ _ _
    { state with
      deque := deque
      stage := .pushing haul task } haul task point still
  refine ⟨?_, ?_, holds.queued, ?_⟩
  · intro enters
    rw [point] at enters
    cases enters
  · rw [owesStill, ← owes]
    change _ ∨ deque.bottom - deque.top + _ ≤ _
    rw [sameUsed]
    exact holds.room
  · rw [owesStill, ← owes]
    exact holds.order

theorem published (holds : Harvests options state harvest)
    (point : state.worker.point = .offerPush haul task)
    (unpublished : state.deque.owner ≠ .pushSize)
    {deque : TaskDeque.State Task Thief}
    (finished : deque.owner = .pushSize) (sameTop : deque.top = state.deque.top)
    (raised : deque.bottom = state.deque.bottom + 1) {later : Harvest Task}
    (isHarvest : ∀ rest, haul = .harvest rest →
      later = { harvest with queued := harvest.queued ++ [task] })
    (isSteal : (∀ rest, haul ≠ .harvest rest) → later = harvest) :
    Harvests options
      { state with
        deque := deque
        stage := .pushing haul task } later := by
  have room := holds.room
  have order := holds.order
  rw [owed_of_unpublished point unpublished] at room order
  refine ⟨?_, ?_, holds.queued, ?_⟩
  · intro enters
    rw [point] at enters
    cases enters
  · simp only [State.owed, finished, point]
    cases haul with
    | steal => exact .inl rfl
    | harvest rest =>
        simp only [LocalLoop.owed, reduceCtorEq, false_or, List.length_cons,
          State.used] at room
        simp only [LocalLoop.owed, List.tail_cons, State.used]
        omega
  · simp only [State.owed, finished, point]
    cases haul with
    | steal attempt victim left stolen =>
        rw [isSteal (by simp)]
        exact order
    | harvest rest =>
        rw [isHarvest rest rfl]
        simpa [LocalLoop.owed] using order

variable [Fintype Thief] [DecidableEq Thief]

theorem thief (holds : Harvests options state harvest)
    (keeps : Keeps width options state)
    (publishes : state.deque.mayPublish width = true)
    {label : TaskDeque.Label Task Thief} {actor : Thief}
    (isThief : label.thief? = some actor)
    (stepped : state.onDeque width options label (fun _ => id) =
      some after) :
    Harvests options after harvest := by
  obtain ⟨deque, found, _, rfl⟩ := keeps.onDeque publishes stepped
  have fewer := Keeps.used_le keeps.sane.consistent isThief found
  have sameOwed : ({ state with deque } : State workers Task Thief).owed =
      state.owed := by
    simp only [State.owed, TaskDeque.owner_eq_of_step isThief found]
  refine ⟨fun enters => ?_, ?_, holds.queued, ?_⟩
  · have empty := holds.empty enters
    exact Nat.le_zero.mp (empty ▸ fewer)
  · simp only [id, sameOwed]
    exact holds.room.imp_right fun room => by omega
  · simp only [id, sameOwed]
    exact holds.order

theorem pushing (holds : Harvests options state harvest)
    (keeps : Keeps width options state)
    (publishes : state.deque.mayPublish width = true)
    {choice : Choice workers} {view : View workers Task}
    (stage : state.stage = .pushing haul task)
    (stepped : state.onDeque width options .owner
      (state.afterPush haul task) = some after) :
    Harvests options after
      (observe state (.go choice view : Label workers Task Thief) after
        harvest) := by
  have placed := keeps.placed
  simp only [State.Placed, stage] at placed
  obtain ⟨pushes, point⟩ := placed
  obtain ⟨deque, found, sane, rfl⟩ := keeps.onDeque publishes stepped
  obtain ⟨sameTop, ⟨idle, sameBottom, finished | ⟨⟨b, begun⟩, isFull⟩⟩ |
    ⟨isPublished, raised, b, publishing⟩ |
    ⟨still, pushesStill, sameBottom, unfinished, unpublished⟩⟩ :=
    TaskDeque.pushes_step keeps.sane.consistent pushes found
  · have quiet (reached : State workers Task Thief) :
        observe state (.go choice view : Label workers Task Thief) reached
          harvest = harvest := by
      cases haul <;> simp only [observe, stage, finished]
    rw [quiet]
    simp only [State.afterPush, idle, State.accepts, finished, if_true]
    exact holds.accepted stage point finished sameTop sameBottom
  · cases haul with
    | harvest rest =>
        have room := holds.hasRoom point (by simp [begun])
        omega
    | steal attempt victim left stolen =>
        simp only [State.afterPush, idle, State.accepts, begun, observe, stage]
        exact holds.of_plain (owed_nil (by rw [point]; rfl)) ⟨rfl, rfl, rfl⟩
  · have onward : state.afterPush haul task deque { state with deque } =
        { state with
          deque := deque
          stage := .pushing haul task } := by
      simp only [State.afterPush, isPublished]
    rw [onward]
    refine holds.published point (by simp [publishing]) isPublished
      sameTop raised ?_ ?_
    · intro rest isHarvest
      simp only [observe, stage, isHarvest, publishing]
    · intro other
      cases haul with
      | harvest rest => exact absurd rfl (other rest)
      | steal => simp only [observe, stage]
  · have onward : state.afterPush haul task deque { state with deque } =
        { state with
          deque := deque
          stage := .pushing haul task } := by
      unfold State.afterPush
      split
      · next idle =>
          rw [idle] at pushesStill
          cases pushesStill
      · rfl
    have quiet (reached : State workers Task Thief) :
        observe state (.go choice view : Label workers Task Thief) reached
          harvest = harvest := by
      cases haul with
      | steal => simp only [observe, stage]
      | harvest rest => simp only [observe, stage]
    rw [onward, quiet]
    exact holds.goesOn point unfinished still sameTop sameBottom

theorem loopStep (holds : Harvests options state harvest)
    (keeps : Keeps width options state)
    (publishes : state.deque.mayPublish width = true)
    (batches : 1 ≤ options.localBatchSize)
    (small : options.globalBatchSize ≤ IOWorker.maxLocal options)
    {choice : Choice workers} {view : View workers Task}
    (stage : state.stage = .loop)
    (stepped : state.loopStep width options self choice view = some after) :
    Harvests options after
      (observe state (.go choice view : Label workers Task Thief) after
        harvest) := by
  have idle := keeps.placed
  simp only [State.Placed, stage] at idle
  have asserts := holds.asserts stage
  have order := holds.order
  simp only [State.owed, stage] at order
  have quiet (other : state.worker.point ≠ .harvestPop) :
      observe state (.go choice view : Label workers Task Thief) after
        harvest = harvest := by
    cases point : state.worker.point with
    | harvestPop => exact absurd point other
    | _ => simp only [observe, stage, point]
  cases point : state.worker.point with
  | readLocal =>
      rw [quiet (by simp [point])]
      simp only [State.loopStep, point] at stepped
      cases stepped
      refine holds.of_plain (owed_nil (by rw [point]; rfl)) ?_
      simp only [State.goto]
      split
      · exact ⟨rfl, rfl, rfl⟩
      · exact ⟨rfl, rfl, rfl⟩
  | localPop ran =>
      rw [quiet (by simp [point])]
      simp only [State.loopStep, point] at stepped
      split at stepped
      · obtain ⟨deque, found, _, rfl⟩ := keeps.onDeque publishes stepped
        obtain ⟨_, popping | ⟨_, emptied⟩⟩ :=
          TaskDeque.pop_step keeps.sane.consistent found
        · refine holds.afterPop point fun isIdle => ?_
          rw [isIdle] at popping
          cases popping
        · exact holds.afterPop point fun _ _ => emptied
      · cases stepped
        rw [drained, if_pos (by omega)]
        exact holds.of_plain (owed_nil (by rw [point]; rfl)) ⟨rfl, rfl, rfl⟩
  | offerSpace haul task =>
      rw [quiet (by simp [point])]
      simp only [State.loopStep, point] at stepped
      cases stepped
      exact ⟨asserts.empty, asserts.room, asserts.queued, order⟩
  | offerPush haul task =>
      rw [quiet (by simp [point])]
      simp only [State.loopStep, point] at stepped
      obtain ⟨deque, found, _, rfl⟩ := keeps.onDeque publishes stepped
      obtain ⟨_, rfl⟩ := TaskDeque.push_step found
      exact ⟨asserts.empty, asserts.room, asserts.queued, order⟩
  | harvestPop =>
      simp only [State.loopStep, point] at stepped
      obtain ⟨outcome, found, rfl⟩ := Option.map_eq_some_iff.mp stepped
      obtain ⟨assertsAfter, same | ⟨_, batch, isCount⟩⟩ :=
        asserts_step small (by rw [point]; rfl) asserts found
      · rw [← same] at order
        cases later : outcome.worker.point with
        | harvestCount batch =>
            rw [later] at same
            obtain rfl : batch = [] := same.trans (by rw [point]; rfl)
            refine of_loop stage assertsAfter ?_
            simp only [observe, stage, point, later, owed, List.append_nil]
        | _ =>
            have unbatched : observe state
                (.go choice view : Label workers Task Thief)
                { state with worker := outcome.worker } harvest = harvest := by
              simp only [observe, stage, point, later]
            rw [unbatched]
            exact of_loop stage assertsAfter order
      · refine of_loop stage assertsAfter ?_
        simp only [observe, stage, point, isCount, owed, List.nil_append]
  | _ =>
      rw [quiet (by simp [point])]
      simp only [State.loopStep, point] at stepped
      obtain ⟨outcome, found, rfl⟩ := Option.map_eq_some_iff.mp stepped
      obtain ⟨assertsAfter, same | ⟨isPop, _⟩⟩ :=
        asserts_step small (by rw [point]; rfl) asserts found
      · rw [← same] at order
        exact of_loop stage assertsAfter order
      · rw [point] at isPop
        cases isPop

theorem go (holds : Harvests options state harvest)
    (keeps : Keeps width options state)
    (publishes : state.deque.mayPublish width = true)
    (batches : 1 ≤ options.localBatchSize)
    (small : options.globalBatchSize ≤ IOWorker.maxLocal options)
    {choice : Choice workers} {view : View workers Task}
    (stepped : state.go width options self choice view = some after) :
    Harvests options after
      (observe state (.go choice view : Label workers Task Thief) after
        harvest) := by
  have placed := keeps.placed
  unfold State.go at stepped
  cases stage : state.stage with
  | loop =>
      simp only [stage] at stepped
      exact holds.loopStep keeps publishes batches small stage stepped
  | popping ran =>
      simp only [stage] at stepped
      simp only [observe, stage]
      simp only [State.Placed, stage] at placed
      obtain ⟨deque, found, _, rfl⟩ := keeps.onDeque publishes stepped
      obtain popping | ⟨_, emptied⟩ :=
        TaskDeque.pops_step keeps.sane.consistent placed.1 found
      · refine holds.afterPop placed.2 fun isIdle => ?_
        rw [isIdle] at popping
        cases popping
      · exact holds.afterPop placed.2 fun _ => emptied
  | spaceTop haul task b =>
      simp only [stage] at stepped
      cases stepped
      simp only [observe, stage]
      simp only [State.Placed, stage] at placed
      obtain ⟨idle, isBottom, point⟩ := placed
      have room := holds.room
      have order := holds.order
      have owes : state.owed = owed (.offerPush haul task) := by
        simp only [State.owed, stage, point]
        cases haul <;> rfl
      rw [owes] at room order
      split
      · next isFull =>
          cases haul with
          | harvest rest =>
              rw [holds.hasSpace keeps stage] at isFull
              cases isFull
          | steal attempt victim left stolen =>
              exact of_loop rfl ⟨Bool.noConfusion, .inl rfl, rfl⟩ order
      · exact of_loop rfl ⟨Bool.noConfusion, room, rfl⟩ order
  | pushing haul task =>
      simp only [stage] at stepped
      exact holds.pushing keeps publishes stage stepped
  | postSpace task b =>
      simp only [stage] at stepped
      cases stepped
      simp only [observe, stage]
      simp only [State.Placed, stage] at placed
      exact holds.of_user placed.2 rfl
  | postPush task =>
      simp only [stage] at stepped
      simp only [observe, stage]
      simp only [State.Placed, stage] at placed
      obtain ⟨deque, found, _, rfl⟩ := keeps.onDeque publishes stepped
      exact holds.of_user placed.2 rfl
  | posting task =>
      simp only [stage] at stepped
      simp only [observe, stage]
      simp only [State.Placed, stage] at placed
      obtain ⟨deque, found, _, rfl⟩ := keeps.onDeque publishes stepped
      refine holds.of_user placed.2 ?_
      unfold State.afterPost
      split <;> rfl

theorem step (holds : Harvests options state harvest)
    (keeps : Keeps width options state)
    {label : Label workers Task Thief}
    (publishes : mayPublish width state label)
    (batches : 1 ≤ options.localBatchSize)
    (small : options.globalBatchSize ≤ IOWorker.maxLocal options)
    (stepped : state.step width options self label = some after) :
    Harvests options after (observe state label after harvest) := by
  cases label with
  | go choice view => exact holds.go keeps publishes batches small stepped
  | post task =>
      simp only [State.step] at stepped
      split at stepped <;> cases stepped
      next mayPost =>
        exact holds.of_user (Keeps.mayPost_iff.mp mayPost).2 rfl
  | disturb inbound wakeup stopRequested =>
      cases stepped
      exact ⟨holds.empty, holds.room, holds.queued, holds.order⟩
  | steal actor => exact holds.thief keeps publishes rfl stepped
  | thief actor => exact holds.thief keeps publishes rfl stepped

end Harvests

end Loop

end RopHive.Schedule.LocalLoop
