import RopHive.Schedule.HarvestRoom

namespace RopHive.Schedule.LocalLoop

open Transition

/-! The fallback of `harvestGlobalBatch`, which runs a task in place when the
local deque does not take it. -/

section Fallback

variable {workers : Nat} {Task Thief : Type}

/-- The fallback is not used: a harvest begins with an empty deque, finds space
for each task, is refused no push, and queues the batch in order. -/
structure FallbackUnused (options : Options)
    (state : State workers Task Thief) (harvest : Harvest Task) : Prop where
  empty : state.worker.point = .harvestPop →
    state.deque.bottom = state.deque.top
  space : ∀ rest task b, state.stage = .spaceTop (.harvest rest) task b →
    full options state.deque.top b = false
  accepts : ∀ rest task pushed b,
    state.stage = .pushing (.harvest rest) task →
      state.deque.owner = .pushTop pushed b →
      pushed = task ∧ state.deque.top ≤ b ∧
        b - state.deque.top < options.localQueueCapacity.maxSize
  queues : ∀ rest, state.worker.point ≠ .running (.inline (.harvest rest))
  order : harvest.batch = harvest.queued ++ state.owed

variable {width : Nat} {options : Options} {self : Fin workers}
  {state : State workers Task Thief} {harvest : Harvest Task}

theorem harvests_initialState :
    Harvests options (initialState : State workers Task Thief) {} :=
  ⟨nofun, .inl rfl, rfl, rfl⟩

variable [Fintype Thief]

theorem FallbackUnused.of_harvests (keeps : Keeps width options state)
    (holds : Harvests options state harvest) :
    FallbackUnused options state harvest where
  empty := fun point => by
    have empty := holds.empty (by rw [point]; rfl)
    have placed := keeps.placed
    have idle : state.deque.owner = .idle := by
      unfold State.Placed at placed
      split at placed <;> simp_all [runsUser]
    have ordered := (keeps.sane.countsTasks idle).ordered
    simp only [State.used] at empty
    omega
  space := fun rest task b stage => holds.hasSpace keeps stage
  accepts := fun rest task pushed b stage begun => by
    have placed := keeps.placed
    have owner := keeps.sane.consistent.owner
    have ordered := keeps.sane.consistent.ledger.low_le_high
    simp only [State.Placed, stage, begun] at placed
    simp only [TaskDeque.State.OwnerConsistent, begun] at owner
    simp only [TaskDeque.State.frontier, begun] at ordered
    have room := holds.hasRoom placed.2 (by simp [begun])
    exact ⟨placed.1, by omega, by omega⟩
  queues := fun rest point => by
    have queued := holds.queued
    rw [point] at queued
    cases queued
  order := holds.order

variable [DecidableEq Thief]

/-- In every run in which no push is published while `bottom_` is the largest
value of its type. -/
theorem harvest_never_inline (batches : 1 ≤ options.localBatchSize)
    (small : options.globalBatchSize ≤ IOWorker.maxLocal options)
    (reached : (observed Task Thief width options self).ReachableUnder
      (fun observed => mayPublish width observed.1) (state, harvest)) :
    FallbackUnused options state harvest := by
  obtain ⟨keeps, holds⟩ := System.withHistory_invariant
    (fun state harvest => Keeps width options state ∧
      Harvests options state harvest)
    (fun _ isInitial => by
      cases isInitial
      exact ⟨keeps_initialState, harvests_initialState⟩)
    (fun state harvest label after both publishes stepped =>
      ⟨both.1.step publishes stepped,
        both.2.step both.1 publishes batches small stepped⟩) reached
  exact .of_harvests keeps holds

end Fallback

section Wrapping

/-- A worker of 32 bits that takes one task at a time. -/
def single : Options := { localBatchSize := 1, globalBatchSize := 1 }

abbrev solo : System (State 1 Unit (Fin 0)) (Label 1 Unit (Fin 0)) :=
  machine Unit (Fin 0) 32 single 0

abbrev soloObserved :
    System (State 1 Unit (Fin 0) × Harvest Unit) (Label 1 Unit (Fin 0)) :=
  observed Unit (Fin 0) 32 single 0

def again : Label 1 Unit (Fin 0) := .go .go nothingElse

def firstHarvest : List (Label 1 Unit (Fin 0)) :=
  List.replicate 21 again ++
    List.replicate 7 (Label.go .go { nothingElse with globalMicro := ⟨[()], 1⟩ })

theorem harvest_never_inline_first :
    ∃ observed : State 1 Unit (Fin 0) × Harvest Unit,
      observed.1.stage = .pushing (.harvest []) () ∧
        FallbackUnused single observed.1 observed.2 := by
  obtain ⟨observed, run, stage⟩ : ∃ after,
      soloObserved.replay (initialState, {}) firstHarvest = some after ∧
      after.1.stage = .pushing (.harvest []) () := ⟨_, rfl, rfl⟩
  have follows : soloObserved.Follows
      (fun observed => mayPublish 32 observed.1) (initialState, {})
      firstHarvest := by decide +kernel
  have start : soloObserved.ReachableUnder
      (fun observed => mayPublish 32 observed.1) (initialState, {}) :=
    .start ⟨rfl, rfl⟩
  have reached := start.replay firstHarvest follows run
  exact ⟨observed, stage,
    harvest_never_inline (by decide) (by decide) reached⟩

/-- `count` tasks have been pushed and popped, and the last one runs. -/
structure Respawning (count : Nat) (state : State 1 Unit (Fin 0)) :
    Prop where
  worker : state.worker = { point := .running (.localBatch 1) }
  stage : state.stage = .loop
  owner : state.deque.owner = .idle
  top : state.deque.top = count
  bottom : state.deque.bottom = count
  size : state.deque.size = 0

/-- The task has posted itself to the local deque again. -/
structure Posted (count : Nat) (point : IOPoint 1 Unit)
    (state : State 1 Unit (Fin 0)) : Prop where
  worker : state.worker = { point }
  stage : state.stage = .loop
  owner : state.deque.owner = .idle
  top : state.deque.top = count
  bottom : state.deque.bottom = (count + 1) % 2 ^ 32
  size : state.deque.size = 1
  slot : state.deque.buffer (single.localQueueCapacity.slot count) = some ()

variable {count : Nat} {state : State 1 Unit (Fin 0)}

theorem Respawning.post (respawning : Respawning count state)
    (small : count < 2 ^ 32) :
    ∃ after,
      solo.replay state (.post () :: List.replicate 6 again) = some after ∧
      Posted count (.running (.localBatch 1)) after := by
  obtain ⟨worker, deque, stage⟩ := state
  obtain ⟨buffer, top, bottom, size, owner, thieves, history, handouts⟩ :=
    deque
  obtain ⟨isWorker, isStage, isOwner, isTop, isBottom, isSize⟩ := respawning
  simp only at isWorker isStage isOwner isTop isBottom isSize
  subst isWorker isStage isOwner isTop isBottom isSize
  have fits : bottom % 2 ^ 32 = bottom := Nat.mod_eq_of_lt small
  have fitsNext : (bottom + 1) % 2 ^ 32 % 2 ^ 32 = (bottom + 1) % 2 ^ 32 :=
    Nat.mod_mod ..
  have space : full single bottom bottom = false := by
    simp only [full, le_refl, if_true, Nat.sub_self]
    rfl
  have roomy : ¬ single.localQueueCapacity.maxSize ≤
      (2 ^ 32 + bottom - bottom) % 2 ^ 32 := by
    rw [Nat.add_sub_cancel]
    decide
  apply Exists.intro
  apply And.intro
  · simp only [List.replicate]
    iterate 7
      rw [System.replay_cons]
      simp only [machine, State.step, State.mayPost, again, State.go, if_true,
        space, Bool.false_eq_true, if_false, State.onDeque,
        TaskDeque.State.wordStep, TaskDeque.State.step, TaskDeque.State.wrap,
        Option.map_some, fits, roomy, State.afterPost,
        TaskDeque.State.ownerStep, Option.bind_some]
    rfl
  · exact ⟨rfl, rfl, rfl, rfl, fitsNext, rfl, Function.update_self ..⟩

theorem Posted.loop
    (posted : Posted count (.running (.localBatch 1)) state) :
    ∃ after, solo.replay state (List.replicate 21 again) = some after ∧
      Posted count (.localPop 0) after := by
  obtain ⟨worker, deque, stage⟩ := state
  obtain ⟨buffer, top, bottom, size, owner, thieves, history, handouts⟩ :=
    deque
  obtain ⟨isWorker, isStage, isOwner, isTop, isBottom, isSize, slot⟩ := posted
  simp only at isWorker isStage isOwner isTop isBottom isSize
  subst isWorker isStage isOwner isTop isBottom isSize
  exact ⟨⟨{ point := .localPop 0 }, _, .loop⟩, rfl, rfl, rfl, rfl, rfl, rfl,
    rfl, slot⟩

theorem Posted.pop (posted : Posted count (.localPop 0) state)
    (small : count + 1 < 2 ^ 32) :
    ∃ after, solo.replay state (List.replicate 7 again) = some after ∧
      Respawning (count + 1) after := by
  obtain ⟨worker, deque, stage⟩ := state
  obtain ⟨buffer, top, bottom, size, owner, thieves, history, handouts⟩ :=
    deque
  obtain ⟨isWorker, isStage, isOwner, isTop, isBottom, isSize, slot⟩ := posted
  simp only at isWorker isStage isOwner isTop isBottom isSize slot
  subst isWorker isStage isOwner isTop isBottom isSize
  have fits : top % 2 ^ 32 = top := Nat.mod_eq_of_lt (by omega)
  have fitsNext : (top + 1) % 2 ^ 32 = top + 1 := Nat.mod_eq_of_lt small
  have runs : 0 < single.localBatchSize := Nat.one_pos
  apply Exists.intro
  apply And.intro
  · simp only [List.replicate]
    iterate 7
      rw [System.replay_cons]
      simp only [machine, State.step, again, State.go, State.loopStep, if_true,
        if_false, State.onDeque, TaskDeque.State.wordStep,
        TaskDeque.State.step, TaskDeque.State.ownerStep, TaskDeque.State.wrap,
        TaskDeque.State.popped, TaskDeque.State.takeSlot, State.afterPop,
        State.goto, Option.map_some, Option.bind_some, runs, fits, fitsNext,
        slot, Nat.add_one_ne_zero, Nat.add_sub_cancel, le_refl]
    rfl
  · exact ⟨rfl, rfl, rfl, rfl, rfl, rfl⟩

/-- `bottom_` is zero, and `tryPopBottom` takes that for an unused deque. -/
theorem Posted.strand (posted : Posted (2 ^ 32 - 1) (.localPop 0) state) :
    ∃ after, solo.replay state [again] = some after ∧
      after.worker.point = .harvestPop ∧
      after.deque.bottom ≠ after.deque.top := by
  obtain ⟨worker, deque, stage⟩ := state
  obtain ⟨buffer, top, bottom, size, owner, thieves, history, handouts⟩ :=
    deque
  obtain ⟨isWorker, isStage, isOwner, isTop, isBottom, isSize, slot⟩ := posted
  simp only at isWorker isStage isOwner isTop isBottom isSize
  subst isWorker isStage isOwner isTop isBottom isSize
  refine ⟨_, rfl, rfl, ?_⟩
  change (0 : Nat) ≠ 4294967295
  decide

theorem respawning_first :
    ∃ state, solo.Reachable state ∧ Respawning 1 state := by
  obtain ⟨state, run, respawning⟩ : ∃ after,
      solo.replay initialState (firstHarvest ++ List.replicate 27 again) =
        some after ∧
      Respawning 1 after :=
    ⟨_, rfl, rfl, rfl, rfl, rfl, rfl, rfl⟩
  have start : solo.Reachable initialState := .start rfl
  exact ⟨state, start.replay _ run, respawning⟩

theorem respawning_reachable (small : count + 1 < 2 ^ 32) :
    ∃ state, solo.Reachable state ∧ Respawning (count + 1) state := by
  induction count with
  | zero => exact respawning_first
  | succ count ih =>
      obtain ⟨running, reached, respawning⟩ := ih (by omega)
      obtain ⟨posted, run, isPosted⟩ := respawning.post (by omega)
      have reached := reached.replay _ run
      obtain ⟨again, run, isPosted⟩ := isPosted.loop
      have reached := reached.replay _ run
      obtain ⟨popped, run, respawning⟩ := isPosted.pop small
      exact ⟨popped, reached.replay _ run, respawning⟩

/-- The task has run 2^32 times, and the harvest begins while it is in the
deque once more. -/
theorem harvest_finds_task :
    1 ≤ single.localBatchSize ∧
      single.globalBatchSize ≤ IOWorker.maxLocal single ∧
      ¬ ∀ state harvest, soloObserved.Reachable (state, harvest) →
          FallbackUnused single state harvest := by
  refine ⟨by decide, by decide, fun unused => ?_⟩
  obtain ⟨running, reached, respawning⟩ :=
    @respawning_reachable (2 ^ 32 - 2) (by decide)
  obtain ⟨posted, run, isPosted⟩ := respawning.post (by decide)
  have reached := reached.replay _ run
  obtain ⟨looped, run, isPosted⟩ := isPosted.loop
  have reached := reached.replay _ run
  obtain ⟨after, run, point, holdsTask⟩ := isPosted.strand
  have reached := reached.replay _ run
  obtain ⟨harvest, reached⟩ := System.withHistory_reachable_iff.mpr reached
  exact holdsTask ((unused after harvest reached).empty point)

end Wrapping

end RopHive.Schedule.LocalLoop
