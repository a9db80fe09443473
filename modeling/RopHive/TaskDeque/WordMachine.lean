import Mathlib.Algebra.BigOperators.Ring.Finset
import RopHive.TaskDeque.Counter

namespace RopHive.TaskDeque

open Transition

/-! The step machine with `top_` and `bottom_` as the words they are.  As long
as no push is published at the largest word, it is the machine without
wrapping. -/

section Words

variable {Task Thief : Type}

def State.wrap (width : Nat) (state : State Task Thief) : State Task Thief :=
  { state with
    top := state.top % 2 ^ width
    bottom := state.bottom % 2 ^ width }

variable [DecidableEq Thief] (width : Nat) (capacity : Capacity)

def State.wordStep (state : State Task Thief) (label : Label Task Thief) :
    Option (State Task Thief) :=
  match label, state.owner with
  | .owner, .pushTop task b =>
      -- `b - t` is the difference of two words.
      if capacity.maxSize ≤ (2 ^ width + b - state.top) % 2 ^ width then
        some { state with owner := .idle }
      else
        some { state with owner := .pushWrite task b }
  | _, _ => (state.step capacity label).map (State.wrap width)

/-- A push that is about to be published leaves room for `bottom_ + 1`. -/
def State.mayPublish (state : State Task Thief) : Bool :=
  match state.owner with
  | .pushBottom _ b => b + 1 < 2 ^ width
  | _ => true

end Words

section Agreement

variable {Task Thief : Type} [DecidableEq Thief] {width : Nat}
  {capacity : Capacity} {state after : State Task Thief}
  {label : Label Task Thief}

theorem bottom_eq_of_step {actor : Thief}
    (isThief : label.thief? = some actor)
    (stepped : state.step capacity label = some after) :
    after.bottom = state.bottom := by
  cases label with
  | push | pop | owner => cases isThief
  | steal | thief =>
      simp only [State.step, State.thiefStep] at stepped
      grind [State.takeSlot]

theorem frontier_step (consistent : Consistent capacity state)
    (stepped : state.step capacity label = some after) :
    after.frontier ≤ state.frontier ∨
      ∃ task b, state.owner = .pushBottom task b ∧ after.frontier = b + 1 := by
  cases thief : label.thief? with
  | some actor =>
      have sameOwner := owner_eq_of_step thief stepped
      have sameBottom := bottom_eq_of_step thief stepped
      left
      simp only [State.frontier, sameOwner, sameBottom]
      exact Nat.le_refl _
  | none =>
      cases label with
      | steal | thief => cases thief
      | push task =>
          simp only [State.step] at stepped
          left
          split at stepped <;> cases stepped
          · exact Nat.le_refl _
          · next idle => simp [State.frontier, idle]
      | pop =>
          simp only [State.step] at stepped
          left
          split at stepped
          · next idle =>
              split at stepped <;> cases stepped
              · exact Nat.le_refl _
              · simp [State.frontier, idle]
          · cases stepped
      | owner =>
          have owner := consistent.owner
          simp only [State.step] at stepped
          cases point : state.owner with
          | idle => simp [State.ownerStep, point] at stepped
          | pushBottom task b =>
              simp only [State.ownerStep, point] at stepped
              cases stepped
              exact .inr ⟨task, b, rfl, rfl⟩
          | _ =>
              left
              simp only [State.OwnerConsistent, point] at owner
              simp only [State.ownerStep, point] at stepped
              grind [State.frontier, State.takeSlot]

theorem frontier_lt (consistent : Consistent capacity state)
    (fits : state.frontier < 2 ^ width)
    (publishes : state.mayPublish width = true)
    (stepped : state.step capacity label = some after) :
    after.frontier < 2 ^ width := by
  obtain lower | ⟨task, b, point, raised⟩ := frontier_step consistent stepped
  · exact Nat.lt_of_le_of_lt lower fits
  · rw [State.mayPublish, point] at publishes
    rw [raised]
    exact of_decide_eq_true publishes

theorem wordStep_eq (consistent : Consistent capacity state)
    (fits : state.frontier < 2 ^ width)
    (publishes : state.mayPublish width = true) :
    state.wordStep width capacity label = state.step capacity label := by
  unfold State.wordStep
  split
  · next task b point =>
      have owner := consistent.owner
      have ordered := consistent.ledger.low_le_high
      simp only [State.OwnerConsistent, point] at owner
      simp only [State.frontier, point] at ordered fits
      have difference : (2 ^ width + b - state.top) % 2 ^ width =
          b - state.top := by
        rw [show 2 ^ width + b - state.top = b - state.top + 2 ^ width by
          omega, Nat.add_mod_right]
        exact Nat.mod_eq_of_lt (by omega)
      simp only [difference, State.step, State.ownerStep, point]
      by_cases full : capacity.maxSize ≤ b - state.top
      · rw [if_pos full, if_pos (.inr full)]
      · rw [if_neg full, if_neg (by omega)]
  · next label _ _ _ =>
      cases stepped : state.step capacity label with
      | none => rfl
      | some after =>
          have consistentAfter := consistent.step stepped
          have fitsAfter := frontier_lt consistent fits publishes stepped
          have ordered := consistentAfter.ledger.low_le_high
          have below := consistentAfter.bottom_le_frontier
          have sameTop : after.top % 2 ^ width = after.top :=
            Nat.mod_eq_of_lt (by omega)
          have sameBottom : after.bottom % 2 ^ width = after.bottom :=
            Nat.mod_eq_of_lt (by omega)
          simp [State.wrap, sameTop, sameBottom]

end Agreement

section Claims

variable {Task Thief : Type} [Fintype Thief]

/-- The thief has won its compare-and-swap and not yet reached its
`fetch_sub`. -/
def ThiefPoint.pending : ThiefPoint Task → Bool
  | .size _ _ => true
  | _ => false

def State.pendingThieves (state : State Task Thief) : Nat :=
  (Finset.univ.filter fun thief => (state.thieves thief).pending).card

theorem total_lag (state : State Task Thief) :
    total ThiefPoint.lag state.thieves = state.pendingThieves := by
  rw [State.pendingThieves, Finset.natCast_card_filter, total]
  apply Finset.sum_congr rfl
  intro thief _
  cases state.thieves thief <;> rfl

variable [DecidableEq Thief] {capacity : Capacity}

omit [DecidableEq Thief] in
theorem lag_le_top_initialState :
    total ThiefPoint.lag (initialState : State Task Thief).thieves ≤
      (initialState : State Task Thief).top := by
  simp [initialState, total, ThiefPoint.lag]

theorem lag_le_top_step {state after : State Task Thief}
    {label : Label Task Thief}
    (bounded : total ThiefPoint.lag state.thieves ≤ state.top)
    (stepped : state.step capacity label = some after) :
    total ThiefPoint.lag after.thieves ≤ after.top := by
  have moves (actor : Thief) (point : ThiefPoint Task)
      (moved : after.thieves = Function.update state.thieves actor point)
      (balance : point.lag - (state.thieves actor).lag ≤
        (after.top : Int) - state.top) :
      total ThiefPoint.lag after.thieves ≤ after.top := by
    rw [moved, total_update]
    omega
  cases label with
  | push task | pop =>
      simp only [State.step] at stepped
      grind
  | owner =>
      simp only [State.step, State.ownerStep] at stepped
      grind [State.takeSlot]
  | steal thief =>
      simp only [State.step] at stepped
      split at stepped <;> cases stepped
      next idle => exact moves thief _ rfl (by simp [idle, ThiefPoint.lag])
  | thief thief =>
      simp only [State.step, State.thiefStep] at stepped
      split at stepped
      · cases stepped
      · next t point =>
          cases stepped
          refine moves thief _ rfl ?_
          split <;> simp [point, ThiefPoint.lag]
      · next t point =>
          split at stepped <;> cases stepped
          · next wins =>
              exact moves thief _ rfl (by simp [point, ThiefPoint.lag, wins])
          · exact moves thief _ rfl (by simp [point, ThiefPoint.lag])
      · next t claim point =>
          cases stepped
          exact moves thief _ rfl (by simp [point, ThiefPoint.lag])
      · next t claim point =>
          cases stepped
          exact moves thief _ rfl
            (by simp [point, ThiefPoint.lag, State.takeSlot])

/-- What `size_` is to the owner between its calls. -/
structure CountsTasks (state : State Task Thief) : Prop where
  ordered : state.top ≤ state.bottom
  exact : state.size =
    (state.bottom : Int) - state.top + state.pendingThieves
  unwrapped : 0 ≤ state.size ∧ state.size ≤ state.bottom
  empty : state.size = 0 → state.bottom = state.top

omit [DecidableEq Thief] in
theorem countsTasks_of_idle {state : State Task Thief}
    (consistent : Consistent capacity state)
    (counted : Counted capacity state)
    (bounded : total ThiefPoint.lag state.thieves ≤ state.top)
    (idle : state.owner = .idle) : CountsTasks state := by
  have ordered := consistent.ledger.low_le_high
  have size_eq := counted.size_eq
  rw [total_lag] at size_eq bounded
  simp only [State.frontier, idle, OwnerPoint.lag] at ordered size_eq
  exact ⟨ordered, by omega, by omega, by omega⟩

end Claims

section OwnerCalls

variable {Task Thief : Type} [DecidableEq Thief] {capacity : Capacity}
  {state after : State Task Thief}

def OwnerPoint.pops : OwnerPoint Task → Bool
  | .popBottom _ | .popTop _ | .popCas _ | .popRestore _ | .lastBottom _ _
  | .lastSize _ _ | .lastTake _ _ | .popTake _ _ | .popSize _ _ => true
  | _ => false

def OwnerPoint.pushes (task : Task) : OwnerPoint Task → Prop
  | .pushTop pushed _ | .pushWrite pushed _ | .pushBottom pushed _ =>
      pushed = task
  | .pushSize => True
  | _ => False

/-- What `tryPopBottom` returns with the owner's next step. -/
def State.popped (capacity : Capacity) (state : State Task Thief) :
    Option (Option Task) :=
  match state.owner with
  | .lastTake b _ => some (state.buffer (capacity.slot b))
  | .popSize item _ => some item
  | _ => none

theorem pops_step (consistent : Consistent capacity state)
    (popping : state.owner.pops = true)
    (stepped : state.step capacity .owner = some after) :
    after.owner.pops = true ∨ after.owner = .idle ∧
      (state.popped capacity = none → after.bottom = after.top) := by
  have owner := consistent.owner
  simp only [State.step] at stepped
  cases point : state.owner with
  | idle | pushTop | pushWrite | pushBottom | pushSize =>
      rw [point] at popping
      cases popping
  | popTop b =>
      simp only [State.ownerStep, point] at stepped
      repeat' split at stepped
      all_goals cases stepped
      all_goals exact .inl rfl
  | popCas b =>
      simp only [State.ownerStep, point] at stepped
      split at stepped <;> cases stepped <;> exact .inl rfl
  | popRestore b =>
      simp only [State.OwnerConsistent, point] at owner
      simp only [State.ownerStep, point] at stepped
      cases stepped
      exact .inr ⟨rfl, fun _ => owner.2.symm⟩
  | popBottom b | lastBottom b claim | lastSize b claim | popTake b claim =>
      simp only [State.ownerStep, point] at stepped
      cases stepped
      exact .inl rfl
  | lastTake b claim | popSize b claim =>
      simp only [State.ownerStep, point] at stepped
      cases stepped
      refine .inr ⟨rfl, fun nothing => ?_⟩
      simp [State.popped, point] at nothing

theorem pop_step (consistent : Consistent capacity state)
    (stepped : state.step capacity .pop = some after) :
    state.owner = .idle ∧ (after.owner.pops = true ∨
      after.owner = .idle ∧ after.bottom = after.top) := by
  have ordered := consistent.ledger.low_le_high
  simp only [State.step] at stepped
  split at stepped
  · next idle =>
      simp only [State.frontier, idle] at ordered
      split at stepped <;> cases stepped
      · exact ⟨idle, .inr ⟨idle, by omega⟩⟩
      · exact ⟨idle, .inl rfl⟩
  · cases stepped

theorem push_step {task : Task}
    (stepped : state.step capacity (.push (some task)) = some after) :
    state.owner = .idle ∧
      after = { state with owner := .pushTop task state.bottom } := by
  simp only [State.step] at stepped
  split at stepped
  · next isNone => cases isNone
  · next idle isSome =>
      cases isSome
      cases stepped
      exact ⟨idle, rfl⟩
  · cases stepped

theorem pushes_step {task : Task} (consistent : Consistent capacity state)
    (pushing : state.owner.pushes task)
    (stepped : state.step capacity .owner = some after) :
    after.top = state.top ∧
    (after.owner = .idle ∧ after.bottom = state.bottom ∧
        (state.owner = .pushSize ∨ (∃ b, state.owner = .pushTop task b) ∧
          capacity.maxSize ≤ state.bottom - state.top) ∨
      after.owner = .pushSize ∧ after.bottom = state.bottom + 1 ∧
        (∃ b, state.owner = .pushBottom task b) ∨
      after.owner ≠ .pushSize ∧ after.owner.pushes task ∧
        after.bottom = state.bottom ∧ state.owner ≠ .pushSize ∧
        ∀ pushed b, state.owner ≠ .pushBottom pushed b) := by
  have owner := consistent.owner
  have ordered := consistent.ledger.low_le_high
  simp only [State.step] at stepped
  cases point : state.owner with
  | pushTop pushed b =>
      simp only [State.OwnerConsistent, point] at owner
      simp only [State.frontier, point] at ordered
      rw [point] at pushing
      obtain rfl : pushed = task := pushing
      simp only [State.ownerStep, point] at stepped
      split at stepped <;> cases stepped
      · exact ⟨rfl, .inl ⟨rfl, rfl, .inr ⟨⟨b, rfl⟩, by omega⟩⟩⟩
      · exact ⟨rfl, .inr (.inr ⟨by simp, rfl, rfl, by simp, by simp⟩)⟩
  | pushWrite pushed b =>
      rw [point] at pushing
      simp only [State.ownerStep, point] at stepped
      cases stepped
      exact ⟨rfl, .inr (.inr ⟨by simp, pushing, rfl, by simp, by simp⟩)⟩
  | pushBottom pushed b =>
      rw [point] at pushing
      obtain rfl : pushed = task := pushing
      simp only [State.OwnerConsistent, point] at owner
      simp only [State.ownerStep, point] at stepped
      cases stepped
      refine ⟨rfl, .inr (.inl ⟨rfl, ?_, b, rfl⟩)⟩
      rw [owner.1]
  | pushSize =>
      simp only [State.ownerStep, point] at stepped
      cases stepped
      exact ⟨rfl, .inl ⟨rfl, rfl, .inl rfl⟩⟩
  | _ =>
      rw [point] at pushing
      cases pushing

end OwnerCalls

section Sanity

variable {Task Thief : Type} [DecidableEq Thief] [Fintype Thief] {width : Nat}
  {capacity : Capacity}

/-- What holds of a deque whose indices have not wrapped. -/
structure Sane (width : Nat) (capacity : Capacity)
    (state : State Task Thief) : Prop where
  consistent : Consistent capacity state
  counted : Counted capacity state
  bounded : total ThiefPoint.lag state.thieves ≤ state.top
  fits : state.frontier < 2 ^ width

omit [DecidableEq Thief] in
theorem sane_initialState :
    Sane width capacity (initialState : State Task Thief) where
  consistent := consistent_initialState
  counted := counted_initialState
  bounded := lag_le_top_initialState
  fits := Nat.two_pow_pos width

namespace Sane

variable {state after : State Task Thief} {label : Label Task Thief}

theorem step (sane : Sane width capacity state)
    (publishes : state.mayPublish width = true)
    (stepped : state.step capacity label = some after) :
    Sane width capacity after where
  consistent := sane.consistent.step stepped
  counted := sane.counted.step sane.consistent stepped
  bounded := lag_le_top_step sane.bounded stepped
  fits := frontier_lt sane.consistent sane.fits publishes stepped

theorem of_wordStep (sane : Sane width capacity state)
    (publishes : state.mayPublish width = true)
    (stepped : state.wordStep width capacity label = some after) :
    state.step capacity label = some after := by
  rwa [wordStep_eq sane.consistent sane.fits publishes] at stepped

omit [DecidableEq Thief] in
theorem countsTasks (sane : Sane width capacity state)
    (idle : state.owner = .idle) : CountsTasks state :=
  countsTasks_of_idle sane.consistent sane.counted sane.bounded idle

omit [DecidableEq Thief] in
theorem empty_of_size (sane : Sane width capacity state)
    (idle : state.owner = .idle) (isZero : state.size % 2 ^ width = 0) :
    state.bottom = state.top := by
  have counts := sane.countsTasks idle
  have fits := sane.fits
  obtain ⟨nonneg, below⟩ := counts.unwrapped
  simp only [State.frontier, idle] at fits
  have small : state.size < 2 ^ width := by
    calc
      state.size ≤ state.bottom := below
      _ < (2 ^ width : Nat) := Int.ofNat_lt.mpr fits
      _ = 2 ^ width := by push_cast; rfl
  rw [Int.emod_eq_of_lt nonneg small] at isZero
  exact counts.empty isZero

end Sane

theorem lag_le_top_of_reachable {state : State Task Thief}
    (reached : (machine Task Thief capacity).Reachable state) :
    total ThiefPoint.lag state.thieves ≤ state.top := by
  apply reached.invariant
    (fun state => total ThiefPoint.lag state.thieves ≤ state.top) _ _
  · intro _ isInitial
    cases isInitial
    exact lag_le_top_initialState
  · intro state label after bounded stepped
    exact lag_le_top_step bounded stepped

theorem countsTasks_of_reachable {state : State Task Thief}
    (reached : (machine Task Thief capacity).Reachable state)
    (idle : state.owner = .idle) : CountsTasks state :=
  countsTasks_of_idle (consistent_of_reachableUnder reached)
    (counted_of_reachable reached) (lag_le_top_of_reachable reached) idle

end Sanity

end RopHive.TaskDeque
