import RopHive.TaskDeque.Exclusivity
import RopHive.Transition.Threads

namespace RopHive.TaskDeque

open Transition

/-! What `size_` counts.  A push is added after it is published, and a claim is
subtracted after it is made. -/

section Frame

variable {Task Thief : Type} [DecidableEq Thief] {capacity : Capacity}
  {state after : State Task Thief} {label : Label Task Thief}

def Label.thief? : Label Task Thief → Option Thief
  | .steal actor | .thief actor => some actor
  | _ => none

theorem owner_eq_of_step {thief : Thief} (isThief : label.thief? = some thief)
    (stepped : state.step capacity label = some after) :
    after.owner = state.owner := by
  cases label with
  | push | pop | owner => cases isThief
  | steal | thief =>
      simp only [State.step, State.thiefStep] at stepped
      grind [State.takeSlot]

theorem thieves_eq_of_step {other : Thief} (apart : label.thief? ≠ some other)
    (stepped : state.step capacity label = some after) :
    after.thieves other = state.thieves other := by
  cases label with
  | push | pop =>
      simp only [State.step] at stepped
      grind
  | owner =>
      simp only [State.step, State.ownerStep] at stepped
      grind [State.takeSlot]
  | steal thief =>
      have differs : other ≠ thief := by
        rintro rfl
        exact apart rfl
      simp only [State.step] at stepped
      split at stepped <;> cases stepped
      exact Function.update_of_ne differs _ _
  | thief thief =>
      have differs : other ≠ thief := by
        rintro rfl
        exact apart rfl
      simp only [State.step, State.thiefStep] at stepped
      split at stepped
      · cases stepped
      · cases stepped
        exact Function.update_of_ne differs _ _
      · split at stepped <;> cases stepped <;>
          exact Function.update_of_ne differs _ _
      · cases stepped
        exact Function.update_of_ne differs _ _
      · cases stepped
        exact Function.update_of_ne differs _ _

end Frame

section Counter

variable {Task Thief : Type} {capacity : Capacity}

/-- How far `size_` is ahead of the unclaimed tasks on the owner's account. -/
def OwnerPoint.lag : OwnerPoint Task → Int
  | .pushSize => -1
  | .lastBottom _ _ | .lastSize _ _ | .popTake _ _ | .popSize _ _ => 1
  | _ => 0

def ThiefPoint.lag : ThiefPoint Task → Int
  | .size _ _ => 1
  | _ => 0

variable [Fintype Thief]

structure Counted (capacity : Capacity) (state : State Task Thief) : Prop where
  size_eq : state.size = state.frontier - state.top + state.owner.lag +
    total ThiefPoint.lag state.thieves
  room : (state.frontier : Int) - state.top + state.owner.lag ≤
    capacity.maxSize

theorem counted_initialState :
    Counted capacity (initialState : State Task Thief) where
  size_eq := by
    simp [initialState, State.frontier, OwnerPoint.lag, total, ThiefPoint.lag]
  room := by
    simp [initialState, State.frontier, OwnerPoint.lag]

namespace Counted

variable {state after : State Task Thief}

theorem ownerMove (counted : Counted capacity state)
    (sameThieves : after.thieves = state.thieves)
    (balance : after.size - state.size =
      ((after.frontier : Int) - after.top + after.owner.lag) -
        (state.frontier - state.top + state.owner.lag))
    (room : (after.frontier : Int) - after.top + after.owner.lag ≤
      capacity.maxSize) : Counted capacity after where
  size_eq := by
    have size_eq := counted.size_eq
    rw [sameThieves]
    omega
  room := room

theorem ownerStep (counted : Counted capacity state)
    (consistent : Consistent capacity state)
    (stepped : state.ownerStep capacity = some after) :
    Counted capacity after := by
  have room := counted.room
  have owner := consistent.owner
  have ordered := consistent.ledger.low_le_high
  have unclaimed := consistent.room
  cases point : state.owner with
  | idle => simp [State.ownerStep, point] at stepped
  | pushTop task b =>
      simp only [State.frontier, point, OwnerPoint.lag] at room
      simp only [State.ownerStep, point] at stepped
      split at stepped <;> cases stepped <;>
        refine counted.ownerMove rfl ?_ ?_ <;>
        simp only [State.frontier, point, OwnerPoint.lag] <;> omega
  | popTop b =>
      simp only [State.OwnerConsistent, point] at owner
      simp only [State.frontier, point, OwnerPoint.lag] at room ordered
      simp only [State.ownerStep, point] at stepped
      split at stepped
      · split at stepped <;> cases stepped <;>
          refine counted.ownerMove rfl ?_ ?_ <;>
          simp only [State.frontier, point, OwnerPoint.lag] <;> omega
      · cases stepped
        refine counted.ownerMove rfl ?_ ?_ <;>
          simp only [State.frontier, point, OwnerPoint.lag] <;> omega
  | popCas b =>
      simp only [State.frontier, point, OwnerPoint.lag] at room ordered
      simp only [State.ownerStep, point] at stepped
      split at stepped <;> cases stepped <;>
        refine counted.ownerMove rfl ?_ ?_ <;>
        simp only [State.frontier, point, OwnerPoint.lag] <;> omega
  | pushBottom task b | popBottom b =>
      simp only [State.OwnerConsistent, point] at owner
      simp only [State.frontier, point, OwnerPoint.lag] at room ordered
      simp only [State.ownerStep, point] at stepped
      cases stepped
      refine counted.ownerMove rfl ?_ ?_ <;>
        simp only [State.frontier, point, OwnerPoint.lag] <;> omega
  | _ =>
      simp only [State.frontier, point] at unclaimed
      simp only [State.frontier, point, OwnerPoint.lag] at room ordered
      simp only [State.ownerStep, point] at stepped
      cases stepped
      refine counted.ownerMove rfl ?_ ?_ <;>
        simp only [State.frontier, point, OwnerPoint.lag, State.takeSlot] <;>
        omega

variable [DecidableEq Thief]

theorem thiefMove (counted : Counted capacity state)
    {actor : Thief} {point : ThiefPoint Task}
    (moved : after.thieves = Function.update state.thieves actor point)
    (sameBottom : after.bottom = state.bottom)
    (sameOwner : after.owner = state.owner)
    (climbs : state.top ≤ after.top)
    (balance : after.size - state.size = (state.top : Int) - after.top +
      (point.lag - (state.thieves actor).lag)) :
    Counted capacity after := by
  have size_eq := counted.size_eq
  have room := counted.room
  have sameFrontier : after.frontier = state.frontier := by
    simp only [State.frontier, sameOwner, sameBottom]
  constructor
  · rw [moved, total_update, sameFrontier, sameOwner]
    omega
  · rw [sameFrontier, sameOwner]
    omega

theorem thiefStep (counted : Counted capacity state)
    {thief : Thief}
    (stepped : state.thiefStep capacity thief = some after) :
    Counted capacity after := by
  cases point : state.thieves thief with
  | idle => simp [State.thiefStep, point] at stepped
  | loadBottom t =>
      simp only [State.thiefStep, point] at stepped
      cases stepped
      refine counted.thiefMove rfl rfl rfl (Nat.le_refl _) ?_
      split <;> simp [point, ThiefPoint.lag]
  | cas t =>
      simp only [State.thiefStep, point] at stepped
      split at stepped <;> cases stepped
      · next wins =>
          refine counted.thiefMove rfl rfl rfl ?_ ?_
          · change state.top ≤ t + 1
            omega
          · simp [point, ThiefPoint.lag, wins]
      · refine counted.thiefMove rfl rfl rfl (Nat.le_refl _) ?_
        simp [point, ThiefPoint.lag]
  | size t claim | take t claim =>
      simp only [State.thiefStep, point] at stepped
      cases stepped
      refine counted.thiefMove rfl rfl rfl (Nat.le_refl _) ?_
      simp [point, ThiefPoint.lag, State.takeSlot]

theorem step (counted : Counted capacity state)
    (consistent : Consistent capacity state) {label : Label Task Thief}
    (stepped : state.step capacity label = some after) :
    Counted capacity after := by
  have starts {point : OwnerPoint Task} (idle : state.owner = .idle)
      (lag : point.lag = 0)
      (sameFrontier : { state with owner := point }.frontier = state.bottom) :
      Counted capacity { state with owner := point } := by
    have before : state.frontier = state.bottom := by
      simp [State.frontier, idle]
    have room := counted.room
    rw [before, idle] at room
    refine counted.ownerMove rfl ?_ ?_
    · rw [sameFrontier, before, idle, lag]
      simp [OwnerPoint.lag]
    · rw [sameFrontier, lag]
      exact room
  cases label with
  | push task =>
      simp only [State.step] at stepped
      split at stepped
      · cases stepped
        exact counted
      · next idle =>
          cases stepped
          exact starts idle rfl rfl
      · cases stepped
  | pop =>
      simp only [State.step] at stepped
      split at stepped
      · next idle =>
          split at stepped <;> cases stepped
          · exact counted
          · exact starts idle rfl rfl
      · cases stepped
  | owner => exact counted.ownerStep consistent stepped
  | steal thief =>
      simp only [State.step] at stepped
      split at stepped
      · next idle =>
          cases stepped
          refine counted.thiefMove rfl rfl rfl (Nat.le_refl _) ?_
          simp [idle, ThiefPoint.lag]
      · cases stepped
  | thief thief => exact counted.thiefStep stepped

end Counted

variable [DecidableEq Thief]

theorem counted_of_reachable {state : State Task Thief}
    (reached : (machine Task Thief capacity).Reachable state) :
    Counted capacity state := by
  apply (reached.invariant
    (fun state => Consistent capacity state ∧ Counted capacity state) _ _).2
  · rintro _ rfl
    exact ⟨consistent_initialState, counted_initialState⟩
  · rintro state label after ⟨consistent, counted⟩ stepped
    exact ⟨consistent.step stepped, counted.step consistent stepped⟩

/-- `size_` exceeds the capacity by the claims of thieves that are not
subtracted yet, at most. -/
theorem size_le_of_reachable {state : State Task Thief}
    (reached : (machine Task Thief capacity).Reachable state) :
    state.size ≤ capacity.maxSize + total ThiefPoint.lag state.thieves := by
  have counted := counted_of_reachable reached
  have size_eq := counted.size_eq
  have room := counted.room
  omega

end Counter

end RopHive.TaskDeque
