import Mathlib.Data.Fintype.Basic
import Mathlib.Logic.Equiv.Basic
import RopHive.TaskDeque.Exclusivity

namespace RopHive.TaskDeque

open Transition

/-! Which task a claim hands out.  A slot is relied upon by whoever will read
it: an unclaimed push, the owner between writing and publishing or between
claiming and moving out, a thief between its compare-and-swap and its move. -/

inductive Occupant (Thief : Type) where
  | entry (index : Nat)
  | owner
  | thief (thief : Thief)
  deriving DecidableEq

section Payload

variable {Task Thief : Type} {capacity : Capacity}

/-- The index an occupant relies on, with the task it expects there. -/
def State.occupies (state : State Task Thief) :
    Occupant Thief → Option (Nat × Option Task)
  | .entry index => (owed state.history index).map fun task =>
      (index, some task)
  | .owner =>
      match state.owner with
      | .pushBottom task b => some (b, some task)
      | .lastBottom b claim | .lastSize b claim | .lastTake b claim
      | .popTake b claim => some (b, claim)
      | _ => none
  | .thief thief =>
      match state.thieves thief with
      | .size t claim | .take t claim => some (t, claim)
      | _ => none

/-- A handout is intact when it is the task its claim is entitled to, which is
not the empty function. -/
def Handout.Intact (handout : Handout Task) : Prop :=
  ∃ task, handout.claim = some task ∧ handout.value = some task

/-- Every occupant's slot holds the task it expects, and no two occupants
share a slot. -/
structure Intact (capacity : Capacity) (state : State Task Thief) : Prop where
  content : ∀ occupant index expected,
    state.occupies occupant = some (index, expected) →
    ∃ task, expected = some task ∧
      state.buffer (capacity.slot index) = some task
  apart : ∀ first second firstIndex secondIndex firstTask secondTask,
    first ≠ second →
    state.occupies first = some (firstIndex, firstTask) →
    state.occupies second = some (secondIndex, secondTask) →
    capacity.slot firstIndex ≠ capacity.slot secondIndex
  item : ∀ item claim, state.owner = .popSize item claim →
    Handout.Intact ⟨claim, item⟩
  handouts : ∀ handout ∈ state.handouts, handout.Intact

theorem intact_initialState :
    Intact capacity (initialState : State Task Thief) where
  content := by
    rintro (index | _ | thief) index' expected occupied <;>
      simp [State.occupies, initialState] at occupied
  apart := by
    rintro (index | _ | thief) second firstIndex _ firstTask _ _ occupied <;>
      simp [State.occupies, initialState] at occupied
  item := by
    intro item claim point
    cases point
  handouts := by simp [initialState]

namespace Intact

variable {state after : State Task Thief}

theorem rename (intact : Intact capacity state)
    (name : Occupant Thief → Occupant Thief) (injective : name.Injective)
    (sameBuffer : after.buffer = state.buffer)
    (renamed : ∀ occupant, after.occupies occupant = none ∨
      after.occupies occupant = state.occupies (name occupant))
    (item : ∀ item claim, after.owner = .popSize item claim →
      Handout.Intact ⟨claim, item⟩)
    (handouts : ∀ handout ∈ after.handouts, handout.Intact) :
    Intact capacity after where
  content := by
    intro occupant index expected occupied
    rcases renamed occupant with gone | same
    · rw [gone] at occupied
      cases occupied
    · rw [sameBuffer]
      exact intact.content _ _ _ (same ▸ occupied)
  apart := by
    intro first second firstIndex secondIndex _ _ distinct
      firstOccupied secondOccupied
    rcases renamed first with gone | firstSame
    · rw [gone] at firstOccupied
      cases firstOccupied
    · rcases renamed second with gone | secondSame
      · rw [gone] at secondOccupied
        cases secondOccupied
      · exact intact.apart _ _ _ _ _ _ (injective.ne distinct)
          (firstSame ▸ firstOccupied) (secondSame ▸ secondOccupied)
  item := item
  handouts := handouts

theorem acquire (intact : Intact capacity state)
    {task : Task} {index : Nat} (newcomer : Occupant Thief)
    (written : after.buffer =
      Function.update state.buffer (capacity.slot index) (some task))
    (occupied : after.occupies newcomer = some (index, some task))
    (others : ∀ occupant, occupant ≠ newcomer →
      after.occupies occupant = state.occupies occupant)
    (free : ∀ occupant other expected, occupant ≠ newcomer →
      state.occupies occupant = some (other, expected) →
      capacity.slot other ≠ capacity.slot index)
    (item : ∀ item claim, after.owner = .popSize item claim →
      Handout.Intact ⟨claim, item⟩)
    (handouts : ∀ handout ∈ after.handouts, handout.Intact) :
    Intact capacity after where
  content := by
    intro occupant other expected occupies
    by_cases same : occupant = newcomer
    · rw [same, occupied] at occupies
      cases occupies
      exact ⟨task, rfl, by rw [written, Function.update_self]⟩
    · rw [others occupant same] at occupies
      rw [written, Function.update_of_ne (free _ _ _ same occupies)]
      exact intact.content _ _ _ occupies
  apart := by
    intro first second firstIndex secondIndex firstTask secondTask distinct
      firstOccupies secondOccupies
    by_cases firstNew : first = newcomer
    · have secondOld : second ≠ newcomer := fun same =>
        distinct (firstNew.trans same.symm)
      rw [firstNew, occupied] at firstOccupies
      cases firstOccupies
      rw [others second secondOld] at secondOccupies
      exact (free _ _ _ secondOld secondOccupies).symm
    · rw [others first firstNew] at firstOccupies
      by_cases secondNew : second = newcomer
      · rw [secondNew, occupied] at secondOccupies
        cases secondOccupies
        exact free _ _ _ firstNew firstOccupies
      · rw [others second secondNew] at secondOccupies
        exact intact.apart _ _ _ _ _ _ distinct firstOccupies secondOccupies
  item := item
  handouts := handouts

theorem release (intact : Intact capacity state) {index : Nat}
    {expected : Option Task} (leaver : Occupant Thief)
    (occupied : state.occupies leaver = some (index, expected))
    (emptied : after.buffer =
      Function.update state.buffer (capacity.slot index) none)
    (left : after.occupies leaver = none)
    (others : ∀ occupant, occupant ≠ leaver →
      after.occupies occupant = state.occupies occupant)
    (item : ∀ item claim, after.owner = .popSize item claim →
      Handout.Intact ⟨claim, item⟩)
    (handouts : ∀ handout ∈ after.handouts, handout.Intact) :
    Intact capacity after where
  content := by
    intro occupant other task occupies
    have stays : occupant ≠ leaver := by
      rintro rfl
      rw [left] at occupies
      cases occupies
    rw [others occupant stays] at occupies
    have distinct := intact.apart _ _ _ _ _ _ stays occupies occupied
    rw [emptied, Function.update_of_ne distinct]
    exact intact.content _ _ _ occupies
  apart := by
    intro first second firstIndex secondIndex firstTask secondTask distinct
      firstOccupies secondOccupies
    have firstStays : first ≠ leaver := by
      rintro rfl
      rw [left] at firstOccupies
      cases firstOccupies
    have secondStays : second ≠ leaver := by
      rintro rfl
      rw [left] at secondOccupies
      cases secondOccupies
    rw [others first firstStays] at firstOccupies
    rw [others second secondStays] at secondOccupies
    exact intact.apart _ _ _ _ _ _ distinct firstOccupies secondOccupies
  item := item
  handouts := handouts

theorem handout (intact : Intact capacity state) {index : Nat}
    {claim : Option Task} {occupant : Occupant Thief}
    (occupied : state.occupies occupant = some (index, claim)) :
    Handout.Intact ⟨claim, state.buffer (capacity.slot index)⟩ := by
  obtain ⟨task, expected, held⟩ := intact.content _ _ _ occupied
  exact ⟨task, expected, held⟩

theorem handouts_append (intact : Intact capacity state)
    {handout : Handout Task} (new : handout.Intact) :
    ∀ other ∈ state.handouts ++ [handout], other.Intact := by
  intro other member
  rcases List.mem_append.mp member with old | last
  · exact intact.handouts other old
  · rw [List.mem_singleton.mp last]
    exact new

theorem ownerMove (intact : Intact capacity state)
    (sameBuffer : after.buffer = state.buffer)
    (sameThieves : after.thieves = state.thieves)
    (sameHistory : after.history = state.history)
    (sameOwner : after.occupies .owner = state.occupies .owner)
    (item : ∀ item claim, after.owner = .popSize item claim →
      Handout.Intact ⟨claim, item⟩)
    (handouts : ∀ handout ∈ after.handouts, handout.Intact) :
    Intact capacity after := by
  refine intact.rename id Function.injective_id sameBuffer ?_ item handouts
  rintro (index | _ | thief)
  · exact .inr (by simp only [State.occupies, sameHistory, id])
  · exact .inr sameOwner
  · exact .inr (by simp only [State.occupies, sameThieves, id])

theorem ownerClaim (intact : Intact capacity state) {b : Nat}
    (unclaimed : (owed state.history b).isSome)
    (sameBuffer : after.buffer = state.buffer)
    (sameThieves : after.thieves = state.thieves)
    (sameHandouts : after.handouts = state.handouts)
    (history : after.history = state.history ++ [Event.popped b])
    (relying : after.occupies .owner = some (b, owed state.history b))
    (notReturning : ∀ item claim, after.owner ≠ .popSize item claim) :
    Intact capacity after := by
  classical
  obtain ⟨task, owes⟩ := Option.isSome_iff_exists.mp unclaimed
  refine intact.rename (Equiv.swap (.entry b) .owner)
    (Equiv.injective _) sameBuffer ?_
    (fun item claim point => absurd point (notReturning item claim))
    (sameHandouts ▸ intact.handouts)
  rintro (index | _ | thief)
  · by_cases claimed : index = b
    · left
      simp [State.occupies, history, Event.record, claimed]
    · right
      rw [Equiv.swap_apply_of_ne_of_ne (by simpa using claimed) (by simp)]
      simp [State.occupies, history, Event.record, claimed]
  · right
    rw [Equiv.swap_apply_right, relying]
    simp [State.occupies, owes]
  · right
    rw [Equiv.swap_apply_of_ne_of_ne (by simp) (by simp)]
    simp only [State.occupies, sameThieves]

theorem publish (intact : Intact capacity state) {task : Task} {b : Nat}
    (point : state.owner = .pushBottom task b) :
    Intact capacity { state with
      bottom := b + 1
      owner := .pushSize
      history := state.history ++ [.pushed b task] } := by
  classical
  refine intact.rename (Equiv.swap (.entry b) .owner)
    (Equiv.injective _) rfl ?_ (by simp) intact.handouts
  rintro (index | _ | thief)
  · right
    by_cases published : index = b
    · rw [published, Equiv.swap_apply_left]
      simp [State.occupies, point, Event.record]
    · rw [Equiv.swap_apply_of_ne_of_ne (by simpa using published) (by simp)]
      simp [State.occupies, Event.record, published]
  · exact .inl rfl
  · right
    rw [Equiv.swap_apply_of_ne_of_ne (by simp) (by simp)]
    rfl

end Intact

/-- The index whose slot the owner's next step writes. -/
def State.writing (state : State Task Thief) : Option Nat :=
  match state.owner with
  | .pushWrite _ b => some b
  | _ => none

/-- The steps that write no slot still to be read: when the owner writes the
slot of index `b`, no thief that has won its compare-and-swap has yet to move
its own task out of that slot. -/
def SlotFree (capacity : Capacity) (state : State Task Thief)
    (label : Label Task Thief) : Prop :=
  label = .owner → ∀ b ∈ state.writing, ∀ thief,
    ∀ claimed ∈ state.occupies (.thief thief),
      capacity.slot claimed.1 ≠ capacity.slot b

instance [DecidableEq Task] [DecidableEq Thief] [Fintype Thief]
    (state : State Task Thief) (label : Label Task Thief) :
    Decidable (SlotFree capacity state label) :=
  inferInstanceAs (Decidable (_ → _))

namespace Intact

variable {state after : State Task Thief}

theorem write (intact : Intact capacity state)
    (consistent : Consistent capacity state) {task : Task} {b : Nat}
    (point : state.owner = .pushWrite task b)
    (free : SlotFree capacity state .owner) :
    Intact capacity { state with
      buffer := Function.update state.buffer (capacity.slot b) (some task)
      owner := .pushBottom task b } := by
  refine intact.acquire .owner rfl rfl ?_ ?_ (by simp) intact.handouts
  · rintro (index | _ | thief) other
    · rfl
    · exact absurd rfl other
    · rfl
  · rintro (index | _ | thief) other expected distinct occupied
    · -- The unclaimed indices lie less than a capacity below `b`.
      obtain ⟨owes, claimed, same⟩ := Option.map_eq_some_iff.mp occupied
      cases same
      have owner := consistent.owner
      have ledger := consistent.ledger
      simp only [State.OwnerConsistent, State.frontier, point] at owner ledger
      have within := (ledger.owed_isSome index).mp
        (Option.isSome_iff_exists.mpr ⟨owes, claimed⟩)
      have := capacity.maxSize.zero_le
      simp only [Capacity.maxSize] at owner
      exact capacity.slot_ne (by omega) (by omega)
    · exact absurd rfl distinct
    · exact free rfl b (by simp [State.writing, point]) thief _ occupied

theorem ownerStep (intact : Intact capacity state)
    (consistent : Consistent capacity state)
    (free : SlotFree capacity state .owner)
    (stepped : state.ownerStep capacity = some after) :
    Intact capacity after := by
  have ledger := consistent.ledger
  have owner := consistent.owner
  cases point : state.owner with
  | idle => simp [State.ownerStep, point] at stepped
  | pushTop task b =>
      simp only [State.ownerStep, point] at stepped
      split at stepped <;> cases stepped <;>
        exact intact.ownerMove rfl rfl rfl (by simp [State.occupies, point])
          (by simp) intact.handouts
  | pushWrite task b =>
      simp only [State.ownerStep, point] at stepped
      cases stepped
      exact intact.write consistent point free
  | pushBottom task b =>
      simp only [State.ownerStep, point] at stepped
      cases stepped
      exact intact.publish point
  | pushSize | popBottom b | popRestore b | lastBottom b claim
  | lastSize b claim =>
      simp only [State.ownerStep, point] at stepped
      cases stepped
      exact intact.ownerMove rfl rfl rfl (by simp [State.occupies, point])
        (by simp) intact.handouts
  | popTop b =>
      simp only [State.frontier, point] at ledger
      simp only [State.ownerStep, point] at stepped
      split at stepped
      · split at stepped <;> cases stepped
        · exact intact.ownerMove rfl rfl rfl (by simp [State.occupies, point])
            (by simp) intact.handouts
        · exact intact.ownerClaim ((ledger.owed_isSome b).mpr (by omega))
            rfl rfl rfl rfl rfl (by simp)
      · cases stepped
        exact intact.ownerMove rfl rfl rfl (by simp [State.occupies, point])
          (by simp) intact.handouts
  | popCas b =>
      simp only [State.frontier, point] at ledger
      simp only [State.ownerStep, point] at stepped
      split at stepped <;> cases stepped
      · exact intact.ownerClaim ((ledger.owed_isSome b).mpr (by omega))
          rfl rfl rfl rfl rfl (by simp)
      · exact intact.ownerMove rfl rfl rfl (by simp [State.occupies, point])
          (by simp) intact.handouts
  | lastTake b claim =>
      have relying : state.occupies .owner = some (b, claim) := by
        simp [State.occupies, point]
      simp only [State.ownerStep, point] at stepped
      cases stepped
      refine intact.release .owner relying rfl rfl ?_ (by simp)
        (intact.handouts_append (intact.handout relying))
      rintro (index | _ | thief) distinct
      · rfl
      · exact absurd rfl distinct
      · rfl
  | popTake b claim =>
      have relying : state.occupies .owner = some (b, claim) := by
        simp [State.occupies, point]
      simp only [State.ownerStep, point] at stepped
      cases stepped
      refine intact.release .owner relying rfl rfl ?_ ?_ intact.handouts
      · rintro (index | _ | thief) distinct
        · rfl
        · exact absurd rfl distinct
        · rfl
      · intro item claim' taken
        cases taken
        exact intact.handout relying
  | popSize item claim =>
      have item' := intact.item item claim point
      simp only [State.ownerStep, point] at stepped
      cases stepped
      exact intact.ownerMove rfl rfl rfl (by simp [State.occupies, point])
        (by simp) (intact.handouts_append item')

variable [DecidableEq Thief]

theorem thiefMove (intact : Intact capacity state) {actor : Thief}
    {point : ThiefPoint Task}
    (sameBuffer : after.buffer = state.buffer)
    (sameOwner : after.owner = state.owner)
    (sameHistory : after.history = state.history)
    (sameHandouts : after.handouts = state.handouts)
    (moved : after.thieves = Function.update state.thieves actor point)
    (sameActor : after.occupies (.thief actor) =
      state.occupies (.thief actor)) : Intact capacity after := by
  refine intact.rename id Function.injective_id sameBuffer ?_
    (fun item claim returning => intact.item item claim
      (sameOwner ▸ returning)) (sameHandouts ▸ intact.handouts)
  rintro (index | _ | thief)
  · exact .inr (by simp only [State.occupies, sameHistory, id])
  · exact .inr (by simp only [State.occupies, sameOwner, id])
  · by_cases same : thief = actor
    · exact .inr (by rw [same]; exact sameActor)
    · exact .inr (by simp only [State.occupies, moved, id,
        Function.update_of_ne same])

theorem steal (intact : Intact capacity state) {actor : Thief} {t : Nat}
    (unclaimed : (owed state.history t).isSome) :
    Intact capacity { state with
      top := t + 1
      thieves := Function.update state.thieves actor
        (.size t (owed state.history t))
      history := state.history ++ [.stolen actor t] } := by
  obtain ⟨task, owes⟩ := Option.isSome_iff_exists.mp unclaimed
  refine intact.rename (Equiv.swap (.entry t) (.thief actor))
    (Equiv.injective _) rfl ?_ intact.item intact.handouts
  rintro (index | _ | thief)
  · by_cases claimed : index = t
    · left
      simp [State.occupies, Event.record, claimed]
    · right
      rw [Equiv.swap_apply_of_ne_of_ne (by simpa using claimed) (by simp)]
      simp [State.occupies, Event.record, claimed]
  · right
    rw [Equiv.swap_apply_of_ne_of_ne (by simp) (by simp)]
    rfl
  · right
    by_cases same : thief = actor
    · rw [same, Equiv.swap_apply_right]
      simp [State.occupies, owes]
    · rw [Equiv.swap_apply_of_ne_of_ne (by simp) (by simpa using same)]
      simp [State.occupies, same]

theorem thiefStep (intact : Intact capacity state)
    (consistent : Consistent capacity state) {thief : Thief}
    (stepped : state.thiefStep capacity thief = some after) :
    Intact capacity after := by
  have own := consistent.thieves thief
  have ledger := consistent.ledger
  cases point : state.thieves thief with
  | idle => simp [State.thiefStep, point] at stepped
  | loadBottom t =>
      simp only [State.thiefStep, point] at stepped
      cases stepped
      refine intact.thiefMove rfl rfl rfl rfl rfl ?_
      by_cases below : t < state.bottom <;>
        simp [State.occupies, point, below]
  | cas t =>
      simp only [State.ThiefConsistent, point] at own
      simp only [State.thiefStep, point] at stepped
      split at stepped <;> cases stepped
      · next wins =>
          exact intact.steal
            ((ledger.owed_isSome t).mpr ⟨Nat.le_of_eq wins, own.2 wins⟩)
      · exact intact.thiefMove rfl rfl rfl rfl rfl
          (by simp [State.occupies, point])
  | size t claim =>
      simp only [State.thiefStep, point] at stepped
      cases stepped
      exact intact.thiefMove rfl rfl rfl rfl rfl
        (by simp [State.occupies, point])
  | take t claim =>
      have relying : state.occupies (.thief thief) = some (t, claim) := by
        simp [State.occupies, point]
      simp only [State.thiefStep, point] at stepped
      cases stepped
      refine intact.release (.thief thief) relying rfl
        (by simp [State.occupies]) ?_ intact.item
        (intact.handouts_append (intact.handout relying))
      rintro (index | _ | other) distinct
      · rfl
      · rfl
      · have differs : other ≠ thief := fun same => distinct (by rw [same])
        simp [State.occupies, differs]

theorem step (intact : Intact capacity state)
    (consistent : Consistent capacity state) {label : Label Task Thief}
    (free : SlotFree capacity state label)
    (stepped : state.step capacity label = some after) :
    Intact capacity after := by
  cases label with
  | push task =>
      simp only [State.step] at stepped
      split at stepped
      · cases stepped
        exact intact
      · next idle =>
          cases stepped
          exact intact.ownerMove rfl rfl rfl (by simp [State.occupies, idle])
            (by simp) intact.handouts
      · cases stepped
  | pop =>
      simp only [State.step] at stepped
      split at stepped
      · next idle =>
          split at stepped <;> cases stepped
          · exact intact
          · exact intact.ownerMove rfl rfl rfl
              (by simp [State.occupies, idle]) (by simp) intact.handouts
      · cases stepped
  | owner => exact intact.ownerStep consistent free stepped
  | steal thief =>
      simp only [State.step] at stepped
      split at stepped
      · next idle =>
          cases stepped
          exact intact.thiefMove rfl rfl rfl rfl rfl
            (by simp [State.occupies, idle])
      · cases stepped
  | thief thief => exact intact.thiefStep consistent stepped

end Intact

theorem intact_of_reachableUnder [DecidableEq Thief]
    {state : State Task Thief}
    (reached : (machine Task Thief capacity).ReachableUnder
      (SlotFree capacity) state) :
    Consistent capacity state ∧ Intact capacity state := by
  refine reached.invariant
    (fun state => Consistent capacity state ∧ Intact capacity state) ?_ ?_
  · rintro _ rfl
    exact ⟨consistent_initialState, intact_initialState⟩
  · rintro state label after ⟨consistent, intact⟩ free stepped
    exact ⟨consistent.step stepped, intact.step consistent free stepped⟩

/-- In every run whose owner never writes a slot that a thief has claimed and
not yet read, each value handed out is the task its claim is entitled to. -/
theorem handouts_intact_of_slotFree [DecidableEq Thief]
    (capacity : Capacity) (state : State Task Thief)
    (reached : (machine Task Thief capacity).ReachableUnder
      (SlotFree capacity) state) :
    ∀ handout ∈ state.handouts, handout.Intact :=
  (intact_of_reachableUnder reached).2.handouts

end Payload

/-- A thief claims an element and moves it out while the owner pushes the next
one into the other slot. -/
def stealBesidePush : List (Label Nat Unit) :=
  [.push (some 10), .owner, .owner, .owner, .owner,
    .steal (), .thief (), .thief (),
    .push (some 20), .owner, .owner, .owner, .owner, .thief (), .thief ()]

theorem handouts_intact_of_slotFree_stealBesidePush :
    ∃ state : State Nat Unit, state.handouts = [⟨some 10, some 10⟩] ∧
      ∀ handout ∈ state.handouts, handout.Intact := by
  have run : ((machine Nat Unit ⟨1, Nat.one_pos⟩).replay initialState
      stealBesidePush).map State.handouts = some [⟨some 10, some 10⟩] := by
    decide +kernel
  have guarded : (machine Nat Unit ⟨1, Nat.one_pos⟩).Follows
      (SlotFree ⟨1, Nat.one_pos⟩) initialState stealBesidePush := by
    decide +kernel
  obtain ⟨state, ends, handouts⟩ := Option.map_eq_some_iff.mp run
  exact ⟨state, handouts, handouts_intact_of_slotFree _ _
    (System.ReachableUnder.replay stealBesidePush (.start rfl) guarded ends)⟩

/-- A thief stops between its claim and its move; the owner pushes and pops
another element and then pushes a third, whose slot is the claimed one. -/
def overwrittenClaim : List (Label Nat Unit) :=
  [.push (some 10), .owner, .owner, .owner, .owner,
    .steal (), .thief (), .thief (), .thief (),
    .push (some 20), .owner, .owner, .owner, .owner,
    .pop, .owner, .owner, .owner, .owner, .owner, .owner,
    .push (some 30), .owner, .owner, .owner, .owner,
    .thief (),
    .pop, .owner, .owner, .owner, .owner, .owner, .owner]

/-- The thief returns the third task in the place of the first, and the owner
then pops an empty function. -/
theorem overwrittenClaim_not_intact :
    (∃ state, (machine Nat Unit ⟨1, Nat.one_pos⟩).Reachable state ∧
      state.handouts =
        [⟨some 20, some 20⟩, ⟨some 10, some 30⟩, ⟨some 30, none⟩]) ∧
    ¬ ∀ state, (machine Nat Unit ⟨1, Nat.one_pos⟩).Reachable state →
      ∀ handout ∈ state.handouts, handout.Intact := by
  have run : ((machine Nat Unit ⟨1, Nat.one_pos⟩).replay initialState
      overwrittenClaim).map State.handouts =
        some [⟨some 20, some 20⟩, ⟨some 10, some 30⟩, ⟨some 30, none⟩] := by
    decide +kernel
  obtain ⟨state, ends, handouts⟩ := Option.map_eq_some_iff.mp run
  have reached : (machine Nat Unit ⟨1, Nat.one_pos⟩).Reachable state :=
    System.Reachable.replay overwrittenClaim (.start rfl) ends
  refine ⟨⟨state, reached, handouts⟩, fun intact => ?_⟩
  obtain ⟨task, expected, held⟩ :=
    intact state reached ⟨some 30, none⟩ (by simp [handouts])
  cases held

end RopHive.TaskDeque
