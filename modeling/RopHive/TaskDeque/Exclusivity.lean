import RopHive.TaskDeque.Machine

namespace RopHive.TaskDeque

open Transition

section Exclusivity

variable {Task Thief : Type} {capacity : Capacity}

namespace State

/-- One past the largest unclaimed index.  While the owner has lowered
`bottom_` without having claimed anything, this is still the old bottom. -/
def frontier (state : State Task Thief) : Nat :=
  match state.owner with
  | .popTop b | .popCas b | .popRestore b | .lastBottom b _ => b + 1
  | _ => state.bottom

def OwnerConsistent (capacity : Capacity) (state : State Task Thief) : Prop :=
  match state.owner with
  | .pushTop _ b => state.bottom = b
  | .pushWrite _ b | .pushBottom _ b =>
      state.bottom = b ∧ b - state.top < capacity.maxSize
  | .popBottom b => state.bottom = b + 1
  | .popTop b => state.bottom = b
  | .popCas b => state.bottom = b ∧ b ≤ state.top ∧
      (state.top = b ∨
        ∃ thief, state.history.getLast? = some (.stolen thief b))
  | .lastBottom b _ | .popRestore b => state.bottom = b ∧ state.top = b + 1
  | _ => True

/-- A stale copy of `top_` is not ahead of it, and a compare-and-swap that can
still succeed finds its index unclaimed. -/
def ThiefConsistent (state : State Task Thief) (thief : Thief) : Prop :=
  match state.thieves thief with
  | .loadBottom t => t ≤ state.top
  | .cas t => t ≤ state.top ∧ (state.top = t → t < state.frontier)
  | _ => True

theorem ThiefConsistent.carry {state after : State Task Thief} {thief : Thief}
    (consistent : state.ThiefConsistent thief)
    (same : after.thieves thief = state.thieves thief)
    (climbs : state.top ≤ after.top)
    (keeps : after.top = state.top → state.top < state.frontier →
      state.top < after.frontier) :
    after.ThiefConsistent thief := by
  simp only [ThiefConsistent, same] at consistent ⊢
  cases point : state.thieves thief with
  | idle | size _ _ | take _ _ => trivial
  | loadBottom t =>
      simp only [point] at consistent ⊢
      omega
  | cas t =>
      simp only [point] at consistent ⊢
      refine ⟨by omega, fun reaches => ?_⟩
      have unmoved : state.top = t := by omega
      have := keeps (by omega) (by rw [unmoved]; exact consistent.2 unmoved)
      omega

end State

/-- The unclaimed indices are those from `top_` up to the frontier, and every
thread's local copies agree with that. -/
structure Consistent (capacity : Capacity) (state : State Task Thief) :
    Prop where
  ledger : Legal state.history state.top state.frontier
  room : state.frontier - state.top ≤ capacity.maxSize
  owner : state.OwnerConsistent capacity
  thieves : ∀ thief, state.ThiefConsistent thief

theorem consistent_initialState :
    Consistent capacity (initialState : State Task Thief) where
  ledger := .empty
  room := Nat.zero_le _
  owner := trivial
  thieves := fun _ => trivial

namespace Consistent

variable {state after : State Task Thief}

theorem bottom_le_frontier (consistent : Consistent capacity state) :
    state.bottom ≤ state.frontier := by
  have owner := consistent.owner
  unfold State.OwnerConsistent at owner
  unfold State.frontier
  cases point : state.owner <;> simp only [point] at owner ⊢ <;> omega

theorem ownerMove (consistent : Consistent capacity state)
    (sameTop : after.top = state.top)
    (sameFrontier : after.frontier = state.frontier)
    (sameHistory : after.history = state.history)
    (sameThieves : after.thieves = state.thieves)
    (owner : after.OwnerConsistent capacity) : Consistent capacity after where
  ledger := by
    rw [sameHistory, sameTop, sameFrontier]
    exact consistent.ledger
  room := by
    rw [sameTop, sameFrontier]
    exact consistent.room
  owner := owner
  thieves := fun thief =>
    (consistent.thieves thief).carry (by rw [sameThieves])
      (Nat.le_of_eq sameTop.symm) (fun _ below => by rwa [sameFrontier])

theorem ownerStep (consistent : Consistent capacity state)
    (stepped : state.ownerStep capacity = some after) :
    Consistent capacity after := by
  have owner := consistent.owner
  have ledger := consistent.ledger
  have room := consistent.room
  cases point : state.owner with
  | idle => simp [State.ownerStep, point] at stepped
  | pushTop task b =>
      simp only [State.OwnerConsistent, point] at owner
      simp only [State.ownerStep, point] at stepped
      split at stepped <;> cases stepped
      · exact consistent.ownerMove rfl (by simp [State.frontier, point]) rfl
          rfl trivial
      · next fits =>
          refine consistent.ownerMove rfl (by simp [State.frontier, point])
            rfl rfl ?_
          simp only [State.OwnerConsistent]
          omega
  | pushWrite task b =>
      simp only [State.OwnerConsistent, point] at owner
      simp only [State.ownerStep, point] at stepped
      cases stepped
      exact consistent.ownerMove rfl (by simp [State.frontier, point]) rfl rfl
        owner
  | pushBottom task b =>
      simp only [State.OwnerConsistent, point] at owner
      simp only [State.frontier, point] at ledger
      obtain ⟨rfl, fits⟩ := owner
      simp only [State.ownerStep, point] at stepped
      cases stepped
      refine ⟨ledger.push task, ?_, trivial, fun thief => ?_⟩
      · simp only [State.frontier]
        omega
      · refine (consistent.thieves thief).carry rfl (Nat.le_refl _) ?_
        intro _ below
        simp only [State.frontier, point] at below ⊢
        omega
  | pushSize | lastSize b claim | lastTake b claim | popTake b claim
  | popSize item claim =>
      simp only [State.ownerStep, point] at stepped
      cases stepped
      exact consistent.ownerMove rfl (by simp [State.frontier, point,
        State.takeSlot]) rfl rfl trivial
  | popBottom b =>
      simp only [State.OwnerConsistent, point] at owner
      simp only [State.ownerStep, point] at stepped
      cases stepped
      exact consistent.ownerMove rfl (by simp [State.frontier, point, owner])
        rfl rfl rfl
  | popTop b =>
      simp only [State.OwnerConsistent, point] at owner
      simp only [State.frontier, point] at ledger room
      have ordered := ledger.low_le_high
      simp only [State.ownerStep, point] at stepped
      split at stepped
      · next reaches =>
          split at stepped <;> cases stepped
          · next single =>
              exact consistent.ownerMove rfl (by simp [State.frontier, point])
                rfl rfl ⟨owner, Nat.le_of_eq single.symm, .inl single⟩
          · next several =>
              have below : state.top < b := by omega
              refine ⟨?_, ?_, trivial, fun thief => ?_⟩
              · simpa [State.frontier, owner] using ledger.pop below
              · simp only [State.frontier]
                omega
              · refine (consistent.thieves thief).carry rfl (Nat.le_refl _) ?_
                intro _ _
                simp only [State.frontier]
                omega
      · next passed =>
          cases stepped
          refine consistent.ownerMove rfl (by simp [State.frontier, point])
            rfl rfl ⟨owner, ?_⟩
          change state.top = b + 1
          omega
  | popCas b =>
      simp only [State.OwnerConsistent, point] at owner
      simp only [State.frontier, point] at ledger
      have ordered := ledger.low_le_high
      simp only [State.ownerStep, point] at stepped
      split at stepped <;> cases stepped
      · next single =>
          rw [single] at ledger
          refine ⟨ledger.popLast, ?_, ⟨owner.1, rfl⟩, fun thief => ?_⟩
          · simp [State.frontier]
          · refine (consistent.thieves thief).carry rfl ?_ ?_
            · change state.top ≤ b + 1
              omega
            · intro unmoved
              change b + 1 = state.top at unmoved
              omega
      · next lost =>
          refine consistent.ownerMove rfl (by simp [State.frontier, point])
            rfl rfl ⟨owner.1, ?_⟩
          change state.top = b + 1
          omega
  | popRestore b | lastBottom b claim =>
      simp only [State.ownerStep, point] at stepped
      cases stepped
      exact consistent.ownerMove rfl (by simp [State.frontier, point]) rfl rfl
        trivial

variable [DecidableEq Thief]

theorem thiefMove (consistent : Consistent capacity state)
    {actor : Thief} {point : ThiefPoint Task}
    (sameTop : after.top = state.top) (sameBottom : after.bottom = state.bottom)
    (sameOwner : after.owner = state.owner)
    (sameHistory : after.history = state.history)
    (moved : after.thieves = Function.update state.thieves actor point)
    (actorConsistent : after.ThiefConsistent actor) :
    Consistent capacity after := by
  have sameFrontier : after.frontier = state.frontier := by
    simp only [State.frontier, sameOwner, sameBottom]
  refine ⟨?_, ?_, ?_, fun thief => ?_⟩
  · rw [sameHistory, sameTop, sameFrontier]
    exact consistent.ledger
  · rw [sameTop, sameFrontier]
    exact consistent.room
  · have owner := consistent.owner
    simp only [State.OwnerConsistent, sameOwner, sameTop, sameBottom,
      sameHistory] at owner ⊢
    exact owner
  · by_cases same : thief = actor
    · rw [same]
      exact actorConsistent
    · refine (consistent.thieves thief).carry ?_ (Nat.le_of_eq sameTop.symm)
        (fun _ below => by rwa [sameFrontier])
      rw [moved, Function.update_of_ne same]

theorem steal (consistent : Consistent capacity state) {actor : Thief}
    (claim : Option Task) (unclaimed : state.top < state.frontier) :
    Consistent capacity { state with
      top := state.top + 1
      thieves := Function.update state.thieves actor (.size state.top claim)
      history := state.history ++ [.stolen actor state.top] } := by
  have room := consistent.room
  refine ⟨consistent.ledger.steal actor unclaimed, ?_, ?_, fun thief => ?_⟩
  · change state.frontier - (state.top + 1) ≤ capacity.maxSize
    omega
  · have owner := consistent.owner
    unfold State.OwnerConsistent at owner ⊢
    unfold State.frontier at unclaimed
    cases point : state.owner with
    | idle | pushTop _ _ | pushSize | popBottom _ | popTop _ | lastSize _ _
    | lastTake _ _ | popTake _ _ | popSize _ _ =>
        simp_all only
    | pushWrite _ b | pushBottom _ b =>
        simp only [point] at owner ⊢
        omega
    | popCas b =>
        simp only [point] at owner unclaimed ⊢
        have last : state.top = b := by omega
        exact ⟨owner.1, by omega, .inr ⟨actor, by simp [last]⟩⟩
    | popRestore b | lastBottom b _ =>
        simp only [point] at owner unclaimed
        omega
  · by_cases same : thief = actor
    · simp [State.ThiefConsistent, same]
    · refine (consistent.thieves thief).carry
        (Function.update_of_ne same _ _) (Nat.le_succ _) ?_
      intro unmoved
      change state.top + 1 = state.top at unmoved
      omega

theorem thiefStep (consistent : Consistent capacity state) {thief : Thief}
    (stepped : state.thiefStep capacity thief = some after) :
    Consistent capacity after := by
  have own := consistent.thieves thief
  cases point : state.thieves thief with
  | idle => simp [State.thiefStep, point] at stepped
  | loadBottom t =>
      simp only [State.ThiefConsistent, point] at own
      simp only [State.thiefStep, point] at stepped
      cases stepped
      refine consistent.thiefMove rfl rfl rfl rfl rfl ?_
      by_cases below : t < state.bottom
      · simp only [State.ThiefConsistent, Function.update_self, if_pos below]
        exact ⟨own, fun _ =>
          Nat.lt_of_lt_of_le below consistent.bottom_le_frontier⟩
      · simp [State.ThiefConsistent, below]
  | cas t =>
      simp only [State.ThiefConsistent, point] at own
      simp only [State.thiefStep, point] at stepped
      split at stepped <;> cases stepped
      · next wins =>
          subst wins
          exact consistent.steal _ (own.2 rfl)
      · exact consistent.thiefMove rfl rfl rfl rfl rfl
          (by simp [State.ThiefConsistent])
  | size t claim | take t claim =>
      simp only [State.thiefStep, point] at stepped
      cases stepped
      exact consistent.thiefMove rfl rfl rfl rfl rfl
        (by simp [State.ThiefConsistent])

omit [DecidableEq Thief] in
theorem ownerStart (consistent : Consistent capacity state)
    {point : OwnerPoint Task} (idle : state.owner = .idle)
    (sameFrontier : { state with owner := point }.frontier = state.bottom)
    (owner : { state with owner := point }.OwnerConsistent capacity) :
    Consistent capacity { state with owner := point } :=
  consistent.ownerMove rfl
    (by rw [sameFrontier]; simp [State.frontier, idle]) rfl rfl owner

theorem step (consistent : Consistent capacity state)
    {label : Label Task Thief}
    (stepped : state.step capacity label = some after) :
    Consistent capacity after := by
  cases label with
  | push task =>
      simp only [State.step] at stepped
      split at stepped
      · cases stepped
        exact consistent
      · next idle =>
          cases stepped
          exact consistent.ownerStart idle rfl rfl
      · cases stepped
  | pop =>
      simp only [State.step] at stepped
      split at stepped
      · next idle =>
          split at stepped <;> cases stepped
          · exact consistent
          · refine consistent.ownerStart idle rfl ?_
            change state.bottom = state.bottom - 1 + 1
            omega
      · cases stepped
  | owner => exact consistent.ownerStep stepped
  | steal thief =>
      simp only [State.step] at stepped
      split at stepped <;> cases stepped
      exact consistent.thiefMove rfl rfl rfl rfl rfl
        (by simp [State.ThiefConsistent])
  | thief thief => exact consistent.thiefStep stepped

end Consistent

theorem consistent_of_reachableUnder [DecidableEq Thief]
    {guard : State Task Thief → Label Task Thief → Prop}
    {state : State Task Thief}
    (reached : (machine Task Thief capacity).ReachableUnder guard state) :
    Consistent capacity state := by
  refine reached.invariant (Consistent capacity) ?_ ?_
  · rintro _ rfl
    exact consistent_initialState
  · intro state label after consistent _ stepped
    exact consistent.step stepped

theorem top_le_of_step [DecidableEq Thief] {state after : State Task Thief}
    {label : Label Task Thief} (consistent : Consistent capacity state)
    (stepped : state.step capacity label = some after) :
    state.top ≤ after.top := by
  cases label with
  | push task | pop | steal thief =>
      simp only [State.step] at stepped
      grind
  | owner =>
      have owner := consistent.owner
      simp only [State.step, State.ownerStep] at stepped
      unfold State.OwnerConsistent at owner
      grind [State.takeSlot]
  | thief thief =>
      simp only [State.step, State.thiefStep] at stepped
      grind [State.takeSlot]

/-- Who may claim what, and when: the contract of the deque's indices. -/
structure ClaimContract [DecidableEq Thief] (capacity : Capacity)
    (state : State Task Thief) : Prop where
  /-- Every claim takes an index whose push was unclaimed; a pop takes the
  largest such index and a steal the smallest. -/
  inOrder : ClaimsInOrder state.history
  /-- A push is claimed at most once. -/
  claimedOnce : ∀ index,
    claims state.history index ≤ pushes state.history index ∧
      pushes state.history index ≤ claims state.history index + 1
  stolenIncreasing : (stolenIndices state.history).Pairwise (· < ·)
  /-- In the race for the last element the owner's compare-and-swap wins, or a
  thief's claim of that very index is what made it fail. -/
  raceDecided : ∀ b, state.owner = .popCas b →
    state.top = b ∧ (owed state.history b).isSome ∨
      ∃ thief, state.history.getLast? = some (.stolen thief b)
  topClimbs : ∀ label after, state.step capacity label = some after →
    state.top ≤ after.top
  betweenOperations : state.owner = .idle →
    state.top ≤ state.bottom ∧ state.bottom - state.top ≤ capacity.maxSize
  atRest : state.owner = .idle → (∀ thief, state.thieves thief = .idle) →
    ∀ index, (owed state.history index).isSome ↔
      state.top ≤ index ∧ index < state.bottom

theorem Consistent.claimContract [DecidableEq Thief]
    {state : State Task Thief} (consistent : Consistent capacity state) :
    ClaimContract capacity state where
  inOrder := consistent.ledger.claimsInOrder
  claimedOnce := by
    intro index
    have balance := consistent.ledger.pushes_eq index
    split at balance <;> omega
  stolenIncreasing := consistent.ledger.stolenIndices_increasing
  raceDecided := by
    intro b point
    have owner := consistent.owner
    simp only [State.OwnerConsistent, point] at owner
    rcases owner.2.2 with single | stolen
    · refine .inl ⟨single, (consistent.ledger.owed_isSome b).mpr ?_⟩
      simp only [State.frontier, point]
      omega
    · exact .inr stolen
  topClimbs := fun _ _ stepped => top_le_of_step consistent stepped
  betweenOperations := by
    intro idle
    have ledger := consistent.ledger
    have room := consistent.room
    simp only [State.frontier, idle] at ledger room
    exact ⟨ledger.low_le_high, room⟩
  atRest := by
    intro idle _ index
    have ledger := consistent.ledger
    simp only [State.frontier, idle] at ledger
    exact ledger.owed_isSome index

/-- In every interleaving of one owner and any number of thieves, each push is
claimed at most once, in the order the contract lays down. -/
theorem claims_exclusive_and_ordered [DecidableEq Thief]
    (capacity : Capacity) (state : State Task Thief)
    (reached : (machine Task Thief capacity).Reachable state) :
    ClaimContract capacity state :=
  (consistent_of_reachableUnder reached).claimContract

end Exclusivity

/-- Two slots, one task: the owner and a thief race for it, and the thief's
compare-and-swap comes first. -/
def lastElementRace : List (Label Nat Unit) :=
  [.push (some 7), .owner, .owner, .owner, .owner,
    .pop, .steal (), .thief (), .owner, .owner, .thief (), .owner, .owner]

theorem claims_exclusive_and_ordered_lastElementRace :
    ∃ state, (machine Nat Unit ⟨1, Nat.one_pos⟩).replay initialState
        lastElementRace = some state ∧
      state.history = [.pushed 0 7, .stolen () 0] ∧
      ClaimContract ⟨1, Nat.one_pos⟩ state :=
  ⟨_, rfl, rfl, claims_exclusive_and_ordered _ _
    (System.Reachable.replay lastElementRace (.start rfl) rfl)⟩

end RopHive.TaskDeque
