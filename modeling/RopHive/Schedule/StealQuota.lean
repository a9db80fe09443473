import Mathlib.Algebra.BigOperators.Ring.Finset
import RopHive.Schedule.StealOnce

namespace RopHive.Schedule.StealOnce

open Transition

variable {workers : Nat} {Task : Type} (options : Fin workers → Options)

/-- What a thief may take from a victim, with `others` more thieves inside
`tryStealTop`. -/
def fairShare (worker victim : Fin workers) (others : Nat) : Nat :=
  ((options victim).localQueueCapacity.maxSize + others) /
    (options worker).stealBatchFactor

section Worker

/-- The loop over `j` at an attempt, as long as nothing is in hand. -/
structure Keeps (worker : Fin workers) (attempt : Attempt workers)
    (account : Account workers Task) : Prop where
  draws : account.draws = attempt.index + 1
  tries : attempt.index < (options worker).ktries
  apart : attempt.victim ≠ worker
  taken : account.taken =
    Function.update (fun _ => 0) attempt.victim attempt.stolen
  share : attempt.stolen + attempt.left ≤
    fairShare options worker attempt.victim account.others

/-- What a call of `stealOnce` may have done at any time. -/
structure Modest (worker : Fin workers) (account : Account workers Task) :
    Prop where
  draws : account.draws ≤ (options worker).ktries
  taken_self : account.taken worker = 0
  taken : ∀ victim, account.taken victim ≤
    fairShare options worker victim account.others

def PointInv (worker : Fin workers) (account : Account workers Task) :
    Point workers Task → Prop
  | .outside => Modest options worker account
  | .pick index => account.draws = index ∧ index ≤ (options worker).ktries ∧
      account.taken = fun _ => 0
  | .readSize index victim => account.draws = index + 1 ∧
      index < (options worker).ktries ∧ victim ≠ worker ∧
      account.taken = fun _ => 0
  | .next attempt => Keeps options worker attempt account
  | .stealing attempt => Keeps options worker attempt account ∧
      0 < attempt.left
  | .spaceBottom attempt _ | .spaceTop attempt _ _ | .offer attempt _
  | .pushing attempt _ | .running attempt =>
      Keeps options worker attempt.count account
  | .divisionByZero => False

variable {options} {worker : Fin workers} {account : Account workers Task}
  {attempt : Attempt workers}

theorem Keeps.modest (keeps : Keeps options worker attempt account) :
    Modest options worker account where
  draws := by
    have draws := keeps.draws
    have tries := keeps.tries
    omega
  taken_self := by
    rw [keeps.taken, Function.update_of_ne keeps.apart.symm]
  taken := by
    intro victim
    rw [keeps.taken, Function.update_apply]
    split
    · next same =>
        have share := keeps.share
        rw [same]
        omega
    · exact Nat.zero_le _

theorem modest_of_taken_zero
    (draws : account.draws ≤ (options worker).ktries)
    (taken : account.taken = fun _ => 0) : Modest options worker account where
  draws := draws
  taken_self := by rw [taken]
  taken := by
    intro victim
    rw [taken]
    exact Nat.zero_le _

theorem PointInv.modest {point : Point workers Task}
    (inv : PointInv options worker account point) :
    Modest options worker account := by
  cases point with
  | outside => exact inv
  | pick index =>
      exact modest_of_taken_zero (inv.1 ▸ inv.2.1) inv.2.2
  | readSize index victim =>
      exact modest_of_taken_zero (inv.1 ▸ inv.2.1) inv.2.2.2
  | next attempt => exact Keeps.modest inv
  | stealing attempt => exact inv.1.modest
  | spaceBottom attempt | spaceTop attempt | offer attempt
  | pushing attempt | running attempt => exact Keeps.modest inv
  | divisionByZero => exact inv.elim

theorem Keeps.leave (keeps : Keeps options worker attempt account) :
    PointInv options worker account (attempt.leave : Point workers Task) := by
  unfold Attempt.leave
  split
  · exact keeps.modest
  · next none =>
      refine ⟨keeps.draws, keeps.tries, ?_⟩
      rw [keeps.taken, not_ne_iff.mp none]
      exact Function.update_eq_self attempt.victim fun _ => 0

theorem Keeps.settle (keeps : Keeps options worker attempt account)
    (settled : Settled Task) :
    Keeps options worker attempt (account.settle settled) :=
  ⟨keeps.draws, keeps.tries, keeps.apart, keeps.taken, keeps.share⟩

theorem Keeps.take (keeps : Keeps options worker attempt account)
    (more : 0 < attempt.left) (value : Option Task) :
    Keeps options worker attempt.count (account.take attempt.victim value) where
  draws := keeps.draws
  tries := keeps.tries
  apart := keeps.apart
  taken := by
    simp [Account.take, keeps.taken, Attempt.count]
  share := by
    have share := keeps.share
    simp only [Attempt.count, Account.take] at share ⊢
    omega

end Worker

section Hand

/-- The task that the owner of a deque is pushing and has not published. -/
def ownerHand : TaskDeque.OwnerPoint Task → List Task
  | .pushTop task _ | .pushWrite task _ | .pushBottom task _ => [task]
  | _ => []

def Pushes (task : Task) : TaskDeque.OwnerPoint Task → Prop
  | .pushTop pushed _ | .pushWrite pushed _ | .pushBottom pushed _ =>
      pushed = task
  | .pushSize => True
  | _ => False

def inHand : Point workers Task → TaskDeque.OwnerPoint Task → List Task
  | .spaceBottom _ value, _ | .spaceTop _ value _, _ | .offer _ value, _ =>
      value.toList
  | .pushing _ _, owner => ownerHand owner
  | _, _ => []

structure Hands (point : Point workers Task)
    (owner : TaskDeque.OwnerPoint Task) (account : Account workers Task) :
    Prop where
  settled : account.stolen =
    account.settled.map Settled.task ++ inHand point owner
  pushes : ∀ attempt task, point = .pushing attempt task → Pushes task owner

theorem Hands.move {point next : Point workers Task}
    {owner owner' : TaskDeque.OwnerPoint Task}
    {account : Account workers Task} (hands : Hands point owner account)
    (same : inHand next owner' = inHand point owner)
    (noPush : ∀ attempt task, next ≠ .pushing attempt task) :
    Hands next owner' account where
  settled := by
    rw [same]
    exact hands.settled
  pushes := fun attempt task pushing => absurd pushing (noPush attempt task)

end Hand

section Run

structure Inv (state : State workers Task)
    (accounts : Fin workers → Account workers Task) : Prop where
  deques : ∀ victim, (TaskDeque.machine Task (Fin workers)
    (options victim).localQueueCapacity).Reachable (state.deques victim)
  points : ∀ worker, PointInv options worker (accounts worker)
    (state.points worker)
  hands : ∀ worker, Hands (state.points worker) (state.deques worker).owner
    (accounts worker)
  thieves : ∀ worker victim,
    (state.deques victim).thieves worker ≠ .idle →
      ∃ attempt, state.points worker = .stealing attempt ∧
        attempt.victim = victim

variable {options} {state : State workers Task}
  {accounts : Fin workers → Account workers Task}
  {worker target : Fin workers} {account : Account workers Task}
  {point : Point workers Task}

theorem Inv.goto (inv : Inv options state accounts)
    (outside : ∀ attempt, state.points worker ≠ .stealing attempt)
    (noted : note worker state (state.goto worker point) (accounts worker) =
      account)
    (pointInv : PointInv options worker account point)
    (hands : Hands point (state.deques worker).owner account) :
    Inv options (state.goto worker point) (Function.update accounts worker
      (note worker state (state.goto worker point) (accounts worker))) := by
  rw [noted]
  constructor
  · exact inv.deques
  · intro other
    by_cases same : other = worker
    · subst same
      simpa [State.goto] using pointInv
    · simpa [State.goto, same] using inv.points other
  · intro other
    by_cases same : other = worker
    · subst same
      simpa [State.goto] using hands
    · simpa [State.goto, same] using inv.hands other
  · intro other victim busy
    obtain ⟨attempt, steals, isVictim⟩ := inv.thieves other victim busy
    have differs : other ≠ worker := by
      rintro rfl
      exact outside attempt steals
    exact ⟨attempt, by simpa [State.goto, differs] using steals, isVictim⟩

theorem Inv.idle (inv : Inv options state accounts)
    (outside : ∀ attempt, state.points worker ≠ .stealing attempt)
    (victim : Fin workers) :
    (state.deques victim).thieves worker = .idle := by
  by_contra busy
  obtain ⟨attempt, steals, _⟩ := inv.thieves worker victim busy
  exact outside attempt steals

theorem Inv.onDeque (inv : Inv options state accounts)
    {label : TaskDeque.Label Task (Fin workers)}
    {deque : TaskDeque.State Task (Fin workers)}
    (stepped : (state.deques target).step
      (options target).localQueueCapacity label = some deque)
    (actor : label.thief? = some worker ∨
      label.thief? = none ∧ target = worker)
    (noted : note worker state
      { deques := Function.update state.deques target deque
        points := Function.update state.points worker point }
      (accounts worker) = account)
    (pointInv : PointInv options worker account point)
    (hands : Hands point
      (Function.update state.deques target deque worker).owner account)
    (thieves : ∀ victim,
      (Function.update state.deques target deque victim).thieves worker ≠
        .idle → ∃ attempt, point = .stealing attempt ∧
          attempt.victim = victim) :
    Inv options
      { deques := Function.update state.deques target deque
        points := Function.update state.points worker point }
      (Function.update accounts worker (note worker state
        { deques := Function.update state.deques target deque
          points := Function.update state.points worker point }
        (accounts worker))) := by
  rw [noted]
  constructor
  · intro victim
    simp only [Function.update_apply]
    split
    · next same =>
        subst same
        exact (inv.deques victim).next stepped
    · exact inv.deques victim
  · intro other
    by_cases same : other = worker
    · subst same
      simpa using pointInv
    · simpa [same] using inv.points other
  · intro other
    by_cases same : other = worker
    · subst same
      simpa using hands
    · have sameOwner : (Function.update state.deques target deque other).owner =
          (state.deques other).owner := by
        rw [Function.update_apply]
        split
        · next isTarget =>
            subst isTarget
            obtain isThief | ⟨_, own⟩ := actor
            · exact TaskDeque.owner_eq_of_step isThief stepped
            · exact absurd own same
        · rfl
      simpa [same, sameOwner] using inv.hands other
  · intro other victim busy
    by_cases same : other = worker
    · subst same
      simpa using thieves victim busy
    · have sameThief : (Function.update state.deques target deque
          victim).thieves other = (state.deques victim).thieves other := by
        rw [Function.update_apply]
        split
        · next isTarget =>
            subst isTarget
            apply TaskDeque.thieves_eq_of_step _ stepped
            obtain isThief | ⟨noThief, _⟩ := actor
            · rw [isThief]
              simpa using Ne.symm same
            · rw [noThief]
              nofun
        · rfl
      rw [sameThief] at busy
      obtain ⟨attempt, steals, isVictim⟩ := inv.thieves other victim busy
      exact ⟨attempt, by simpa [same] using steals, isVictim⟩

/-- A size that is read without having wrapped is at most the capacity and one
for each other thief. -/
theorem Inv.sizeRead_le (inv : Inv options state accounts)
    (outside : ∀ attempt, state.points worker ≠ .stealing attempt)
    {victim : Fin workers} (counted : 0 ≤ (state.deques victim).size) :
    sizeRead (state.deques victim) ≤
      (options victim).localQueueCapacity.maxSize +
        otherThieves worker (state.deques victim) := by
  have bound := TaskDeque.size_le_of_reachable (inv.deques victim)
  have others : total TaskDeque.ThiefPoint.lag (state.deques victim).thieves ≤
      otherThieves worker (state.deques victim) := by
    rw [total, otherThieves, ← Finset.sum_boole]
    apply Finset.sum_le_sum
    intro other _
    by_cases same : other = worker
    · subst same
      simp [inv.idle outside victim, TaskDeque.ThiefPoint.lag]
    · cases (state.deques victim).thieves other <;>
        simp [TaskDeque.ThiefPoint.lag, same]
  unfold sizeRead
  omega

/-- Where a size is read that makes `stealOnce` divide, the counter has not
been taken below zero, and the divisor is not zero. -/
def FairRead (options : Options) (state : State workers Task) :
    Point workers Task → Prop
  | .readSize _ victim =>
      max 8 options.victimMinimumSize < sizeRead (state.deques victim) →
        0 ≤ (state.deques victim).size ∧ options.stealBatchFactor ≠ 0
  | _ => True

instance (options : Options) (state : State workers Task)
    (point : Point workers Task) : Decidable (FairRead options state point) := by
  cases point <;> unfold FairRead <;> infer_instance

def SizedFairly (options : Fin workers → Options)
    (state : State workers Task) : Label workers Task → Prop
  | .advance worker _ => FairRead (options worker) state (state.points worker)
  | _ => True

instance (options : Fin workers → Options) (state : State workers Task)
    (label : Label workers Task) :
    Decidable (SizedFairly options state label) := by
  cases label <;> unfold SizedFairly <;> infer_instance

theorem stealQuota_le (inv : Inv options state accounts)
    (outside : ∀ attempt, state.points worker ≠ .stealing attempt)
    {victim : Fin workers}
    (fairly : max 8 (options worker).victimMinimumSize <
        sizeRead (state.deques victim) →
      0 ≤ (state.deques victim).size ∧
        (options worker).stealBatchFactor ≠ 0) :
    IOWorker.stealQuota (options worker) (sizeRead (state.deques victim)) ≤
      fairShare options worker victim
        (otherThieves worker (state.deques victim)) := by
  unfold IOWorker.stealQuota
  split
  · next large =>
      exact Nat.div_le_div_right
        (inv.sizeRead_le outside (fairly large).1)
  · exact Nat.zero_le _

variable {drawn : Fin workers} {after : State workers Task}

theorem advance_pick {index : Nat} (inv : Inv options state accounts)
    (here : state.points worker = .pick index)
    (stepped : state.advance options worker drawn = some after) :
    Inv options after (Function.update accounts worker
      (note worker state after (accounts worker))) := by
  have pointInv := inv.points worker
  have hands := inv.hands worker
  rw [here] at pointInv hands
  obtain ⟨draws, tries, taken⟩ := pointInv
  simp only [State.advance, here, Option.some.injEq] at stepped
  subst stepped
  have drawn' : Hands (.pick index) (state.deques worker).owner
      { accounts worker with draws := (accounts worker).draws + 1 } :=
    ⟨hands.settled, nofun⟩
  split
  · next more =>
      split
      · refine inv.goto (by simp [here]) ?_ ?_ (drawn'.move rfl nofun)
        · simp [note, here, State.goto]
        · exact ⟨by rw [draws], more, taken⟩
      · next apart =>
          refine inv.goto (by simp [here]) ?_ ?_ (drawn'.move rfl nofun)
          · simp [note, here, State.goto]
          · exact ⟨by rw [draws], more, apart, taken⟩
  · refine inv.goto (by simp [here]) ?_ ?_ (hands.move rfl nofun)
    · simp [note, here, State.goto]
    · exact modest_of_taken_zero (draws ▸ tries) taken

theorem advance_readSize {index : Nat} {victim : Fin workers}
    (inv : Inv options state accounts)
    (here : state.points worker = .readSize index victim)
    (fairly : SizedFairly options state (.advance worker drawn))
    (stepped : state.advance options worker drawn = some after) :
    Inv options after (Function.update accounts worker
      (note worker state after (accounts worker))) := by
  have pointInv := inv.points worker
  have hands := inv.hands worker
  rw [here] at pointInv hands
  obtain ⟨draws, tries, apart, taken⟩ := pointInv
  simp only [SizedFairly, here, FairRead] at fairly
  simp only [State.advance, here, Option.some.injEq] at stepped
  subst stepped
  rw [if_neg fun divides => (fairly divides.1).2 divides.2]
  have noted (next : Attempt workers) :
      note worker state (state.goto worker (.next next)) (accounts worker) =
        { accounts worker with
          others := otherThieves worker (state.deques victim) } := by
    simp [note, here, State.goto]
  refine inv.goto (by simp [here]) (noted _) ?_ ?_
  · exact
      { draws := draws
        tries := tries
        apart := apart
        taken := by
          rw [taken]
          exact (Function.update_eq_self victim fun _ => 0).symm
        share := by
          simpa using stealQuota_le inv (by simp [here]) fairly }
  · exact ⟨hands.settled, nofun⟩

theorem advance_spaceBottom {attempt : Attempt workers} {task : Option Task}
    (inv : Inv options state accounts)
    (here : state.points worker = .spaceBottom attempt task)
    (stepped : state.advance options worker drawn = some after) :
    Inv options after (Function.update accounts worker
      (note worker state after (accounts worker))) := by
  have pointInv := inv.points worker
  have hands := inv.hands worker
  rw [here] at pointInv hands
  simp only [State.advance, here, Option.some.injEq] at stepped
  subst stepped
  refine inv.goto (by simp [here]) ?_ pointInv (hands.move rfl nofun)
  simp [note, here, State.goto]

theorem advance_spaceTop {attempt : Attempt workers} {task : Option Task}
    {b : Nat} (inv : Inv options state accounts)
    (here : state.points worker = .spaceTop attempt task b)
    (stepped : state.advance options worker drawn = some after) :
    Inv options after (Function.update accounts worker
      (note worker state after (accounts worker))) := by
  have pointInv := inv.points worker
  have hands := inv.hands worker
  rw [here] at pointInv hands
  simp only [State.advance, here, Option.some.injEq] at stepped
  subst stepped
  split
  · cases task with
    | none =>
        refine inv.goto (by simp [here]) ?_ pointInv (hands.move rfl nofun)
        simp [note, here, State.goto, runHere]
    | some task =>
        have noted : note worker state
            (state.goto worker (runHere attempt (some task)))
            (accounts worker) =
              (accounts worker).settle (.executed task) := by
          simp [note, here, State.goto, runHere]
        refine inv.goto (by simp [here]) noted (Keeps.settle pointInv _)
          ⟨?_, nofun⟩
        have settled := hands.settled
        simp only [inHand, Option.toList_some] at settled
        simp [Account.settle, Settled.task, inHand, runHere, settled]
  · refine inv.goto (by simp [here]) ?_ pointInv (hands.move rfl nofun)
    simp [note, here, State.goto]

theorem advance_running {attempt : Attempt workers}
    (inv : Inv options state accounts)
    (here : state.points worker = .running attempt)
    (stepped : state.advance options worker drawn = some after) :
    Inv options after (Function.update accounts worker
      (note worker state after (accounts worker))) := by
  have pointInv := inv.points worker
  have hands := inv.hands worker
  rw [here] at pointInv hands
  simp only [State.advance, here] at stepped
  split at stepped
  · cases stepped
    refine inv.goto (by simp [here]) ?_ pointInv (hands.move rfl nofun)
    simp [note, here, State.goto]
  · cases stepped

theorem onDeque_cases {label : TaskDeque.Label Task (Fin workers)}
    {onward : TaskDeque.State Task (Fin workers) → Point workers Task}
    (stepped : state.onDeque options worker target label onward =
      some after) :
    ∃ deque, (state.deques target).step (options target).localQueueCapacity
        label = some deque ∧
      after = { deques := Function.update state.deques target deque
                points := Function.update state.points worker
                  (onward deque) } := by
  obtain ⟨deque, moved, rfl⟩ := Option.map_eq_some_iff.mp stepped
  exact ⟨deque, moved, rfl⟩

theorem advance_next {attempt : Attempt workers}
    (inv : Inv options state accounts)
    (here : state.points worker = .next attempt)
    (stepped : state.advance options worker drawn = some after) :
    Inv options after (Function.update accounts worker
      (note worker state after (accounts worker))) := by
  have pointInv := inv.points worker
  have hands := inv.hands worker
  rw [here] at pointInv hands
  simp only [State.advance, here] at stepped
  split at stepped
  · cases stepped
    refine inv.goto (by simp [here]) ?_ (Keeps.leave pointInv)
      (hands.move ?_ ?_)
    · simp [note, here]
    · unfold Attempt.leave
      split <;> rfl
    · unfold Attempt.leave
      split <;> nofun
  · next more =>
      obtain ⟨deque, moved, rfl⟩ := onDeque_cases stepped
      refine inv.onDeque moved (.inl rfl) ?_ ⟨pointInv, Nat.pos_of_ne_zero more⟩
        (hands.move rfl nofun) ?_
      · simp [note, here]
      · intro victim busy
        rw [Function.update_apply] at busy
        split at busy
        · next same => exact ⟨attempt, rfl, same.symm⟩
        · exact absurd (inv.idle (by simp [here]) victim) busy

theorem advance_stealing {attempt : Attempt workers}
    (inv : Inv options state accounts)
    (here : state.points worker = .stealing attempt)
    (stepped : state.advance options worker drawn = some after) :
    Inv options after (Function.update accounts worker
      (note worker state after (accounts worker))) := by
  have pointInv := inv.points worker
  have hands := inv.hands worker
  rw [here] at pointInv hands
  obtain ⟨keeps, more⟩ := pointInv
  simp only [State.advance, here] at stepped
  obtain ⟨deque, moved, rfl⟩ := onDeque_cases stepped
  have elsewhere : ∀ victim, victim ≠ attempt.victim →
      (state.deques victim).thieves worker = .idle := by
    intro victim apart
    by_contra busy
    obtain ⟨_, steals, same⟩ := inv.thieves worker victim busy
    rw [here] at steals
    cases steals
    exact apart same.symm
  by_cases returned : deque.thieves worker = .idle
  · have allIdle : ∀ victim, (Function.update state.deques attempt.victim
        deque victim).thieves worker = .idle := by
      intro victim
      rw [Function.update_apply]
      split
      · exact returned
      · next apart => exact elsewhere victim apart
    simp only [State.afterSteal, returned]
    split
    · generalize (state.deques attempt.victim).buffer _ = value
      refine inv.onDeque moved (.inl rfl) ?_ (keeps.take more value) ?_
        (fun victim busy => absurd (allIdle victim) busy)
      · simp [note, here]
      · refine ⟨?_, nofun⟩
        have settled := hands.settled
        simp only [inHand, List.append_nil] at settled
        simp [Account.take, inHand, settled]
    · refine inv.onDeque moved (.inl rfl) ?_ keeps.leave (hands.move ?_ ?_)
        (fun victim busy => absurd (allIdle victim) busy)
      · unfold Attempt.leave
        split <;> simp [note, here]
      · unfold Attempt.leave
        split <;> rfl
      · unfold Attempt.leave
        split <;> nofun
  · have stays : state.afterSteal options worker attempt deque =
        .stealing attempt := by
      unfold State.afterSteal
      split
      · next idle => exact absurd idle returned
      · rfl
    rw [stays]
    refine inv.onDeque moved (.inl rfl) ?_ ⟨keeps, more⟩ (hands.move rfl nofun)
      ?_
    · simp [note, here]
    · intro victim busy
      rw [Function.update_apply] at busy
      split at busy
      · next same => exact ⟨attempt, rfl, same.symm⟩
      · next apart => exact absurd (elsewhere victim apart) busy

theorem Inv.onOwn (inv : Inv options state accounts)
    (outside : ∀ attempt, state.points worker ≠ .stealing attempt)
    {label : TaskDeque.Label Task (Fin workers)}
    (owner : label.thief? = none)
    {deque : TaskDeque.State Task (Fin workers)}
    (moved : (state.deques worker).step (options worker).localQueueCapacity
      label = some deque)
    (noted : note worker state
      { deques := Function.update state.deques worker deque
        points := Function.update state.points worker point }
      (accounts worker) = account)
    (pointInv : PointInv options worker account point)
    (hands : Hands point deque.owner account) :
    Inv options
      { deques := Function.update state.deques worker deque
        points := Function.update state.points worker point }
      (Function.update accounts worker (note worker state
        { deques := Function.update state.deques worker deque
          points := Function.update state.points worker point }
        (accounts worker))) := by
  refine inv.onDeque moved (.inr ⟨owner, rfl⟩) noted pointInv ?_ ?_
  · rw [Function.update_self]
    exact hands
  · intro victim busy
    rw [Function.update_apply] at busy
    split at busy
    · rw [TaskDeque.thieves_eq_of_step (by rw [owner]; nofun) moved] at busy
      exact absurd (inv.idle outside worker) busy
    · exact absurd (inv.idle outside victim) busy

theorem advance_offer {attempt : Attempt workers} {task : Option Task}
    (inv : Inv options state accounts)
    (here : state.points worker = .offer attempt task)
    (stepped : state.advance options worker drawn = some after) :
    Inv options after (Function.update accounts worker
      (note worker state after (accounts worker))) := by
  have pointInv := inv.points worker
  have hands := inv.hands worker
  rw [here] at pointInv hands
  cases task with
  | none =>
      simp only [State.advance, here, Option.some.injEq] at stepped
      subst stepped
      refine inv.goto (by simp [here]) ?_ pointInv (hands.move rfl nofun)
      simp [note, here, State.goto]
  | some task =>
      simp only [State.advance, here] at stepped
      obtain ⟨deque, moved, rfl⟩ := onDeque_cases stepped
      have pushes : deque.owner = .pushTop task (state.deques worker).bottom := by
        cases owner : (state.deques worker).owner with
        | idle =>
            simp only [TaskDeque.State.step, owner] at moved
            cases moved
            rfl
        | _ => simp [TaskDeque.State.step, owner] at moved
      refine inv.onOwn (by simp [here]) rfl moved ?_ pointInv ?_
      · simp [note, here]
      · rw [pushes]
        exact ⟨hands.settled, fun _ _ same => by cases same; rfl⟩

theorem advance_pushing {attempt : Attempt workers} {task : Task}
    (inv : Inv options state accounts)
    (here : state.points worker = .pushing attempt task)
    (stepped : state.advance options worker drawn = some after) :
    Inv options after (Function.update accounts worker
      (note worker state after (accounts worker))) := by
  have pointInv := inv.points worker
  have hands := inv.hands worker
  rw [here] at pointInv hands
  simp only [State.advance, here] at stepped
  obtain ⟨deque, moved, rfl⟩ := onDeque_cases stepped
  have pushes := hands.pushes attempt task rfl
  have settled := hands.settled
  simp only [inHand] at settled
  have goes (next : Point workers Task) (account : Account workers Task)
      (onward : state.afterPush worker attempt task deque = next)
      (noted : note worker state
        { deques := Function.update state.deques worker deque
          points := Function.update state.points worker next }
        (accounts worker) = account)
      (nextInv : PointInv options worker account next)
      (nextHands : Hands next deque.owner account) :
      Inv options
        { deques := Function.update state.deques worker deque
          points := Function.update state.points worker
            (state.afterPush worker attempt task deque) }
        (Function.update accounts worker (note worker state
          { deques := Function.update state.deques worker deque
            points := Function.update state.points worker
              (state.afterPush worker attempt task deque) }
          (accounts worker))) := by
    rw [onward]
    exact inv.onOwn (by simp [here]) rfl moved noted nextInv nextHands
  simp only [TaskDeque.State.step, TaskDeque.State.ownerStep] at moved
  cases owner : (state.deques worker).owner with
  | pushTop pushed b =>
      rw [owner] at pushes settled
      obtain rfl : pushed = task := pushes
      simp only [owner] at moved
      split at moved <;> cases moved
      · refine goes (.running attempt)
          ((accounts worker).settle (.executed pushed)) ?_ ?_
          (Keeps.settle pointInv _) ⟨?_, by simp⟩
        · simp [State.afterPush, owner, runHere]
        · simp [note, here]
        · simp only [ownerHand] at settled
          simp [Account.settle, Settled.task, inHand, settled]
      · refine goes (.pushing attempt pushed) (accounts worker) rfl ?_ pointInv
          ⟨settled, fun _ _ same => by cases same; rfl⟩
        simp [note, here, owner]
  | pushWrite pushed b =>
      rw [owner] at pushes settled
      simp only [owner, Option.some.injEq] at moved
      subst moved
      refine goes (.pushing attempt task) (accounts worker) rfl ?_ pointInv
        ⟨settled, fun _ _ same => by cases same; exact pushes⟩
      simp [note, here, owner]
  | pushBottom pushed b =>
      rw [owner] at pushes settled
      simp only [owner, Option.some.injEq] at moved
      subst moved
      refine goes (.pushing attempt task)
        ((accounts worker).settle (.queued pushed)) rfl ?_
        (Keeps.settle pointInv _) ⟨?_, fun _ _ _ => trivial⟩
      · simp [note, here, owner]
      · simp only [ownerHand] at settled
        simp [Account.settle, Settled.task, inHand, ownerHand, settled]
  | pushSize =>
      rw [owner] at settled
      simp only [owner, Option.some.injEq] at moved
      subst moved
      refine goes (.next attempt.count) (accounts worker) ?_ ?_ pointInv
        ⟨settled, by simp⟩
      · simp [State.afterPush, owner]
      · simp [note, here, owner]
  | _ =>
      rw [owner] at pushes
      exact pushes.elim

theorem advance_inv (inv : Inv options state accounts)
    (fairly : SizedFairly options state (.advance worker drawn))
    (stepped : state.advance options worker drawn = some after) :
    Inv options after (Function.update accounts worker
      (note worker state after (accounts worker))) := by
  cases here : state.points worker with
  | outside | divisionByZero => simp [State.advance, here] at stepped
  | pick index => exact advance_pick inv here stepped
  | readSize index victim => exact advance_readSize inv here fairly stepped
  | next attempt => exact advance_next inv here stepped
  | stealing attempt => exact advance_stealing inv here stepped
  | spaceBottom attempt task => exact advance_spaceBottom inv here stepped
  | spaceTop attempt task b => exact advance_spaceTop inv here stepped
  | offer attempt task => exact advance_offer inv here stepped
  | pushing attempt task => exact advance_pushing inv here stepped
  | running attempt => exact advance_running inv here stepped

theorem own_inv {call : OwnCall Task} (inv : Inv options state accounts)
    (stepped : state.step options (.own worker call) = some after) :
    Inv options after accounts := by
  simp only [State.step, Option.ite_none_right_eq_some] at stepped
  obtain ⟨mayOwn, stepped⟩ := stepped
  obtain ⟨deque, moved, rfl⟩ := onDeque_cases stepped
  have pointInv := inv.points worker
  have hands := inv.hands worker
  have owner : (call.label : TaskDeque.Label Task (Fin workers)).thief? =
      none := by
    cases call <;> rfl
  have keeps (outside : ∀ attempt, state.points worker ≠ .stealing attempt)
      (noPush : ∀ attempt task, state.points worker ≠ .pushing attempt task)
      (noHand : ∀ owner, inHand (state.points worker) owner = [])
      (noted : note worker state
        { deques := Function.update state.deques worker deque
          points := Function.update state.points worker
            (state.points worker) } (accounts worker) = accounts worker) :
      Inv options
        { deques := Function.update state.deques worker deque
          points := Function.update state.points worker
            (state.points worker) } accounts := by
    have kept := inv.onOwn outside owner moved noted pointInv
      (hands.move (by rw [noHand, noHand]) noPush)
    rwa [noted, Function.update_eq_self worker accounts] at kept
  cases here : state.points worker with
  | outside | running attempt =>
      rw [← here]
      exact keeps (by simp [here]) (by simp [here]) (by simp [here, inHand])
        (by simp [note, here])
  | _ => simp [State.mayOwn, here] at mayOwn

theorem Inv.reopen (inv : Inv options state accounts)
    (here : state.points worker = .outside) :
    Inv options state
      (Function.update accounts worker (accounts worker).reopen) where
  deques := inv.deques
  points := by
    intro other
    by_cases same : other = worker
    · subst same
      rw [Function.update_self, here]
      exact modest_of_taken_zero (Nat.zero_le _) rfl
    · rw [Function.update_of_ne same]
      exact inv.points other
  hands := by
    intro other
    by_cases same : other = worker
    · subst same
      rw [Function.update_self]
      exact ⟨(inv.hands other).settled, (inv.hands other).pushes⟩
    · rw [Function.update_of_ne same]
      exact inv.hands other
  thieves := inv.thieves

theorem begin_inv (inv : Inv options state accounts)
    (stepped : state.step options (.begin worker) = some after) :
    Inv options after (observe state (.begin worker) after accounts) := by
  simp only [State.step] at stepped
  split at stepped
  · next here idle =>
      cases stepped
      have opened := inv.reopen here
      have pointInv := opened.points worker
      have hands := opened.hands worker
      rw [here, Function.update_self] at pointInv hands
      have goes (next : Point workers Task)
          (noted : note worker state (state.goto worker next)
            (accounts worker).reopen = (accounts worker).reopen)
          (nextInv : PointInv options worker (accounts worker).reopen next)
          (nextHands : Hands next (state.deques worker).owner
            (accounts worker).reopen) :
          Inv options (state.goto worker next)
            (Function.update accounts worker (accounts worker).reopen) := by
        have kept := opened.goto (by simp [here])
          (by rw [Function.update_self]; exact noted) nextInv nextHands
        rwa [Function.update_self, noted, Function.update_idem] at kept
      split
      · exact goes (.pick 0) (by simp [note, here, State.goto])
          ⟨rfl, Nat.zero_le _, rfl⟩ (hands.move rfl nofun)
      · exact goes .outside (by simp [note, here, State.goto]) pointInv hands
  · cases stepped

theorem inv_step {label : Label workers Task} (inv : Inv options state accounts)
    (fairly : SizedFairly options state label)
    (stepped : state.step options label = some after) :
    Inv options after (observe state label after accounts) := by
  cases label with
  | own worker call => exact own_inv inv stepped
  | begin worker => exact begin_inv inv stepped
  | advance worker drawn => exact advance_inv inv fairly stepped

theorem inv_of_reachableUnder
    (reached : (observed Task options).ReachableUnder
      (fun observed => SizedFairly options observed.1) (state, accounts)) :
    Inv options state accounts := by
  apply System.withHistory_invariant (Inv options) _ _ reached
  · rintro state rfl
    exact
      { deques := fun victim => .start rfl
        points := fun worker => modest_of_taken_zero (Nat.zero_le _) rfl
        hands := fun worker => ⟨rfl, nofun⟩
        thieves := fun _ _ busy => absurd rfl busy }
  · intro state accounts label after inv fairly stepped
    exact inv_step inv fairly stepped

/-- What `stealOnce` promises of a worker's present or last call, and of what
it has stolen in all calls. -/
structure QuotaKept (options : Fin workers → Options)
    (state : State workers Task)
    (accounts : Fin workers → Account workers Task) (worker : Fin workers) :
    Prop where
  divides : state.points worker ≠ .divisionByZero
  modest : Modest options worker (accounts worker)
  settled : (accounts worker).stolen =
    (accounts worker).settled.map Settled.task ++
      inHand (state.points worker) (state.deques worker).owner

/-- In every run in which no size is read that has wrapped, and none that is
divided by zero, every call of `stealOnce` keeps its quota, whatever the other
workers do to the deques. -/
theorem quotaKept_of_sizedFairly
    (reached : (observed Task options).ReachableUnder
      (fun observed => SizedFairly options observed.1) (state, accounts))
    (worker : Fin workers) : QuotaKept options state accounts worker := by
  have inv := inv_of_reachableUnder reached
  have pointInv := inv.points worker
  constructor
  · intro divided
    rw [divided] at pointInv
    exact pointInv
  · exact pointInv.modest
  · exact (inv.hands worker).settled

end Run

section Runs

def twoWorkers (stealBatchFactor : Nat) : Fin 2 → Options := fun _ =>
  { localQueueCapacity := ⟨4, Nat.zero_lt_succ _⟩, victimMinimumSize := 0,
    stealBatchFactor }

theorem reached_start (factor : Nat)
    {guard : State 2 Nat × (Fin 2 → Account 2 Nat) → Label 2 Nat → Prop} :
    (observed Nat (twoWorkers factor)).ReachableUnder guard
      (initialState, fun _ => {}) :=
  .start ⟨rfl, rfl⟩

def pushOwn (task : Nat) : List (Label 2 Nat) :=
  .own 0 (.push (some task)) :: List.replicate 4 (.own 0 .step)

def nineRead : List (Label 2 Nat) :=
  (List.range 9).flatMap pushOwn ++
    [Label.begin 1, .advance 1 0, .advance 1 0]

/-- One task is stolen, which is the share, and queued. -/
theorem quotaKept_of_sizedFairly_nineRead :
    ∃ (state : State 2 Nat) (accounts : Fin 2 → Account 2 Nat),
      (accounts 1).stolen = [0] ∧ (accounts 1).settled = [.queued 0] ∧
        QuotaKept (twoWorkers 9) state accounts 1 := by
  have run : ((observed Nat (twoWorkers 9)).replay
      (initialState, fun _ => {})
      (nineRead ++ List.replicate 13 (Label.advance 1 0))).map
        (fun reached => ((reached.2 1).stolen, (reached.2 1).settled)) =
          some ([0], [.queued 0]) := by decide +kernel
  have guarded : (observed Nat (twoWorkers 9)).Follows
      (fun observed => SizedFairly (twoWorkers 9) observed.1)
      (initialState, fun _ => {})
      (nineRead ++ List.replicate 13 (Label.advance 1 0)) := by decide +kernel
  obtain ⟨⟨state, accounts⟩, ends, seen⟩ := Option.map_eq_some_iff.mp run
  simp only [Prod.mk.injEq] at seen
  exact ⟨state, accounts, seen.1, seen.2, quotaKept_of_sizedFairly
    ((reached_start 9).replay _ guarded ends) 1⟩

/-- The first worker pops all its tasks, publishes one more and has not counted
it yet; the second steals that one and reads the size again.  Then the first
pushes two more, and the second takes both. -/
def wrappedSize : List (Label 2 Nat) :=
  nineRead ++
    (List.replicate 8
      (Label.own 0 .pop :: List.replicate 4 (Label.own 0 .step))).flatten ++
    Label.own 0 .pop :: List.replicate 6 (Label.own 0 .step) ++
    (pushOwn 9).take 4 ++ List.replicate 13 (Label.advance 1 0) ++
    [Label.begin 1, .advance 1 0, .advance 1 0, .own 0 .step] ++
    pushOwn 10 ++ pushOwn 11 ++ List.replicate 24 (Label.advance 1 0)

/-- A factor of zero is divided by; and a size that has wrapped lets a thief
take more than its share. -/
theorem unfairReads_break_quota :
    (¬ ∀ (state : State 2 Nat) (accounts : Fin 2 → Account 2 Nat),
      (observed Nat (twoWorkers 0)).Reachable (state, accounts) →
        ∀ worker, QuotaKept (twoWorkers 0) state accounts worker) ∧
    ¬ ∀ (state : State 2 Nat) (accounts : Fin 2 → Account 2 Nat),
      (observed Nat (twoWorkers 9)).Reachable (state, accounts) →
        ∀ worker, QuotaKept (twoWorkers 9) state accounts worker := by
  constructor
  · intro claimed
    have run : ((observed Nat (twoWorkers 0)).replay
        (initialState, fun _ => {}) nineRead).map
          (fun reached => reached.1.points 1) = some .divisionByZero := by
      decide +kernel
    obtain ⟨⟨state, accounts⟩, ends, divides⟩ :=
      Option.map_eq_some_iff.mp run
    have reached := System.Reachable.replay nineRead (reached_start 0) ends
    exact (claimed state accounts reached 1).divides divides
  · intro claimed
    have run : ((observed Nat (twoWorkers 9)).replay
        (initialState, fun _ => {}) wrappedSize).map
          (fun reached => ((reached.2 1).taken 0, (reached.2 1).others)) =
            some (2, 0) := by decide +kernel
    obtain ⟨⟨state, accounts⟩, ends, seen⟩ := Option.map_eq_some_iff.mp run
    simp only [Prod.mk.injEq] at seen
    have reached := System.Reachable.replay wrappedSize (reached_start 9) ends
    have share := (claimed state accounts reached 1).modest.taken 0
    rw [seen.1, seen.2] at share
    exact absurd share (by decide)

end Runs

end RopHive.Schedule.StealOnce
