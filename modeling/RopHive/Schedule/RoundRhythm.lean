import RopHive.Schedule.Round

namespace RopHive.Schedule

open PriorityQueue Transition

/-! Turns of one worker's loop within runs of the hive. -/

section Rounds

variable {Outside : Type} {workers computers : Nat} {Task : Type}
  {config : Config workers computers} {target : Fin workers}
  {state after : State Outside workers computers Task}

/-- A turn of one worker's loop, with what is pushed into its `inbound_` once
`drainInbound` has swapped it. -/
structure Round (workers : Nat) (Task : Type) where
  course : Course workers Task := {}
  posted : List (InboundCommand Task) := []

def observeRound (config : Config workers computers) (target : Fin workers) :
    System.Observer (State Outside workers computers Task)
      (Label Outside workers computers Task) (Round workers Task)
  | state, label, after, round =>
      let pushed :=
        (after.enqueued target).drop (state.enqueued target).length
      { course :=
          match label with
          | .io worker choice =>
              if worker = target then
                (((state.ioWorkers target).step (config.io target) target
                  state.view choice).map
                    (round.course.next (state.ioWorkers target)
                      state.view)).getD round.course
              else round.course
          | _ => round.course
        posted :=
          if round.course.taken.isSome then round.posted ++ pushed
          else round.posted }

/-- The worker takes its steps while no flag is set, up to the end of the
turn; the other threads take any steps. -/
def InRound (target : Fin workers)
    (observed : State Outside workers computers Task × Round workers Task) :
    Label Outside workers computers Task → Prop
  | .io worker _ => worker = target →
      (observed.1.ioWorkers target).stopRequested = false ∧
        observed.1.exitRequested = false ∧
        (observed.1.ioWorkers target).point ≠ .checkStop .loop
  | _ => True

instance [DecidableEq Task]
    (observed : State Outside workers computers Task × Round workers Task)
    (label : Label Outside workers computers Task) :
    Decidable (InRound target observed label) :=
  match label with
  | .io worker _ => inferInstanceAs (Decidable (worker = target →
      (observed.1.ioWorkers target).stopRequested = false ∧
        observed.1.exitRequested = false ∧
        (observed.1.ioWorkers target).point ≠ .checkStop .loop))
  | .call _ _ | .advance _ _ | .compute _ | .tick _ =>
      inferInstanceAs (Decidable True)

variable [DecidableEq Outside]

def roundObserved (config : Config workers computers) (target : Fin workers)
    (first : State Outside workers computers Task) :=
  System.withHistory
    { machine Outside Task config with
      initial := fun state => state = first }
    {} (observeRound config target)

/-- The rhythm of a turn that began with the worker `first`. -/
structure Rhythmic (options : Options) (first worker : IOWorker workers Task)
    (round : Round workers Task) (privates : List Task)
    (timers : List (TimerTask Task)) (now : Int) : Prop where
  order : round.course.started =
    privates.map (Prod.mk Origin.privateTask) ++
      timers.map (TimerTask.startedAt now) ++
      (round.course.digestion.pops.map fun pop => (Origin.localBatch, pop.2)) ++
      round.course.digestion.refused.map Prod.snd
  /-- Nothing is started before the inbound queue has been swapped. -/
  drained : round.course.taken = none → round.course = {}
  inOrder : privates <+: first.queueAfter (round.course.taken.getD [])
  allPrivates : round.course.sampled ≠ none →
    privates = first.queueAfter (round.course.taken.getD [])
  sampled : timers ≠ [] → round.course.sampled = some now
  sorted : timers.Pairwise fun earlier later =>
    earlier.deadline ≤ later.deadline
  due : ∀ timer ∈ timers, timer.deadline ≤ now
  queued : timers.Subperm (first.heapAfter (round.course.taken.getD []))
  /-- All due timers are done with before the local deque is turned to, and
  at the end of the turn. -/
  allTimers : round.course.digestion ≠ {} ∨
      worker.point = .checkStop .loop →
    round.course.sampled = some now ∧
      timers.Perm ((first.heapAfter (round.course.taken.getD [])).filter
        fun timer => timer.deadline ≤ now)
  frugal : round.course.digestion.Frugal options
  /-- What is pushed after the swap stays in the inbound queue. -/
  posted : round.course.taken ≠ none → worker.inbound.q = round.posted

omit [DecidableEq Outside] in
theorem Proceeds.rhythmic {options : Options}
    {first worker : IOWorker workers Task} {round : Round workers Task}
    (proceeds : Proceeds options first worker round.course)
    (posted : round.course.taken ≠ none → worker.inbound.q = round.posted) :
    ∃ privates timers now,
      Rhythmic options first worker round privates timers now := by
  obtain ⟨course, pushed⟩ := round
  cases proceeds with
  | swapping point same queue timers =>
      cases same
      refine ⟨[], [], 0, rfl, fun _ => rfl, List.nil_prefix, nofun, nofun,
        .nil, nofun, List.nil_subperm, ?_, Digestion.frugal_initial, posted⟩
      rintro (digested | finished)
      · exact absurd rfl digested
      · rw [finished] at point
        obtain point | point := point <;> cases point
  | merging point same queue timers =>
      cases same
      refine ⟨[], [], 0, rfl, nofun, List.nil_prefix, nofun, nofun,
        .nil, nofun, List.nil_subperm, ?_, Digestion.frugal_initial, posted⟩
      rintro (digested | finished)
      · exact absurd rfl digested
      · rw [finished] at point
        obtain point | point := point <;> cases point
  | privates ran point same queue timers =>
      cases same
      refine ⟨ran, [], 0, ?_, nofun, ?_, nofun, nofun,
        .nil, nofun, List.nil_subperm, ?_, Digestion.frugal_initial, posted⟩
      · simp
      · exact ⟨worker.privateQueue, queue⟩
      · rintro (digested | finished)
        · exact absurd rfl digested
        · rw [finished] at point
          cases point
  | @sampling taken point same timers =>
      cases same
      refine ⟨first.queueAfter taken, [], 0, ?_, nofun, ?_, nofun, nofun,
        .nil, nofun, List.nil_subperm, ?_, Digestion.frugal_initial, posted⟩
      · simp
      · exact List.prefix_refl _
      · rintro (digested | finished)
        · exact absurd rfl digested
        · rw [finished] at point
          cases point
  | @expiring ran taken now point same pops =>
      cases same
      refine ⟨first.queueAfter taken, ran, now, ?_, nofun,
        List.prefix_refl _, fun _ => rfl, fun _ => rfl, pops.sorted, pops.due,
        ?_, ?_, Digestion.frugal_initial, posted⟩
      · simp
      · exact (List.sublist_append_left _ _).subperm.trans
          pops.perm.symm.subperm
      · rintro (digested | finished)
        · exact absurd rfl digested
        · rw [finished] at point
          cases point
  | @digesting taken now ran queue digestion digests same pops finished =>
      cases same
      refine ⟨first.queueAfter taken, ran, now, ?_, nofun,
        List.prefix_refl _, fun _ => rfl, fun _ => rfl, pops.sorted, pops.due,
        ?_, fun _ => ⟨rfl, pops.exact finished⟩, digests.frugal, posted⟩
      · simp [Digestion.started]
      · exact (List.sublist_append_left _ _).subperm.trans
          pops.perm.symm.subperm

structure RoundInv (options : Options) (first worker : IOWorker workers Task)
    (round : Round workers Task) : Prop where
  proceeds : Proceeds options first worker round.course
  posted : round.course.taken ≠ none → worker.inbound.q = round.posted
  fresh : round.course.taken = none → round.posted = []

omit [DecidableEq Outside] in
theorem Proceeds.taken_of_drainSwap {options : Options}
    {first worker : IOWorker workers Task} {course : Course workers Task}
    (proceeds : Proceeds options first worker course)
    (swapping : worker.point = .drainSwap) : course.taken = none := by
  cases proceeds with
  | swapping point same queue timers => rw [same]
  | merging point same queue timers =>
      rw [swapping] at point
      obtain point | point := point <;> cases point
  | privates ran point same queue timers =>
      rw [swapping] at point
      cases point
  | sampling point same timers =>
      rw [swapping] at point
      cases point
  | expiring ran point same pops =>
      rw [swapping] at point
      cases point
  | digesting digests same pops finished =>
      rw [swapping] at digests
      exact digests.stands.elim

omit [DecidableEq Outside] in
theorem RoundInv.own {options : Options} {first worker : IOWorker workers Task}
    {view : View workers Task} {choice : Choice workers}
    {outcome : Outcome workers Task} {round : Round workers Task}
    (inv : RoundInv options first worker round)
    (unstopped : worker.stopRequested = false)
    (unexited : view.exitRequested = false)
    (within : worker.point ≠ .checkStop .loop)
    (stepped : worker.step options target view choice = some outcome) :
    RoundInv options first outcome.worker
      { round with
        course := round.course.next worker view outcome } := by
  have inbound := IOWorker.step_inbound stepped
  refine ⟨inv.proceeds.step unstopped unexited within stepped, ?_, ?_⟩
  · intro taken
    by_cases swapping : worker.point = .drainSwap
    · have unread := inv.proceeds.taken_of_drainSwap swapping
      simp only [swapping, IOPoint.swaps, if_true] at inbound
      rw [inbound, inv.fresh unread]
    · have stays : worker.point.swaps = false := by
        cases point : worker.point with
        | drainSwap => exact absurd point swapping
        | _ => rfl
      simp only [stays, Bool.false_eq_true, if_false] at inbound
      rw [inbound]
      apply inv.posted
      simpa [Course.next] using taken
  · intro unread
    apply inv.fresh
    simp only [Course.next] at unread
    split at unread
    · cases unread
    · exact unread

theorem RoundInv.step {first : IOWorker workers Task}
    {label : Label Outside workers computers Task} {round : Round workers Task}
    (inv : RoundInv (config.io target) first (state.ioWorkers target) round)
    (within : InRound target (state, round) label)
    (stepped : state.step config label = some after) :
    RoundInv (config.io target) first (after.ioWorkers target)
      (observeRound config target state label after round) := by
  obtain ⟨choice, outcome, rfl, moved, worker, enqueued, _⟩ |
    ⟨other, disturbed, _, pushed, enqueued, inbound⟩ :=
    State.step_seenBy target stepped
  · obtain ⟨unstopped, unexited, inside⟩ := within rfl
    have same : observeRound config target state (.io target choice) after
        round =
          { round with
            course :=
              round.course.next (state.ioWorkers target) state.view
                outcome } := by
      simp [observeRound, moved, enqueued]
    rw [same, worker]
    exact inv.own unstopped unexited inside moved
  · have same : observeRound config target state label after round =
        { round with
          posted :=
            if round.course.taken.isSome then round.posted ++ pushed
            else round.posted } := by
      simp only [observeRound, enqueued, List.drop_left]
      cases label with
      | io worker choice =>
          have apart : worker ≠ target := by
            rintro rfl
            exact other choice rfl
          simp only [apart, if_false]
      | _ => rfl
    rw [same]
    refine ⟨inv.proceeds.disturbed disturbed, ?_, ?_⟩
    · intro taken
      rw [inbound, inv.posted taken,
        if_pos (Option.isSome_iff_ne_none.mpr taken)]
    · intro unread
      have untaken : round.course.taken = none := unread
      simp only [untaken, Option.isSome_none, Bool.false_eq_true, if_false]
      exact inv.fresh untaken

/-- In a running hive the private queue is empty but for the two functions
that work on it. -/
theorem privateQueue_spent
    (reached : (machine Outside Task config).Reachable state)
    (running : state.Running) (target : Fin workers)
    (elsewhere : (state.ioWorkers target).point.holdsPrivates = false) :
    (state.ioWorkers target).privateQueue = [] := by
  have inv := reached.invariant
    (fun state => state.Running →
      (state.ioWorkers target).point.holdsPrivates = false →
      (state.ioWorkers target).privateQueue = []) ?_ ?_
  · exact inv running elsewhere
  · rintro _ rfl _ _
    rfl
  · intro state label after spent stepped running elsewhere
    have before := running.before stepped
    obtain ⟨choice, outcome, rfl, moved, worker, _⟩ | ⟨_, disturbed, _⟩ :=
      State.step_seenBy target stepped
    · rw [worker] at elsewhere ⊢
      exact IOWorker.step_spent (before.2 target) before.1 moved (spent before)
        elsewhere
    · rw [disturbed.point] at elsewhere
      rw [disturbed.privateQueue]
      exact spent before elsewhere

/-- From any state in which the wait of a worker has returned, the turn that
follows keeps the rhythm, as far as it has come.  In a running hive its private
tasks are those that it drains. -/
theorem round_rhythmic (config : Config workers computers)
    {target : Fin workers} {first state : State Outside workers computers Task}
    {round : Round workers Task}
    (returned : (first.ioWorkers target).point = .clearSleeping ∨
      (first.ioWorkers target).point = .drainSwap)
    (reached : (roundObserved config target first).ReachableUnder
      (InRound target) (state, round)) :
    (∃ privates timers now, Rhythmic (config.io target)
      (first.ioWorkers target) (state.ioWorkers target) round
      privates timers now) ∧
    ((machine Outside Task config).Reachable first → first.Running →
      (first.ioWorkers target).queueAfter = privateTasks) := by
  have inv := System.withHistory_invariant
    (fun state round => RoundInv (config.io target) (first.ioWorkers target)
      (state.ioWorkers target) round) ?_ ?_ reached
  · refine ⟨inv.proceeds.rhythmic inv.posted, fun ran running => ?_⟩
    funext commands
    have spent : (first.ioWorkers target).privateQueue = [] := by
      apply privateQueue_spent ran running target
      obtain point | point := returned <;> rw [point] <;> rfl
    rw [IOWorker.queueAfter, spent, List.nil_append]
  · rintro _ rfl
    exact ⟨.swapping returned rfl rfl rfl, by simp, fun _ => rfl⟩
  · intro state round label after inv within stepped
    exact inv.step within stepped

end Rounds

/-- The wait of the only worker has returned: two timers and a private task
are inbound, and two tasks are in the local deque. -/
def roundStart : State Unit 1 0 Nat :=
  { initialState with
    ioWorkers := fun _ =>
      { inbound :=
          { q := [.addTimer 0 2, .privateTask 1, .addTimer 5 3]
            approxSize := 3 }
        localDq := [6, 7]
        point := .drainSwap } }

/-- The private task posts to its own worker, to the inbound queue and to the
local deque. -/
def wholeRound : List (Label Unit 1 0 Nat) :=
  List.replicate 7 (Label.io 0 .go) ++
    Label.call (.io 0) (.postPrivate 0 (some 8)) ::
      List.replicate 2 (Label.advance (.io 0) none) ++
    Label.call (.io 0) (.postToLocal 0 (some 9)) ::
      List.replicate 2 (Label.advance (.io 0) none) ++
    List.replicate 5 (Label.io 0 .go) ++
    Label.io 0 (.timer 0) :: List.replicate 19 (Label.io 0 .go)

theorem round_rhythmic_wholeRound :
    ∃ (state : State Unit 1 0 Nat) (round : Round 1 Nat)
      (privates : List Nat) (timers : List (TimerTask Nat)) (now : Int),
      (state.ioWorkers 0).point = .checkStop .loop ∧
      round.course.started =
        [(.privateTask, 1), (.timer 0 0, 2), (.localBatch, 9),
          (.localBatch, 7), (.localBatch, 6)] ∧
      round.posted = [.privateTask 8] ∧
      Rhythmic (loneWorker.io 0) (roundStart.ioWorkers 0)
        (state.ioWorkers 0) round privates timers now := by
  have run : ((roundObserved loneWorker 0 roundStart).replay
      (roundStart, {}) wholeRound).map (fun observed =>
        ((observed.1.ioWorkers 0).point, observed.2.course.started,
          observed.2.posted)) =
      some (.checkStop .loop,
        [(.privateTask, 1), (.timer 0 0, 2), (.localBatch, 9),
          (.localBatch, 7), (.localBatch, 6)], [.privateTask 8]) := by
    decide +kernel
  have within : (roundObserved loneWorker 0 roundStart).Follows (InRound 0)
      (roundStart, {}) wholeRound := by
    decide +kernel
  obtain ⟨⟨state, round⟩, ends, found⟩ := Option.map_eq_some_iff.mp run
  obtain ⟨point, logged⟩ := Prod.mk.inj found
  obtain ⟨started, posted⟩ := Prod.mk.inj logged
  obtain ⟨⟨privates, timers, now, rhythmic⟩, _⟩ :=
    round_rhythmic loneWorker (.inr rfl)
      (System.ReachableUnder.replay wholeRound (.start ⟨rfl, rfl⟩) within
        ends)
  exact ⟨state, round, privates, timers, now, point, started, posted,
    rhythmic⟩

end RopHive.Schedule
