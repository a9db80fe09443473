import RopHive.Schedule.TimerPass

namespace RopHive.Schedule

open PriorityQueue Transition

/-! Calls of `EventLoop::runExpiredTimers`, and what both loops promise of
their timers. -/

namespace EventLoop

section Passes

variable {Outside Task : Type}

def Event.timerStart? : Event Task → Option (TimerTask Task × Int)
  | .startedTimer timer now => some (timer, now)
  | _ => none

def Event.delayed? : Event Task → Option (TimerTask Task)
  | .delayed timer => some timer
  | _ => none

namespace State

/-- The started timers, each with the clock reading of its call. -/
def timerStarts (state : State Outside Task) : List (TimerTask Task × Int) :=
  state.log.filterMap Event.timerStart?

def delayed (state : State Outside Task) : List (TimerTask Task) :=
  state.log.filterMap Event.delayed?

end State

def Point.expiring : Point Task → Option (Int × List (TimerTask Task))
  | .expired now rest | .runningTimer now rest => some (now, rest)
  | _ => none

def Point.pending (point : Point Task) : List (TimerTask Task) :=
  (point.expiring.map Prod.snd).getD []

def passNext (pass : Pass Task) (state : State Outside Task)
    (rule : TimerRule Task) : Pass Task :=
  match state.point with
  | .collect now =>
      { now := now
        entry := state.timers
        ran := []
        finished := false
        agrees := fun other => other = rule }
  | .expired _ [] =>
      { pass with
        finished := true }
  | .expired _ (timer :: _) =>
      { pass with
        ran := pass.ran ++ [timer] }
  | _ => pass

/-- The last call of `runExpiredTimers`. -/
def observePass :
    System.Observer (State Outside Task) (Label Outside Task) (Pass Task)
  | state, .loop _ rule, _, pass => passNext pass state rule
  | _, _, _, pass => pass

/-- What is so between the steps of the loop: the call has collected all that
was due and runs it in order. -/
def Conducts (point : Point Task) (pass : Pass Task) : Prop :=
  ∃ left queue, pass.Popped (pass.ran ++ left) queue ∧
    (∀ timer ∈ queue, pass.now < timer.deadline) ∧
    (∀ now rest, point.expiring = some (now, rest) →
      pass.now = now ∧ pass.finished = false ∧ left = rest) ∧
    (pass.finished = true → left = [])

structure Punctual (state : State Outside Task) (pass : Pass Task) :
    Prop where
  conducts : Conducts state.point pass
  sampled : pass.now ≤ state.clock
  collecting : ∀ now, state.point = .collect now → now ≤ state.clock
  conserved : (state.timerStarts.map Prod.fst ++ state.point.pending ++
    state.timers).Perm state.delayed
  started : ∀ start ∈ state.timerStarts,
    start.1.deadline ≤ start.2 ∧ start.2 ≤ state.clock
  logged : pass.ran <:+ state.timerStarts.map Prod.fst

variable {rule : TimerRule Task} {state after : State Outside Task}
  {pass : Pass Task}

theorem Punctual.outside (punctual : Punctual state pass)
    (before : state.point.expiring = none)
    (expiring : after.point.expiring = none)
    (collecting : ∀ now, after.point = .collect now → now ≤ after.clock)
    (timers : after.timers = state.timers) (clock : after.clock = state.clock)
    (starts : after.timerStarts = state.timerStarts)
    (delayed : after.delayed = state.delayed) : Punctual after pass := by
  obtain ⟨left, queue, pops, later, _, ended⟩ := punctual.conducts
  refine ⟨⟨left, queue, pops, later, ?_, ended⟩, ?_, collecting, ?_, ?_, ?_⟩
  · intro now rest expires
    rw [expiring] at expires
    cases expires
  · rw [clock]
    exact punctual.sampled
  · have conserved := punctual.conserved
    rw [Point.pending, before] at conserved
    rw [Point.pending, expiring, starts, timers, delayed]
    exact conserved
  · rw [starts, clock]
    exact punctual.started
  · rw [starts]
    exact punctual.logged

theorem loopStep_enters {woken : Bool}
    (moved : state.loopStep rule woken = some after)
    (notSampling : state.point ≠ .timersClock)
    (notCollecting : ∀ now, state.point ≠ .collect now)
    (before : state.point.expiring = none) :
    after.point.expiring = none ∧ ∀ now, after.point ≠ .collect now := by
  revert moved
  fun_cases state.loopStep rule woken with
  | case2 point | case3 point =>
      intro moved
      cases moved
      cases requested : state.exitRequested <;>
        simp [State.goto, requested, Point.expiring]
  | _ =>
      intro moved
      cases moved
      all_goals simp_all [Point.expiring, State.goto, State.record]

theorem loopStep_logged {woken : Bool}
    (moved : state.loopStep rule woken = some after)
    (before : state.point.expiring = none) :
    after.timerStarts = state.timerStarts ∧ after.delayed = state.delayed := by
  obtain ⟨_, _, _, _, _, log⟩ := State.loopStep_frame moved
  simp only [State.timerStarts, State.delayed, log, List.filterMap_append]
  cases point : state.point with
  | expired now rest =>
      rw [point] at before
      cases before
  | ready rest =>
      cases rest with
      | nil => simp
      | cons task rest =>
          simp [List.filterMap_cons, Event.timerStart?, Event.delayed?]
  | _ => simp

theorem Punctual.looped {woken : Bool} (punctual : Punctual state pass)
    (moved : state.loopStep rule woken = some after) :
    Punctual after (passNext pass state rule) := by
  obtain ⟨_, clock, _, _, timers, _⟩ := State.loopStep_frame moved
  cases point : state.point with
  | timersClock =>
      simp only [State.loopStep, point] at moved
      cases moved
      simp only [passNext, point]
      refine punctual.outside (by rw [point]; rfl) rfl ?_ rfl rfl rfl rfl
      rintro now ⟨⟩
      exact le_refl _
  | collect now =>
      simp only [State.loopStep, point] at moved
      cases moved
      simp only [passNext, point]
      have pops : (Pass.mk now state.timers [] false (· = rule)).Popped
          ([] ++ (popDue rule now state.timers.length state.timers).1)
          (popDue rule now state.timers.length state.timers).2 := by
        refine popDue_pops ?_ _ .start
        rintro queue other rfl
        rfl
      refine ⟨⟨_, _, pops, popDue_over (Nat.le_refl _), ?_, by simp⟩,
        punctual.collecting now point, by simp, ?_, punctual.started,
        List.nil_suffix⟩
      · rintro later rest ⟨⟩
        exact ⟨rfl, rfl, rfl⟩
      · have conserved := punctual.conserved
        simp only [Point.pending, Point.expiring, point, Option.map_none,
          Option.getD_none, List.append_nil] at conserved
        refine List.Perm.trans ?_ conserved
        simp only [Point.pending, Point.expiring, Option.map_some,
          Option.getD_some, List.append_assoc]
        exact pops.perm.symm.append_left _
  | expired now rest =>
      obtain ⟨left, queue, pops, later, inside, _⟩ := punctual.conducts
      obtain ⟨rfl, going, rfl⟩ := inside now rest (by rw [point]; rfl)
      cases left with
      | nil =>
          simp only [State.loopStep, point] at moved
          cases moved
          simp only [passNext, point]
          refine ⟨⟨[], queue, pops, later, by rintro now rest ⟨⟩, fun _ => rfl⟩,
            punctual.sampled, by rintro now ⟨⟩, ?_, punctual.started,
            punctual.logged⟩
          have conserved := punctual.conserved
          rwa [point] at conserved
      | cons timer rest =>
          simp only [State.loopStep, point] at moved
          cases moved
          simp only [passNext, point]
          have due : timer.deadline ≤ pass.now :=
            pops.due timer (by simp)
          have starts : ((state.goto (.runningTimer pass.now rest)).record
              (.startedTimer timer pass.now)).timerStarts =
                state.timerStarts ++ [(timer, pass.now)] := by
            simp [State.timerStarts, State.record, State.goto,
              Event.timerStart?]
          refine ⟨⟨rest, queue, ?_, later, ?_, ?_⟩, punctual.sampled,
            by rintro now ⟨⟩, ?_, ?_, ?_⟩
          · rw [List.append_assoc]
            exact pops
          · rintro sampled others ⟨⟩
            exact ⟨rfl, going, rfl⟩
          · intro isOver
            rw [going] at isOver
            cases isOver
          · have conserved := punctual.conserved
            rw [point] at conserved
            rw [starts]
            simpa [Point.pending, Point.expiring, State.record, State.goto,
              State.delayed, List.filterMap_cons, Event.delayed?]
              using conserved
          · intro start member
            rw [starts, List.mem_append, List.mem_singleton] at member
            obtain earlier | rfl := member
            · exact punctual.started start earlier
            · exact ⟨due, punctual.sampled⟩
          · obtain ⟨earlier, same⟩ := punctual.logged
            refine ⟨earlier, ?_⟩
            rw [starts, List.map_append, ← same, List.append_assoc]
            rfl
  | runningTimer now rest =>
      obtain ⟨left, queue, pops, later, inside, ended⟩ := punctual.conducts
      obtain ⟨rfl, going, rfl⟩ := inside now rest (by rw [point]; rfl)
      simp only [State.loopStep, point] at moved
      cases moved
      simp only [passNext, point]
      refine ⟨⟨left, queue, pops, later, ?_, ended⟩, punctual.sampled,
        by rintro now ⟨⟩,
        ?_, punctual.started, punctual.logged⟩
      · rintro sampled others ⟨⟩
        exact ⟨rfl, going, rfl⟩
      · have conserved := punctual.conserved
        rwa [point] at conserved
  | _ =>
      have same : passNext pass state rule = pass := by
        simp only [passNext, point]
      obtain ⟨expiring, collecting⟩ := loopStep_enters moved
        (by simp [point]) (by simp [point]) (by simp [point, Point.expiring])
      have logged := loopStep_logged moved (by simp [point, Point.expiring])
      rw [point] at timers
      rw [same]
      exact punctual.outside (by rw [point]; rfl) expiring
        (fun now collects => absurd collects (collecting now)) timers clock
        logged.1 logged.2

theorem callEffect_timers {call next : Call Task}
    {moved : State Outside Task}
    (effect : state.callEffect call = some (moved, next)) :
    ∃ added, moved.delayed = state.delayed ++ added ∧
      moved.timers = state.timers ++ added ∧
      moved.timerStarts = state.timerStarts ∧ moved.point = state.point ∧
      moved.clock = state.clock := by
  cases call with
  | idle => cases effect
  | push task =>
      cases effect
      refine ⟨[], ?_, (List.append_nil _).symm, ?_, rfl, rfl⟩
      · simp [State.delayed, State.record, Event.delayed?]
      · simp [State.timerStarts, State.record, Event.timerStart?]
  | pushTimer task delay =>
      cases effect
      refine ⟨[⟨timeAfter state.clock delay, task⟩], ?_, rfl, ?_, rfl, rfl⟩
      · simp [State.delayed, State.record, Event.delayed?]
      · simp [State.timerStarts, State.record, Event.timerStart?]
  | storeExit | notify =>
      cases effect
      exact ⟨[], (List.append_nil _).symm, (List.append_nil _).symm, rfl, rfl,
        rfl⟩

variable [DecidableEq Outside]

theorem Punctual.step {label : Label Outside Task}
    (punctual : Punctual state pass)
    (stepped : state.step label = some after) :
    Punctual after (observePass state label after pass) := by
  cases label with
  | call thread request =>
      obtain ⟨_, _, rfl⟩ := State.step_call stepped
      exact ⟨punctual.conducts, punctual.sampled, punctual.collecting,
        punctual.conserved, punctual.started, punctual.logged⟩
  | advance thread =>
      obtain ⟨moved, call, effect, rfl⟩ := State.step_advance stepped
      obtain ⟨added, delayed, timers, starts, point, clock⟩ :=
        callEffect_timers effect
      have grown : Punctual moved pass := by
        refine ⟨?_, ?_, ?_, ?_, ?_, ?_⟩
        · rw [point]
          exact punctual.conducts
        · rw [clock]
          exact punctual.sampled
        · rw [point, clock]
          exact punctual.collecting
        · rw [starts, point, timers, delayed, ← List.append_assoc]
          exact punctual.conserved.append_right added
        · rw [starts, clock]
          exact punctual.started
        · rw [starts]
          exact punctual.logged
      exact ⟨grown.conducts, grown.sampled, grown.collecting, grown.conserved,
        grown.started, grown.logged⟩
  | loop woken rule => exact punctual.looped (State.step_loop stepped).2
  | tick nanos =>
      cases stepped
      have later : state.clock ≤ state.clock + nanos := by omega
      refine ⟨punctual.conducts, le_trans punctual.sampled later, ?_,
        punctual.conserved, ?_, punctual.logged⟩
      · intro now collects
        exact le_trans (punctual.collecting now collects) later
      · intro start member
        obtain ⟨due, sampled⟩ := punctual.started start member
        exact ⟨due, le_trans sampled later⟩

def passObserved (Outside : Type) [DecidableEq Outside] (Task : Type) :=
  (machine Outside Task).withHistory Pass.initial observePass

theorem punctual_of_reachable
    (reached : (passObserved Outside Task).Reachable (state, pass)) :
    Punctual state pass := by
  refine System.withHistory_invariant Punctual ?_ ?_ reached
  · rintro _ rfl
    refine ⟨⟨[], [], .start, nofun, nofun, fun _ => rfl⟩, Int.le_refl _, nofun,
      .refl _, nofun, ⟨[], rfl⟩⟩
  · intro state pass label after punctual _ stepped
    exact punctual.step stepped

end Passes

end EventLoop

section Both

variable {Outside : Type} [DecidableEq Outside] {workers computers : Nat}
  {Task : Type}

/-- What both loops promise of their timers: `inserted` were inserted,
`started` were started at the readings given and `pass` is the last call. -/
structure TimersKept (inserted : List (TimerTask Task))
    (started : List (TimerTask Task × Int)) (clock : Int)
    (pass : Pass Task) : Prop where
  once : (started.map Prod.fst).Subperm inserted
  notEarly : ∀ start ∈ started, start.1.deadline ≤ start.2 ∧ start.2 ≤ clock
  logged : pass.ran <:+ started.map Prod.fst
  exact : pass.Exact

def timerStart? : Origin workers × Task → Option (TimerTask Task × Int)
  | (.timer deadline now, task) => some (⟨deadline, task⟩, now)
  | _ => none

def timerStarts (started : List (Origin workers × Task)) :
    List (TimerTask Task × Int) :=
  started.filterMap timerStart?

theorem map_timerStarts (started : List (Origin workers × Task)) :
    (timerStarts started).map Prod.fst = startedTimers started := by
  unfold timerStarts startedTimers
  rw [List.map_filterMap]
  apply List.filterMap_congr
  rintro ⟨origin, task⟩ _
  cases origin <;> rfl

theorem mem_timerStarts {started : List (Origin workers × Task)}
    {start : TimerTask Task × Int} (member : start ∈ timerStarts started) :
    (.timer start.1.deadline start.2, start.1.task) ∈ started := by
  obtain ⟨⟨origin, task⟩, entry, found⟩ := List.mem_filterMap.mp member
  cases origin with
  | timer deadline now =>
      cases found
      exact entry
  | _ => cases found

omit [DecidableEq Outside] in
theorem Dispensed.subperm {target : Fin workers}
    {state : State Outside workers computers Task}
    {drained : List (InboundCommand Task)}
    (dispensed : Dispensed target state drained) :
    (startedTimers (state.startedOn target)).Subperm
      (addedTimers (state.enqueued target)) := by
  have fromDrained := dispensed.timers.subperm
  rw [List.append_assoc] at fromDrained
  rw [dispensed.enqueued, addedTimers_append]
  exact ((List.sublist_append_left _ _).subperm.trans fromDrained).trans
    (List.sublist_append_left _ _).subperm

omit [DecidableEq Outside] in
theorem Punctual.exact {target : Fin workers}
    {state : State Outside workers computers Task} {pass : Pass Task}
    (punctual : Punctual target state pass) (running : state.Running) :
    pass.Exact := by
  obtain ⟨queue, pops, _, ended⟩ := punctual.conducts
  have none : pass.Popped (pass.ran ++ []) queue := by
    rw [List.append_nil]
    exact pops
  exact Pass.exact_of_popped none fun isOver => ⟨rfl, ended isOver running⟩

omit [DecidableEq Outside] in
theorem EventLoop.Punctual.exact {state : EventLoop.State Outside Task}
    {pass : Pass Task} (punctual : EventLoop.Punctual state pass) :
    pass.Exact := by
  obtain ⟨left, queue, pops, later, _, ended⟩ := punctual.conducts
  exact Pass.exact_of_popped pops fun isOver => ⟨ended isOver, later⟩

/-- In runs without stop or exit. -/
theorem timers_kept (config : Config workers computers)
    {state : State Outside workers computers Task}
    {passes : Fin workers → Pass Task} {loop : EventLoop.State Outside Task}
    {pass : Pass Task}
    (reached : (passObserved Outside Task config).Reachable (state, passes))
    (running : state.Running)
    (looped : (EventLoop.passObserved Outside Task).Reachable (loop, pass)) :
    (∀ worker,
      TimersKept (addedTimers (state.enqueued worker))
        (timerStarts (state.startedOn worker)) state.clock (passes worker) ∧
      ((state.ioWorkers worker).timers.length < 2 ^ 32 →
        (state.ioWorkers worker).timerCount.toNat =
          (state.ioWorkers worker).timers.length)) ∧
    TimersKept loop.delayed loop.timerStarts loop.clock pass ∧
    ∀ worker rule, (passes worker).finished = true → pass.finished = true →
      (passes worker).agrees rule → pass.agrees rule →
      (passes worker).entry = pass.entry → (passes worker).now = pass.now →
      (passes worker).ran = pass.ran := by
  have workerPass (worker : Fin workers) :=
    punctual_of_reachable reached worker
  have loopPass := EventLoop.punctual_of_reachable looped
  refine ⟨?_, ?_, ?_⟩
  · intro worker
    have punctual := workerPass worker
    obtain ⟨drained, drains⟩ := System.withHistory_reachable_iff.mpr
      (System.withHistory_reachable_iff.mp ⟨passes, reached⟩)
    have dispensed := dispensed_of_reachable drains worker
    refine ⟨⟨?_, ?_, ?_, punctual.exact running⟩, ?_⟩
    · rw [map_timerStarts]
      exact dispensed.subperm
    · intro start member
      exact punctual.started _ _ _ (mem_timerStarts member)
    · rw [map_timerStarts]
      exact punctual.logged
    · intro few
      rw [punctual.counted]
      exact UInt32.toNat_ofNat_of_lt' few
  · refine ⟨?_, loopPass.started, loopPass.logged, loopPass.exact⟩
    have conserved := loopPass.conserved.subperm
    rw [List.append_assoc] at conserved
    exact (List.sublist_append_left _ _).subperm.trans conserved
  · intro worker rule workerOver loopOver workerAgrees loopAgrees entry now
    have worker := ((workerPass worker).exact running).determined workerOver
      rule workerAgrees
    have loop := loopPass.exact.determined loopOver rule loopAgrees
    rw [worker, loop, entry, now]

end Both

def insertTimer (deadline : Int) (task : Nat) : List (Label Unit 1 0 Nat) :=
  .call (.outside ()) (.addTimer 0 deadline (some task)) ::
    List.replicate 2 (.advance (.outside ()) none)

/-- Three timers, of which two are due when they are looked at. -/
def twoDue : List (Label Unit 1 0 Nat) :=
  .tick 5 :: insertTimer 3 7 ++ insertTimer 1 8 ++ insertTimer 9 6 ++
    List.replicate 19 (Label.io 0 .go) ++ Label.io 0 (.timer 1) ::
      List.replicate 3 (Label.io 0 .go) ++ Label.io 0 (.timer 0) ::
        List.replicate 4 (Label.io 0 .go)

def delayTimer (task : Nat) (delay : Int) : List (EventLoop.Label Unit Nat) :=
  .call (.outside ()) (.postDelayed (some task) delay) ::
    List.replicate 2 (.advance (.outside ()))

def twoDueLoop : List (EventLoop.Label Unit Nat) :=
  delayTimer 7 0 ++ delayTimer 8 (-1) ++ delayTimer 6 4 ++
    List.replicate 16 (EventLoop.Label.loop true (.first _))

theorem timers_kept_twoDue :
    ∃ (state : State Unit 1 0 Nat) (passes : Fin 1 → Pass Nat)
      (loop : EventLoop.State Unit Nat) (pass : Pass Nat),
      (passes 0).ran.map TimerTask.task = [8, 7] ∧
      pass.ran.map TimerTask.task = [8, 7] ∧
      TimersKept (addedTimers (state.enqueued 0))
        (timerStarts (state.startedOn 0)) state.clock (passes 0) ∧
      TimersKept loop.delayed loop.timerStarts loop.clock pass := by
  have run : ((passObserved Unit Nat loneWorker).replay
      (initialState, fun _ => .initial) twoDue).map (fun observed =>
        ((observed.2 0).ran.map TimerTask.task, observed.1.exitRequested,
          (observed.1.ioWorkers 0).stopRequested)) =
            some ([8, 7], false, false) := by
    decide +kernel
  have loopRun : ((EventLoop.passObserved Unit Nat).replay
      (EventLoop.initialState, .initial) twoDueLoop).map (fun observed =>
        observed.2.ran.map TimerTask.task) = some [8, 7] := by
    decide +kernel
  have begun : (passObserved Unit Nat loneWorker).initial
      (initialState, fun _ => .initial) := ⟨rfl, rfl⟩
  have loopBegun : (EventLoop.passObserved Unit Nat).initial
      ((EventLoop.initialState, .initial) :
        EventLoop.State Unit Nat × Pass Nat) := ⟨rfl, rfl⟩
  obtain ⟨⟨state, passes⟩, ends, found⟩ := Option.map_eq_some_iff.mp run
  obtain ⟨⟨loop, pass⟩, loopEnds, loopRan⟩ := Option.map_eq_some_iff.mp loopRun
  simp only [Prod.mk.injEq] at found
  obtain ⟨ran, exitless, unstopped⟩ := found
  have running : state.Running := by
    refine ⟨exitless, fun worker => ?_⟩
    rw [Fin.eq_zero worker]
    exact unstopped
  obtain ⟨kept, loopKept, _⟩ := timers_kept loneWorker
    (System.Reachable.replay twoDue (.start begun) ends) running
    (System.Reachable.replay twoDueLoop (.start loopBegun) loopEnds)
  exact ⟨state, passes, loop, pass, ran, loopRan, (kept 0).1, loopKept⟩

end RopHive.Schedule
