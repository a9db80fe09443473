import RopHive.Schedule.EventLoop
import RopHive.Transition.History

namespace RopHive.Schedule.EventLoop

open PriorityQueue Transition

/-! What `EventLoop::run` may sleep past. -/

/-- What calls have left behind, each entry with the thread whose call made it
until that call returns. -/
structure Ledger (Outside Task : Type) where
  tasks : List (Task × Option (Thread Outside))
  timers : List (TimerTask Task × Option (Thread Outside))
  exits : List (Option (Thread Outside))
  /-- The clock when `computeTimeoutMs` last read the heap. -/
  computedAt : Int
  /-- The clock when the wait was last entered. -/
  enteredAt : Int

section

variable {Outside Task : Type}

namespace Ledger

def initial : Ledger Outside Task where
  tasks := []
  timers := []
  exits := []
  computedAt := 0
  enteredAt := 0

/-- The ledger's entries are the contents of the loop. -/
structure Tracks (ledger : Ledger Outside Task)
    (state : State Outside Task) : Prop where
  tasks : ledger.tasks.map Prod.fst = state.tasks
  timers : ledger.timers.map Prod.fst = state.timers
  exits : ledger.exits ≠ [] ↔ state.exitRequested = true

variable [DecidableEq Outside]

def settle (thread : Thread Outside) :
    Option (Thread Outside) → Option (Thread Outside)
  | none => none
  | some maker => if maker = thread then none else some maker

def settled (ledger : Ledger Outside Task) (thread : Thread Outside) :
    Ledger Outside Task :=
  { ledger with
    tasks := ledger.tasks.map fun entry => (entry.1, settle thread entry.2)
    timers := ledger.timers.map fun entry => (entry.1, settle thread entry.2)
    exits := ledger.exits.map (settle thread) }

def called (ledger : Ledger Outside Task) (clock : Int)
    (thread : Thread Outside) : Call Task → Ledger Outside Task
  | .idle => ledger
  | .push task =>
      { ledger with
        tasks := ledger.tasks ++ [(task, some thread)] }
  | .pushTimer task delay =>
      let timer := ⟨timeAfter clock delay, task⟩
      { ledger with
        timers := ledger.timers ++ [(timer, some thread)] }
  | .storeExit =>
      { ledger with
        exits := ledger.exits ++ [some thread] }
  | .notify => ledger.settled thread

def looped (ledger : Ledger Outside Task) (clock : Int) :
    Point Task → Ledger Outside Task
  | .timeoutLock =>
      { ledger with
        computedAt := clock }
  | .enterWait _ =>
      { ledger with
        enteredAt := clock }
  | .collect now =>
      { ledger with
        timers := ledger.timers.filter fun entry => now < entry.1.deadline }
  | .swapTasks =>
      { ledger with
        tasks := [] }
  | _ => ledger

def observe :
    System.Observer (State Outside Task) (Label Outside Task)
      (Ledger Outside Task)
  | state, .advance thread, _, ledger =>
      ledger.called state.clock thread (state.calls thread)
  | state, .loop _ _, _, ledger => ledger.looped state.clock state.point
  | _, .call _ _, _, ledger | _, .tick _, _, ledger => ledger

end Ledger

def State.Blocked (state : State Outside Task) (timeout : Int) : Prop :=
  state.point = .waiting timeout ∧ timeout ≠ 0 ∧ state.wakeup = 0

/-- The loop is blocked although a call that has returned left a task, an exit
request or a timer due before `start` and the timeout have gone by. -/
def SleepsPast (start : Int) (state : State Outside Task)
    (ledger : Ledger Outside Task) : Prop :=
  ∃ timeout, state.Blocked timeout ∧
    ((∃ task, (task, none) ∈ ledger.tasks) ∨
      (∃ timer, (timer, none) ∈ ledger.timers ∧
        (timeout = -1 ∨ timer.deadline < start + timeout * nanosPerMilli)) ∨
      none ∈ ledger.exits)

namespace Point

def takesTasks : Point Task → Bool
  | .dispatching _ | .timersClock | .collect _ | .expired _ _
  | .runningTimer _ _ | .swapTasks => true
  | _ => false

def takesExit : Point Task → Bool
  | .unstarted | .timeoutExit | .timeoutLock | .enterWait _ | .waiting _ =>
      false
  | _ => true

/-- A timer of this deadline is in time: the loop gets to the heap before it
next sleeps, or the timeout it has computed does not pass the deadline. -/
def Heeds (computedAt deadline : Int) : Point Task → Prop
  | .unstarted => False
  | .enterWait timeout | .waiting timeout =>
      timeout = 0 ∨
        timeout ≠ -1 ∧ computedAt + timeout * nanosPerMilli ≤ deadline
  | _ => True

end Point

/-- What a returned call left has the eventfd raised for it, or is ahead of the
loop. -/
structure Attended (state : State Outside Task)
    (ledger : Ledger Outside Task) : Prop where
  tracks : ledger.Tracks state
  task : ∀ task, (task, none) ∈ ledger.tasks →
    state.wakeup ≠ 0 ∨ state.point.takesTasks = true
  timer : ∀ timer, (timer, none) ∈ ledger.timers →
    state.wakeup ≠ 0 ∨ state.point.Heeds ledger.computedAt timer.deadline
  exit : none ∈ ledger.exits →
    state.wakeup ≠ 0 ∨ state.point.takesExit = true

section Entries

variable [DecidableEq Outside] {ledger : Ledger Outside Task}

@[simp] theorem Ledger.settled_tasks_fst {thread : Thread Outside} :
    (ledger.settled thread).tasks.map Prod.fst = ledger.tasks.map Prod.fst := by
  simp [Ledger.settled, Function.comp_def]

@[simp] theorem Ledger.settled_timers_fst {thread : Thread Outside} :
    (ledger.settled thread).timers.map Prod.fst =
      ledger.timers.map Prod.fst := by
  simp [Ledger.settled, Function.comp_def]

omit [DecidableEq Outside] in
theorem Ledger.collected_timers {now : Int} {rule : TimerRule Task}
    {timers : List (TimerTask Task)}
    (tracked : ledger.timers.map Prod.fst = timers) :
    (ledger.timers.filter fun entry => now < entry.1.deadline).map Prod.fst =
      (popDue rule now timers.length timers).2 := by
  have pops : Pops TimerTask.deadline now (fun _ _ => True) timers
      ([] ++ (popDue rule now timers.length timers).1)
      (popDue rule now timers.length timers).2 :=
    popDue_pops (fun _ => trivial) timers.length .start
  rw [pops.queue_eq (popDue_over (Nat.le_refl _)), ← tracked, List.filter_map]
  rfl

omit [DecidableEq Outside] in
theorem Ledger.looped_tasks {clock : Int} {point : Point Task}
    {entry : Task × Option (Thread Outside)}
    (member : entry ∈ (ledger.looped clock point).tasks) :
    entry ∈ ledger.tasks ∧ point ≠ .swapTasks := by
  cases point with
  | swapTasks => cases member
  | _ => exact ⟨member, nofun⟩

omit [DecidableEq Outside] in
theorem Ledger.looped_timers {clock : Int} {point : Point Task}
    {entry : TimerTask Task × Option (Thread Outside)}
    (member : entry ∈ (ledger.looped clock point).timers) :
    entry ∈ ledger.timers := by
  cases point with
  | collect now => exact (List.mem_filter.mp member).1
  | _ => exact member

omit [DecidableEq Outside] in
@[simp] theorem Ledger.looped_exits {clock : Int} {point : Point Task} :
    (ledger.looped clock point).exits = ledger.exits := by
  cases point <;> rfl

end Entries

section Steps

variable [DecidableEq Outside] {rule : TimerRule Task}
  {state after : State Outside Task} {ledger : Ledger Outside Task}

theorem Ledger.Tracks.called {thread : Thread Outside} {call later : Call Task}
    {moved : State Outside Task} (tracks : ledger.Tracks state)
    (effect : state.callEffect call = some (moved, later)) :
    (ledger.called state.clock thread call).Tracks moved := by
  obtain ⟨tasks, timers, exits⟩ := tracks
  cases call with
  | idle => cases effect
  | push task =>
      cases effect
      exact ⟨by simp [Ledger.called, tasks, State.record], timers, exits⟩
  | pushTimer task delay =>
      cases effect
      exact ⟨tasks, by simp [Ledger.called, timers, State.record], exits⟩
  | storeExit =>
      cases effect
      exact ⟨tasks, timers, by simp [Ledger.called]⟩
  | notify =>
      cases effect
      refine ⟨?_, ?_, ?_⟩
      · simpa [Ledger.called] using tasks
      · simpa [Ledger.called] using timers
      · simpa [Ledger.called, Ledger.settled] using exits

omit [DecidableEq Outside] in
theorem Ledger.Tracks.looped {woken : Bool} (tracks : ledger.Tracks state)
    (moved : state.loopStep rule woken = some after) :
    (ledger.looped state.clock state.point).Tracks after := by
  obtain ⟨sameExit, _, _, tasks, timers, _⟩ := State.loopStep_frame moved
  refine ⟨?_, ?_, ?_⟩
  · rw [tasks, ← tracks.tasks]
    cases state.point <;> rfl
  · rw [timers]
    cases state.point with
    | collect now => exact collected_timers tracks.timers
    | _ => exact tracks.timers
  · rw [sameExit, ← tracks.exits]
    cases state.point <;> rfl

theorem Attended.called {thread : Thread Outside} {call later : Call Task}
    {moved : State Outside Task} (attended : Attended state ledger)
    (effect : state.callEffect call = some (moved, later)) :
    Attended moved (ledger.called state.clock thread call) := by
  have tracks : (ledger.called state.clock thread call).Tracks moved :=
    attended.tracks.called effect
  cases call with
  | idle => cases effect
  | push task =>
      cases effect
      refine ⟨tracks, ?_, attended.timer, attended.exit⟩
      intro left member
      exact attended.task left (by simpa [Ledger.called] using member)
  | pushTimer task delay =>
      cases effect
      refine ⟨tracks, attended.task, ?_, attended.exit⟩
      intro left member
      exact attended.timer left (by simpa [Ledger.called] using member)
  | storeExit =>
      cases effect
      refine ⟨tracks, attended.task, attended.timer, ?_⟩
      intro member
      exact attended.exit (by simpa [Ledger.called] using member)
  | notify =>
      -- The counter is raised before anything counts as left behind.
      cases effect
      exact ⟨tracks, fun _ _ => .inl (Nat.succ_ne_zero _),
        fun _ _ => .inl (Nat.succ_ne_zero _), fun _ => .inl (Nat.succ_ne_zero _)⟩

omit [DecidableEq Outside] in
theorem timeoutMs_heeds {timer : TimerTask Task}
    (member : timer ∈ state.timers) :
    state.timeoutMs rule = 0 ∨ state.timeoutMs rule ≠ -1 ∧
      state.clock + state.timeoutMs rule * nanosPerMilli ≤ timer.deadline := by
  unfold State.timeoutMs
  split
  · exact .inl rfl
  · obtain ⟨top, isTop, least⟩ := rule.least (List.ne_nil_of_mem member)
    have first : state.topDeadline rule = some top.deadline := by
      simp [State.topDeadline, isTop]
    simp only [first]
    by_cases due : top.deadline ≤ state.clock
    · exact .inl (if_pos due)
    · have positive := timeoutUntil_nonneg top.deadline state.clock
      refine .inr ⟨by omega, ?_⟩
      exact le_trans (timeoutUntil_le (not_le.mp due)) (least timer member)

/-! Where the loop stands after a step, for each of the three things it may
leave unattended. -/

section Loop

omit [DecidableEq Outside]

variable {woken : Bool} (moved : state.loopStep rule woken = some after)

include moved

theorem loopStep_wakeup :
    after.wakeup = state.wakeup ∨ after.point = .dispatching true := by
  revert moved
  fun_cases state.loopStep rule woken
  all_goals
    intro moved
    cases moved
  all_goals first | exact .inl rfl | skip
  exact .inr ‹_›

theorem loopStep_takesTasks (ahead : state.point.takesTasks = true) :
    after.point.takesTasks = true ∨ state.point = .swapTasks := by
  revert moved
  fun_cases state.loopStep rule woken
  all_goals
    intro moved
    cases moved
  all_goals simp_all [Point.takesTasks, State.goto, State.record]

theorem loopStep_takesExit (requested : state.exitRequested = true)
    (ahead : state.point.takesExit = true) :
    after.point.takesExit = true := by
  revert moved
  fun_cases state.loopStep rule woken
  all_goals
    intro moved
    cases moved
  all_goals simp_all [Point.takesExit, State.goto, State.record]

theorem loopStep_heeds {timer : TimerTask Task}
    (member : timer ∈ after.timers)
    (ahead : state.point.Heeds ledger.computedAt timer.deadline) :
    after.point.Heeds (ledger.looped state.clock state.point).computedAt
      timer.deadline := by
  revert moved
  fun_cases state.loopStep rule woken with
  | case2 point | case3 point =>
      intro moved
      cases moved
      cases requested : state.exitRequested <;>
        simp [State.goto, requested, Point.Heeds]
  | case4 point =>
      intro moved
      cases moved
      rw [point]
      exact timeoutMs_heeds member
  | _ =>
      intro moved
      cases moved
      all_goals simp_all [Point.Heeds, State.goto, State.record, Ledger.looped]

end Loop

omit [DecidableEq Outside] in
theorem Attended.looped {woken : Bool} (attended : Attended state ledger)
    (moved : state.loopStep rule woken = some after) :
    Attended after (ledger.looped state.clock state.point) := by
  have tracks := attended.tracks.looped moved
  obtain ⟨sameExit, _, _, _, _, _⟩ := State.loopStep_frame moved
  -- Reading the eventfd is a step to where everything is ahead.
  obtain sameWakeup | reading := loopStep_wakeup moved
  · refine ⟨tracks, ?_, ?_, ?_⟩
    · intro task member
      rw [sameWakeup]
      obtain ⟨still, notSwapped⟩ := Ledger.looped_tasks member
      refine (attended.task task still).imp_right fun ahead => ?_
      exact (loopStep_takesTasks moved ahead).resolve_right notSwapped
    · intro timer member
      rw [sameWakeup]
      have still := Ledger.looped_timers member
      refine (attended.timer timer still).imp_right ?_
      apply loopStep_heeds moved
      rw [← tracks.timers]
      exact List.mem_map_of_mem member
    · intro member
      rw [sameWakeup]
      rw [Ledger.looped_exits] at member
      apply (attended.exit member).imp_right
      apply loopStep_takesExit moved
      exact attended.tracks.exits.mp (List.ne_nil_of_mem member)
  · refine ⟨tracks, ?_, ?_, ?_⟩ <;> intros <;> rw [reading]
    · exact .inr rfl
    · exact .inr trivial
    · exact .inr rfl

theorem Attended.step {label : Label Outside Task}
    (attended : Attended state ledger)
    (stepped : state.step label = some after) :
    Attended after (Ledger.observe state label after ledger) := by
  cases label with
  | call thread request =>
      obtain ⟨_, _, rfl⟩ := State.step_call stepped
      obtain ⟨⟨tasks, timers, exits⟩, task, timer, exit⟩ := attended
      exact ⟨⟨tasks, timers, exits⟩, task, timer, exit⟩
  | advance thread =>
      obtain ⟨moved, call, effect, rfl⟩ := State.step_advance stepped
      have served : Attended moved
          (ledger.called state.clock thread (state.calls thread)) :=
        attended.called effect
      obtain ⟨⟨tasks, timers, exits⟩, task, timer, exit⟩ := served
      exact ⟨⟨tasks, timers, exits⟩, task, timer, exit⟩
  | loop woken rule => exact attended.looped (State.step_loop stepped).2
  | tick nanos =>
      cases stepped
      obtain ⟨⟨tasks, timers, exits⟩, task, timer, exit⟩ := attended
      exact ⟨⟨tasks, timers, exits⟩, task, timer, exit⟩

omit [DecidableEq Outside] in
theorem Attended.not_sleepsPast (attended : Attended state ledger) :
    ¬ SleepsPast ledger.computedAt state ledger := by
  rintro ⟨timeout, ⟨point, sleeping, still⟩, left⟩
  obtain ⟨task, member⟩ | ⟨timer, member, late⟩ | member := left
  · have seen := attended.task task member
    simp [still, point, Point.takesTasks] at seen
  · have seen := attended.timer timer member
    simp only [still, point, Point.Heeds] at seen
    omega
  · have seen := attended.exit member
    simp [still, point, Point.takesExit] at seen

def observed (Outside : Type) [DecidableEq Outside] (Task : Type) :=
  (machine Outside Task).withHistory Ledger.initial Ledger.observe

theorem not_sleepsPast_computedAt
    (reached : (observed Outside Task).Reachable (state, ledger)) :
    ledger.Tracks state ∧ ¬ SleepsPast ledger.computedAt state ledger := by
  have attended : Attended state ledger := by
    refine System.withHistory_invariant Attended ?_ ?_ reached
    · rintro _ rfl
      refine ⟨⟨rfl, rfl, ?_⟩, ?_, ?_, ?_⟩ <;>
        simp [Ledger.initial, initialState]
    · intro state ledger label after attended _ stepped
      exact attended.step stepped
  exact ⟨attended.tracks, attended.not_sleepsPast⟩

end Steps

end

/-- A timer of five milliseconds is posted before `run`.  The loop finds it not
due, and three milliseconds go by before it waits again. -/
def preemptedBeforeWait : List (Label Unit Unit) :=
  Label.call (.outside ()) (.postDelayed (some ()) 5) ::
    List.replicate 2 (Label.advance (.outside ())) ++
    List.replicate 17 (Label.loop true (.first _)) ++
    [Label.tick 3000000, .loop true (.first _)]

theorem preemptedBeforeWait_run :
    ∃ (state : State Unit Unit) (ledger : Ledger Unit Unit),
      (observed Unit Unit).Reachable (state, ledger) ∧
      state.Blocked 5 ∧ ledger.enteredAt = 3000000 ∧
      ∃ timer, (timer, none) ∈ ledger.timers ∧ timer.deadline = 5000000 := by
  have run : ((observed Unit Unit).replay
      (initialState, Ledger.initial) preemptedBeforeWait).map
        (fun seen => ((seen.1.point, seen.1.wakeup), seen.2.enteredAt,
          seen.2.timers.map fun entry => (entry.1.deadline, entry.2))) =
        some ((.waiting 5, 0), 3000000, [(5000000, none)]) := by
    decide +kernel
  have begun : (observed Unit Unit).initial
      ((initialState, Ledger.initial) : State Unit Unit × Ledger Unit Unit) :=
    ⟨rfl, rfl⟩
  obtain ⟨⟨state, ledger⟩, ends, found⟩ := Option.map_eq_some_iff.mp run
  simp only [Prod.mk.injEq] at found
  obtain ⟨⟨point, wakeup⟩, entered, timers⟩ := found
  have listed : (5000000, none) ∈
      ledger.timers.map fun entry => (entry.1.deadline, entry.2) := by
    simp [timers]
  obtain ⟨⟨timer, _⟩, member, same⟩ := List.mem_map.mp listed
  obtain ⟨deadline, rfl⟩ := Prod.mk.inj same
  exact ⟨state, ledger,
    System.Reachable.replay preemptedBeforeWait (.start begun) ends,
    ⟨point, by decide, wakeup⟩, entered, timer, member, deadline⟩

/-- Measured from when the wait is entered, the timeout goes past the timer. -/
theorem preemptedBeforeWait_sleepsPast :
    ∃ (state : State Unit Unit) (ledger : Ledger Unit Unit),
      (observed Unit Unit).Reachable (state, ledger) ∧
      SleepsPast ledger.enteredAt state ledger := by
  obtain ⟨state, ledger, reached, blocked, entered, timer, member, deadline⟩ :=
    preemptedBeforeWait_run
  refine ⟨state, ledger, reached, 5, blocked, .inr (.inl ?_)⟩
  refine ⟨timer, member, .inr ?_⟩
  rw [entered, deadline]
  decide

theorem not_sleepsPast_computedAt_preemptedBeforeWait :
    ∃ (state : State Unit Unit) (ledger : Ledger Unit Unit),
      state.Blocked 5 ∧ (∃ timer, (timer, none) ∈ ledger.timers) ∧
      ledger.Tracks state ∧ ¬ SleepsPast ledger.computedAt state ledger := by
  obtain ⟨state, ledger, reached, blocked, _, timer, member, _⟩ :=
    preemptedBeforeWait_run
  exact ⟨state, ledger, blocked, ⟨timer, member⟩,
    not_sleepsPast_computedAt reached⟩

end RopHive.Schedule.EventLoop
