import RopHive.Schedule.Conservation
import RopHive.Schedule.InboundOrder

namespace RopHive.Schedule

open PriorityQueue Transition

/-! Calls of `IOWorker::runExpiredTimers` one by one. -/

/-- A call of `runExpiredTimers`. -/
structure Pass (Task : Type) where
  now : Int
  /-- The heap when the call began to pop. -/
  entry : List (TimerTask Task)
  ran : List (TimerTask Task)
  finished : Bool
  /-- The ways of resolving ties that the call has kept to. -/
  agrees : TopRule (@TimerTask.deadline Task) → Prop

section Passes

variable {Task : Type}

namespace Pass

def initial : Pass Task where
  now := 0
  entry := []
  ran := []
  finished := true
  agrees := fun _ => True

/-- The call has popped what is due, in order, and nothing else. -/
structure Exact (pass : Pass Task) : Prop where
  sorted : pass.ran.Pairwise fun earlier later =>
    earlier.deadline ≤ later.deadline
  due : ∀ timer ∈ pass.ran, timer.deadline ≤ pass.now
  bounded : pass.ran.length ≤ pass.entry.length
  exact : pass.finished = true →
    pass.ran.Perm (pass.entry.filter fun timer => timer.deadline ≤ pass.now)
  determined : pass.finished = true → ∀ rule, pass.agrees rule →
    pass.ran = (popDue rule pass.now pass.entry.length pass.entry).1

abbrev Popped (pass : Pass Task) (popped queue : List (TimerTask Task)) :
    Prop :=
  Pops TimerTask.deadline pass.now
    (fun queue index => ∀ rule, pass.agrees rule → index = rule.index queue)
    pass.entry popped queue

theorem exact_of_popped {pass : Pass Task}
    {left queue : List (TimerTask Task)}
    (pops : pass.Popped (pass.ran ++ left) queue)
    (finished : pass.finished = true →
      left = [] ∧ ∀ timer ∈ queue, pass.now < timer.deadline) :
    pass.Exact where
  sorted := (List.pairwise_append.mp pops.sorted).1
  due := fun timer member =>
    pops.due timer (List.mem_append_left left member)
  bounded := by
    have length := pops.length_le
    rw [List.length_append] at length
    omega
  exact := by
    intro isOver
    obtain ⟨rfl, later⟩ := finished isOver
    rw [List.append_nil] at pops
    exact pops.exact later
  determined := by
    intro isOver rule agrees
    obtain ⟨rfl, later⟩ := finished isOver
    rw [List.append_nil] at pops
    have follows := pops.mono fun _ _ allowed => allowed rule agrees
    rw [follows.eq_popDue later]

end Pass

end Passes

section Worker

variable {workers : Nat} {Task : Type}

/-- The sampled clock, inside `runExpiredTimers`. -/
def IOPoint.expiring : IOPoint workers Task → Option Int
  | .timersNext now | .running (.expiredTimers now)
  | .checkStop (.task (.expiredTimers now))
  | .checkExit (.task (.expiredTimers now)) => some now
  | _ => none

def Pass.next (pass : Pass Task) (worker : IOWorker workers Task)
    (view : View workers Task) (choice : Choice workers) : Pass Task :=
  match worker.point with
  | .timersClock =>
      { now := view.clock
        entry := worker.timers
        ran := []
        finished := false
        agrees := fun _ => True }
  | .timersNext _ =>
      match choice with
      | .timer index =>
          { pass with
            ran := pass.ran ++ worker.timers[index]?.toList
            agrees := fun rule =>
              pass.agrees rule ∧ index = rule.index worker.timers }
      | _ =>
          { pass with
            finished := true }
  -- The loop is left early when a flag is set.
  | .checkStop (.task (.expiredTimers _)) =>
      { pass with
        finished := worker.stopRequested }
  | .checkExit (.task (.expiredTimers _)) =>
      { pass with
        finished := view.exitRequested }
  | _ => pass

/-- What is so between the steps of a worker's loop: inside a call the heap
holds what the pops have left, and a call that is over has left nothing due
unless a flag was set. -/
def Conducts (worker : IOWorker workers Task) (unstopped : Prop)
    (pass : Pass Task) : Prop :=
  ∃ queue, pass.Popped pass.ran queue ∧
    (∀ now, worker.point.expiring = some now →
      pass.now = now ∧ pass.finished = false ∧ queue = worker.timers) ∧
    (pass.finished = true → unstopped →
      ∀ timer ∈ queue, pass.now < timer.deadline)

theorem expiring_haulNext (haul : Haul workers Task) :
    haul.next.expiring = none := by
  fun_cases Haul.next haul <;> rfl

theorem expiring_leave (errand : Errand workers Task) :
    errand.leave.expiring = none := by
  cases errand <;> rfl

theorem expiring_onStop (site : Site workers Task) :
    site.onStop.expiring = none := by
  cases site with
  | task errand => exact expiring_leave errand
  | _ => rfl

theorem expiring_onward {site : Site workers Task}
    (elsewhere : (IOPoint.checkExit site).expiring = none) :
    site.onward.expiring = none := by
  cases site with
  | task errand =>
      cases errand with
      | expiredTimers now => cases elsewhere
      | inline haul => exact expiring_haulNext haul
      | _ => rfl
  | _ => rfl

theorem expiring_done {errand : Errand workers Task}
    (elsewhere : (IOPoint.running errand).expiring = none) :
    errand.done.expiring = none := by
  cases errand with
  | expiredTimers now => cases elsewhere
  | inline haul =>
      cases haul with
      | harvest rest => rfl
      | steal => exact expiring_haulNext _
  | _ => rfl

variable {options : Options} {self : Fin workers} {view : View workers Task}
  {worker : IOWorker workers Task} {choice : Choice workers}
  {outcome : Outcome workers Task}

theorem IOWorker.step_expiring
    (stepped : worker.step options self view choice = some outcome)
    (elsewhere : worker.point.expiring = none)
    (notSampling : worker.point ≠ .timersClock) :
    outcome.worker.point.expiring = none := by
  cases point : worker.point with
  | timersClock => exact absurd point notSampling
  | timersNext now => simp [point, IOPoint.expiring] at elsewhere
  | running errand =>
      rw [point] at elsewhere
      simp only [step, point] at stepped
      cases stepped
      exact expiring_done elsewhere
  | checkExit site =>
      rw [point] at elsewhere
      simp only [step, point] at stepped
      cases stepped
      simp only [goto]
      split
      · exact expiring_onStop site
      · exact expiring_onward elsewhere
  | checkStop site =>
      rw [point] at elsewhere
      simp only [step, point] at stepped
      cases stepped
      simp only [goto]
      split
      · exact expiring_onStop site
      · cases site with
        | task errand =>
            cases errand with
            | expiredTimers now => cases elsewhere
            | _ => rfl
        | _ => rfl
  | _ =>
      simp only [step, point] at stepped
      grind -linarith [goto, start, block, stealOnce, IOPoint.expiring,
        expiring_haulNext]

theorem Pass.next_elsewhere {pass : Pass Task}
    (elsewhere : worker.point.expiring = none)
    (notSampling : worker.point ≠ .timersClock) :
    pass.next worker view choice = pass := by
  unfold Pass.next
  split
  · next point => exact absurd point notSampling
  · next point => simp [point, IOPoint.expiring] at elsewhere
  · next point => simp [point, IOPoint.expiring] at elsewhere
  · next point => simp [point, IOPoint.expiring] at elsewhere
  · rfl

theorem expiring_cases {point : IOPoint workers Task} {now : Int}
    (expiring : point.expiring = some now) :
    point = .timersNext now ∨ point = .running (.expiredTimers now) ∨
      point = .checkStop (.task (.expiredTimers now)) ∨
      point = .checkExit (.task (.expiredTimers now)) := by
  unfold IOPoint.expiring at expiring
  split at expiring <;> cases expiring <;> simp

theorem Conducts.inside {pass : Pass Task} {unstopped : Prop}
    (clear : unstopped →
      worker.stopRequested = false ∧ view.exitRequested = false)
    (pops : pass.Popped pass.ran worker.timers) (going : pass.finished = false)
    (expiring : worker.point.expiring = some pass.now)
    (stepped : worker.step options self view choice = some outcome) :
    Conducts outcome.worker unstopped (pass.next worker view choice) := by
  have notOver {claim : Prop} : pass.finished = true → claim := by
    intro isOver
    rw [going] at isOver
    cases isOver
  obtain point | point | point | point := expiring_cases expiring
  · simp only [IOWorker.step, point] at stepped
    cases choice with
    | timer index =>
        simp only at stepped
        cases found : worker.timers[index]? with
        | none => simp [found] at stepped
        | some timer =>
            simp only [found, Option.ite_none_right_eq_some] at stepped
            obtain ⟨⟨first, due⟩, same⟩ := stepped
            cases same
            have least := (List.min?_eq_some_iff.mp first).2
            simp only [Pass.next, point, found, Option.toList_some]
            refine ⟨worker.timers.eraseIdx index, ?_, ?_, notOver⟩
            · refine Pops.pop ?_ found (fun rule agrees => agrees.2) ?_ due
              · exact pops.mono fun _ _ allowed rule agrees =>
                  allowed rule agrees.1
              · intro other member
                exact least _ (List.mem_map_of_mem member)
            · rintro later ⟨⟩
              exact ⟨rfl, going, rfl⟩
    | go | woken | victim =>
        simp only [Option.ite_none_right_eq_some] at stepped
        obtain ⟨later, same⟩ := stepped
        cases same
        simp only [Pass.next, point]
        exact ⟨worker.timers, pops, nofun, fun _ _ => later⟩
  · simp only [IOWorker.step, point] at stepped
    cases stepped
    simp only [Pass.next, point]
    refine ⟨worker.timers, pops, ?_, notOver⟩
    rintro later ⟨⟩
    exact ⟨rfl, going, rfl⟩
  · simp only [IOWorker.step, point] at stepped
    cases stepped
    simp only [Pass.next, point]
    cases stop : worker.stopRequested with
    | true =>
        refine ⟨worker.timers, pops, nofun, fun _ unstopped => ?_⟩
        rw [(clear unstopped).1] at stop
        cases stop
    | false =>
        refine ⟨worker.timers, pops, ?_, nofun⟩
        rintro later ⟨⟩
        exact ⟨rfl, rfl, rfl⟩
  · simp only [IOWorker.step, point] at stepped
    cases stepped
    simp only [Pass.next, point]
    cases exit : view.exitRequested with
    | true =>
        refine ⟨worker.timers, pops, nofun, fun _ unstopped => ?_⟩
        rw [(clear unstopped).2] at exit
        cases exit
    | false =>
        refine ⟨worker.timers, pops, ?_, nofun⟩
        rintro later ⟨⟩
        exact ⟨rfl, rfl, rfl⟩

theorem Conducts.step {pass : Pass Task} {unstopped still : Prop}
    (conducts : Conducts worker unstopped pass)
    (clear : unstopped →
      worker.stopRequested = false ∧ view.exitRequested = false)
    (stays : still → unstopped)
    (stepped : worker.step options self view choice = some outcome) :
    Conducts outcome.worker still (pass.next worker view choice) := by
  obtain ⟨queue, pops, inside, ended⟩ := conducts
  cases expiring : worker.point.expiring with
  | some now =>
      obtain ⟨rfl, going, rfl⟩ := inside now expiring
      exact Conducts.inside (fun now => clear (stays now)) pops going expiring
        stepped
  | none =>
      by_cases sampling : worker.point = .timersClock
      · simp only [IOWorker.step, sampling] at stepped
        cases stepped
        simp only [Pass.next, sampling]
        refine ⟨worker.timers, .start, ?_, by simp⟩
        rintro later ⟨⟩
        exact ⟨rfl, rfl, rfl⟩
      · rw [Pass.next_elsewhere expiring sampling]
        refine ⟨queue, pops, ?_, fun isOver now => ended isOver (stays now)⟩
        intro later expires
        rw [IOWorker.step_expiring stepped expiring sampling] at expires
        cases expires

theorem Pass.next_ran (pass : Pass Task)
    (stepped : worker.step options self view choice = some outcome) :
    (pass.next worker view choice).ran = [] ∨
      (pass.next worker view choice).ran =
        pass.ran ++ startedTimers outcome.started.toList := by
  cases IOWorker.step_effect stepped with
  | quiet queue timers count commands shared =>
      rw [(started_of_isShared shared).2, List.append_nil]
      unfold next
      split <;> first | exact .inl rfl | exact .inr rfl | skip
      next now point =>
        cases choice with
        | timer index =>
            simp only [IOWorker.step, point] at stepped
            split at stepped
            · cases stepped
            · split at stepped <;> cases stepped
              cases shared _ rfl
        | _ => exact .inr rfl
  | accepted point same started =>
      right
      simp [next, point, started]
  | ownTask point queued same started =>
      right
      simp [next, point, started]
  | timer point chosen found first due same started =>
      right
      simp [next, point, chosen, found, started]

theorem Pass.next_now (pass : Pass Task) :
    (pass.next worker view choice).now = pass.now ∨
      (pass.next worker view choice).now = view.clock := by
  unfold next
  split <;> first | exact .inr rfl | exact .inl rfl | skip
  split <;> exact .inl rfl

theorem IOWorker.step_startedTimer {deadline now : Int} {task : Task}
    (stepped : worker.step options self view choice = some outcome)
    (begun : outcome.started = some (.timer deadline now, task)) :
    worker.point.expiring = some now ∧ deadline ≤ now := by
  cases step_effect stepped with
  | quiet queue timers count commands shared => cases shared _ begun
  | accepted point same started =>
      rw [started] at begun
      cases begun
  | ownTask point queued same started =>
      rw [started] at begun
      cases begun
  | timer point chosen found first due same started =>
      rw [started] at begun
      cases begun
      rw [point]
      exact ⟨rfl, due⟩

theorem IOWorker.step_timerCount
    (stepped : worker.step options self view choice = some outcome)
    (counted : worker.timerCount = UInt32.ofNat worker.timers.length) :
    outcome.worker.timerCount =
      UInt32.ofNat outcome.worker.timers.length := by
  cases step_effect stepped with
  | quiet queue timers count commands shared => rw [timers, count, counted]
  | @accepted command rest point same started =>
      rw [same]
      cases command with
      | addTimer deadline task => simp [accept, counted, UInt32.ofNat_add]
      | privateTask | stopWorker => exact counted
  | ownTask point queued same started =>
      rw [same]
      exact counted
  | timer point chosen found first due same started =>
      have length := (perm_cons_eraseIdx found).length_eq
      rw [same, counted, length, List.length_cons, UInt32.ofNat_add]
      exact UInt32.add_sub_cancel _ _

end Worker

section Runs

variable {Outside : Type} {workers computers : Nat} {Task : Type}
  {config : Config workers computers}
  {state after : State Outside workers computers Task}

/-- For each worker its last call of `runExpiredTimers`. -/
def observePasses :
    System.Observer (State Outside workers computers Task)
      (Label Outside workers computers Task) (Fin workers → Pass Task)
  | state, .io worker choice, _, passes =>
      Function.update passes worker
        ((passes worker).next (state.ioWorkers worker) state.view choice)
  | _, _, _, passes => passes

theorem observePasses_own {target : Fin workers} {choice : Choice workers}
    {passes : Fin workers → Pass Task} :
    observePasses state (.io target choice) after passes target =
      (passes target).next (state.ioWorkers target) state.view choice := by
  simp [observePasses]

theorem observePasses_other {target : Fin workers}
    {label : Label Outside workers computers Task}
    {passes : Fin workers → Pass Task}
    (other : ∀ choice, label ≠ .io target choice) :
    observePasses state label after passes target = passes target := by
  cases label with
  | io worker choice =>
      have apart : target ≠ worker := by
        rintro rfl
        exact other choice rfl
      exact Function.update_of_ne apart _ _
  | _ => rfl

theorem callEffect_clock {waiter : Option (Fin computers)}
    {call next : Call workers computers Task}
    {changed : State Outside workers computers Task}
    (found : state.callEffect config waiter call = some (changed, next)) :
    changed.clock = state.clock := by
  cases call with
  | localPush target task | computePush task | exitExchange =>
      simp only [State.callEffect] at found
      split at found <;> cases found <;> rfl
  | computeNotify =>
      simp only [State.callEffect] at found
      split at found <;> split at found <;> cases found <;> rfl
  | idle => cases found
  | _ =>
      cases found
      rfl

variable [DecidableEq Outside]

theorem State.step_clock {label : Label Outside workers computers Task}
    (stepped : state.step config label = some after) :
    state.clock ≤ after.clock := by
  cases label with
  | call thread request =>
      simp only [State.step] at stepped
      split at stepped
      · split at stepped <;> cases stepped
        exact Int.le_refl _
      · cases stepped
  | advance thread waiter =>
      obtain ⟨⟨changed, next⟩, found, rfl⟩ := Option.map_eq_some_iff.mp stepped
      exact Int.le_of_eq (callEffect_clock found).symm
  | io worker choice =>
      simp only [State.step] at stepped
      split at stepped
      · obtain ⟨outcome, found, rfl⟩ := State.ioStep_cases stepped
        cases robbed : outcome.robbed <;> simp [State.setWorker, State.rob]
      · cases stepped
  | compute worker =>
      simp only [State.step] at stepped
      split at stepped
      · obtain ⟨outcome, _, rfl⟩ := Option.map_eq_some_iff.mp stepped
        exact Int.le_refl _
      · cases stepped
  | tick nanos =>
      cases stepped
      exact Int.le_add_of_nonneg_right (Int.natCast_nonneg nanos)

structure Punctual (target : Fin workers)
    (state : State Outside workers computers Task) (pass : Pass Task) :
    Prop where
  conducts : Conducts (state.ioWorkers target) state.Running pass
  sampled : pass.now ≤ state.clock
  started : ∀ deadline now task,
    (.timer deadline now, task) ∈ state.startedOn target →
      deadline ≤ now ∧ now ≤ state.clock
  logged : pass.ran <:+ startedTimers (state.startedOn target)
  counted : (state.ioWorkers target).timerCount =
    UInt32.ofNat (state.ioWorkers target).timers.length

theorem Punctual.own {target : Fin workers} {pass : Pass Task}
    {choice : Choice workers} {outcome : Outcome workers Task}
    (punctual : Punctual target state pass)
    (stepped : state.step config (.io target choice) = some after)
    (moved : (state.ioWorkers target).step (config.io target) target state.view
      choice = some outcome)
    (worker : after.ioWorkers target = outcome.worker)
    (started : after.startedOn target =
      state.startedOn target ++ outcome.started.toList) :
    Punctual target after
      (pass.next (state.ioWorkers target) state.view choice) := by
  have passes := State.step_clock stepped
  refine ⟨?_, ?_, ?_, ?_, ?_⟩
  · rw [worker]
    refine punctual.conducts.step ?_ (fun running => running.before stepped)
      moved
    intro running
    exact ⟨running.2 target, running.1⟩
  · have now : (pass.next (state.ioWorkers target) state.view choice).now =
        pass.now ∨ _ = state.view.clock := pass.next_now
    obtain same | now := now
    · rw [same]
      exact le_trans punctual.sampled passes
    · rw [now]
      exact passes
  · intro deadline now task member
    rw [started, List.mem_append, Option.mem_toList] at member
    obtain earlier | begun := member
    · obtain ⟨due, sampled⟩ := punctual.started deadline now task earlier
      exact ⟨due, le_trans sampled passes⟩
    · obtain ⟨expiring, due⟩ := IOWorker.step_startedTimer moved begun
      obtain ⟨_, _, inside, _⟩ := punctual.conducts
      rw [← (inside now expiring).1] at due ⊢
      exact ⟨due, le_trans punctual.sampled passes⟩
  · rw [started, startedTimers_append]
    obtain fresh | grown := pass.next_ran moved
    · rw [fresh]
      exact List.nil_suffix
    · rw [grown]
      obtain ⟨earlier, same⟩ := punctual.logged
      exact ⟨earlier, by rw [← List.append_assoc, same]⟩
  · rw [worker]
    exact IOWorker.step_timerCount moved punctual.counted

theorem Punctual.step {target : Fin workers}
    {label : Label Outside workers computers Task}
    {passes : Fin workers → Pass Task}
    (punctual : Punctual target state (passes target))
    (stepped : state.step config label = some after) :
    Punctual target after (observePasses state label after passes target) := by
  obtain ⟨choice, outcome, rfl, moved, worker, _, started⟩ |
    ⟨other, disturbed, started, _⟩ := State.step_seenBy target stepped
  · rw [observePasses_own]
    exact punctual.own stepped moved worker started
  · rw [observePasses_other other]
    have passed := State.step_clock stepped
    refine ⟨?_, le_trans punctual.sampled passed, ?_, ?_, ?_⟩
    · obtain ⟨queue, pops, inside, ended⟩ := punctual.conducts
      refine ⟨queue, pops, ?_, fun isOver running =>
        ended isOver (running.before stepped)⟩
      rw [disturbed.point, disturbed.timers]
      exact inside
    · intro deadline now task member
      rw [started] at member
      obtain ⟨due, sampled⟩ := punctual.started deadline now task member
      exact ⟨due, le_trans sampled passed⟩
    · rw [started]
      exact punctual.logged
    · rw [disturbed.timerCount, disturbed.timers]
      exact punctual.counted

def passObserved (Outside : Type) [DecidableEq Outside] (Task : Type)
    (config : Config workers computers) :=
  (machine Outside Task config).withHistory (fun _ => Pass.initial)
    observePasses

theorem punctual_of_reachable {passes : Fin workers → Pass Task}
    (reached : (passObserved Outside Task config).Reachable (state, passes))
    (target : Fin workers) : Punctual target state (passes target) := by
  refine System.withHistory_invariant
    (fun state passes => Punctual target state (passes target)) ?_ ?_ reached
  · rintro _ rfl
    refine ⟨⟨[], .start, nofun, ?_⟩, Int.le_refl _, ?_, ⟨[], rfl⟩, rfl⟩
    · intro _ _ timer member
      cases member
    · intro deadline now task member
      cases member
  · intro state passes label after punctual _ stepped
    exact punctual.step stepped

end Runs

end RopHive.Schedule
