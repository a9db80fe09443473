import RopHive.Schedule.LostWakeup
import RopHive.Transition.History

namespace RopHive.Schedule

open Transition

/-! Commands posted to one worker, by `postToWorker` or by `postDelayed` that
picked it.  The history keeps for each command in a worker's `inbound_` the
thread whose call pushed it, until that call returns. -/

section Points

variable {workers computers : Nat} {Task : Type}

def IOPoint.swaps : IOPoint workers Task → Bool
  | .drainSwap => true
  | _ => false

/-- The wait is over and `inbound_` is about to be swapped. -/
def IOPoint.drains : IOPoint workers Task → Bool
  | .dispatching _ _ | .clearSleeping | .drainSwap => true
  | _ => false

/-- `private_queue_` has been read as empty for the coming wait. -/
def IOPoint.sawNoPrivate : IOPoint workers Task → Bool
  | .readLocal | .readGlobal | .readClock => true
  | .markSleeping timeout | .enterWait timeout | .waiting timeout =>
      timeout ≠ 0
  | _ => false

theorem sawNoPrivate_of_junction {point : IOPoint workers Task}
    (junction : point.junction) : point.sawNoPrivate = false := by
  cases point with
  | enterWait timeout =>
      simp only [IOPoint.junction, decide_eq_true_eq] at junction
      simp [IOPoint.sawNoPrivate, junction]
  | markSleeping timeout | waiting timeout | readLocal | readGlobal
  | readClock => cases junction
  | _ => rfl

/-- What the next step of the call pushes into an `inbound_`. -/
def Call.pushed : Call workers computers Task →
    Option (Fin workers × InboundCommand Task)
  | .inboundPush worker command _ => some (worker, command)
  | _ => none

def Call.commands (target : Fin workers) (call : Call workers computers Task) :
    List (InboundCommand Task) :=
  match call.pushed with
  | some (worker, command) => if worker = target then [command] else []
  | none => []

def Call.isIdle : Call workers computers Task → Bool
  | .idle => true
  | _ => false

theorem Call.eq_idle {call : Call workers computers Task}
    (isIdle : call.isIdle) : call = .idle := by
  cases call with
  | idle => rfl
  | _ => cases isIdle

theorem Call.pushed_some {call : Call workers computers Task}
    {worker : Fin workers} {command : InboundCommand Task}
    (pushed : call.pushed = some (worker, command)) :
    ∃ wake, call = .inboundPush worker command wake := by
  cases call with
  | inboundPush target other wake =>
      cases pushed
      exact ⟨wake, rfl⟩
  | _ => cases pushed

/-- The call has pushed a command to the worker and has yet to notify it. -/
def Call.owes (target : Fin workers) : Call workers computers Task → Prop
  | .inboundCount worker wake => worker = target ∧ wake
  | .inboundWake worker => worker = target
  | _ => False

/-- The call ends with a notification if it pushes a command to the worker. -/
def Call.notifies (target : Fin workers) : Call workers computers Task → Prop
  | .inboundPush worker _ wake | .inboundCount worker wake =>
      worker = target → wake
  | _ => True

end Points

namespace IOWorker

variable {workers : Nat} {Task : Type} {options : Options}
  {self : Fin workers} {view : View workers Task}
  {worker : IOWorker workers Task} {choice : Choice workers}
  {outcome : Outcome workers Task}

theorem step_inbound
    (stepped : worker.step options self view choice = some outcome) :
    outcome.worker.inbound.q =
      if worker.point.swaps then [] else worker.inbound.q := by
  cases point : worker.point with
  | drainSwap =>
      simp only [step, point] at stepped
      split at stepped
      · next empty =>
          cases stepped
          simpa [goto, IOPoint.swaps] using empty
      · cases stepped
        simp [goto, IOPoint.swaps]
  | draining commands =>
      cases commands with
      | nil =>
          simp only [step, point] at stepped
          cases stepped
          simp [goto, IOPoint.swaps]
      | cons command rest =>
          simp only [step, point] at stepped
          cases stepped
          cases command <;> simp [goto, accept, IOPoint.swaps]
  | _ =>
      simp only [step, point] at stepped
      grind -linarith [goto, start, IOPoint.swaps]

theorem step_wakeup
    (stepped : worker.step options self view choice = some outcome)
    (standing : worker.wakeup ≠ 0 ∨ worker.point.drains) :
    worker.point.swaps ∨ outcome.worker.wakeup ≠ 0 ∨
      outcome.worker.point.drains := by
  cases point : worker.point with
  | draining commands =>
      cases commands with
      | nil =>
          simp only [step, point] at stepped
          cases stepped
          simpa [goto, IOPoint.drains, IOPoint.swaps, point] using standing
      | cons command rest =>
          simp only [step, point] at stepped
          cases stepped
          cases command <;>
            simpa [goto, accept, IOPoint.drains, IOPoint.swaps, point] using
              standing
  | _ =>
      simp only [step, point] at stepped
      grind -linarith [goto, start, IOPoint.drains, IOPoint.swaps]

theorem step_sawNoPrivate
    (stepped : worker.step options self view choice = some outcome)
    (standing : worker.point.sawNoPrivate → worker.privateQueue = [])
    (saw : outcome.worker.point.sawNoPrivate) :
    outcome.worker.privateQueue = [] := by
  cases point : worker.point with
  | checkExit site =>
      simp only [step, point] at stepped
      cases stepped
      rcases junction_onward site with rfl | junction
      · grind -linarith [goto, IOPoint.sawNoPrivate, sawNoPrivate_of_junction,
          junction_onStop, Site.onward]
      · grind -linarith [goto, IOPoint.sawNoPrivate, sawNoPrivate_of_junction,
          junction_onStop]
  | draining commands =>
      cases commands <;>
        (simp only [step, point] at stepped
         cases stepped
         simp [goto, IOPoint.sawNoPrivate] at saw)
  | _ =>
      simp only [step, point] at stepped
      grind -linarith [goto, start, block, stealOnce, IOPoint.sawNoPrivate,
        sawNoPrivate_of_junction, junction_haulNext, junction_done,
        junction_onStop]

end IOWorker

section Posting

variable {Outside : Type} {workers computers : Nat} {Task : Type}
  {config : Config workers computers}
  {state after : State Outside workers computers Task}

/-- For each command in a worker's `inbound_` the thread that is still in the
call that pushed it, `none` once the call has returned. -/
abbrev Posters (Outside : Type) (workers computers : Nat) :=
  Fin workers → List (Option (Thread Outside workers computers))

/-- The worker is blocked in `runOnce` with a timeout other than 0 and an empty
eventfd beside a command whose poster has returned, or a private task. -/
def Overslept (target : Fin workers)
    (state : State Outside workers computers Task)
    (posters : Posters Outside workers computers) : Prop :=
  (∃ timeout, (state.ioWorkers target).point = .waiting timeout ∧
    timeout ≠ 0) ∧
  (state.ioWorkers target).wakeup = 0 ∧
  ((∃ command,
      (command, none) ∈ (state.ioWorkers target).inbound.q.zip
        (posters target)) ∨
    (state.ioWorkers target).privateQueue ≠ [])

/-- Commands for the worker come from `postToWorker` and `postDelayed` only. -/
def DirectedPosts (target : Fin workers) :
    Label Outside workers computers Task → Prop
  | .call _ (.addTimer worker _ _) | .call _ (.postPrivate worker _) =>
      worker ≠ target
  | _ => True

instance (target : Fin workers)
    (label : Label Outside workers computers Task) :
    Decidable (DirectedPosts target label) := by
  unfold DirectedPosts
  split <;> infer_instance

theorem callEffect_inbound {waiter : Option (Fin computers)}
    {call next : Call workers computers Task}
    {changed : State Outside workers computers Task}
    (found : state.callEffect config waiter call = some (changed, next))
    (target : Fin workers) :
    (changed.ioWorkers target).inbound.q =
      (state.ioWorkers target).inbound.q ++ call.commands target := by
  cases call with
  | inboundPush worker command wake =>
      cases found
      by_cases same : worker = target
      · subst same
        simp [State.record, State.setWorker, Call.commands, Call.pushed]
      · simp [State.record, State.setWorker, Call.commands, Call.pushed, same,
          Function.update_of_ne (Ne.symm same)]
  | inboundCount worker wake | wakeIdle worker | inboundWake worker
  | exitWake worker | stopOne worker | exitStop worker =>
      cases found
      by_cases same : target = worker
      · simp [State.setWorker, State.notify, State.stopWorker, Call.commands,
          Call.pushed, same]
      · simp [State.setWorker, State.notify, State.stopWorker, Call.commands,
          Call.pushed, Function.update_of_ne same]
  | localPush worker task =>
      simp only [State.callEffect] at found
      split at found <;> cases found
      · by_cases same : target = worker
        · simp [State.setWorker, Call.commands, Call.pushed, same]
        · simp [State.setWorker, Call.commands, Call.pushed, Function.update_of_ne same]
      · simp [Call.commands, Call.pushed]
  | computeNotify =>
      simp only [State.callEffect] at found
      split at found <;> split at found <;> cases found <;>
        simp [State.wakeCompute, Call.commands, Call.pushed]
  | computePush task | exitExchange =>
      simp only [State.callEffect] at found
      split at found <;> cases found <;> simp [State.record, Call.commands, Call.pushed]
  | idle => cases found
  | _ =>
      cases found
      simp [State.record, Call.commands, Call.pushed]

theorem owes_next {waiter : Option (Fin computers)}
    {call next : Call workers computers Task}
    {changed : State Outside workers computers Task} {target : Fin workers}
    (found : state.callEffect config waiter call = some (changed, next))
    (owes : call.owes target) :
    next.owes target ∨
      next = .idle ∧ (changed.ioWorkers target).wakeup ≠ 0 := by
  cases call with
  | inboundCount worker wake =>
      obtain ⟨rfl, wakes⟩ := owes
      cases found
      simp [wakes, Call.owes]
  | inboundWake worker =>
      obtain rfl : worker = target := owes
      cases found
      exact .inr ⟨rfl, by simp [State.notify, State.setWorker]⟩
  | _ => exact owes.elim

theorem notifies_next {waiter : Option (Fin computers)}
    {call next : Call workers computers Task}
    {changed : State Outside workers computers Task} {target : Fin workers}
    (found : state.callEffect config waiter call = some (changed, next))
    (notifies : call.notifies target) : next.notifies target := by
  cases call with
  | inboundCount worker wake =>
      cases found
      split <;> trivial
  | inboundPush worker command wake =>
      cases found
      exact notifies
  | computeNotify =>
      simp only [State.callEffect] at found
      split at found <;> split at found <;> cases found <;> trivial
  | _ =>
      simp only [State.callEffect] at found
      grind -linarith [Call.notifies, Call.scanFrom, Call.computeStopFrom,
        Call.exitStopFrom]

theorem notifies_enter {thread : Thread Outside workers computers}
    {request : Request workers Task} {target : Fin workers}
    (directed : DirectedPosts target
      (.call thread request : Label Outside workers computers Task)) :
    ((state.enter thread request).1 : Call workers computers Task).notifies
      target := by
  fun_cases State.enter state thread request <;>
    simp only [*] <;> grind -linarith [Call.notifies, DirectedPosts]

variable [DecidableEq Outside]

def observePosts :
    System.Observer (State Outside workers computers Task)
      (Label Outside workers computers Task)
      (Posters Outside workers computers) :=
  fun state label after posters =>
    match label with
    | .advance thread _ =>
        match (state.calls thread).pushed with
        | some (worker, _) =>
            Function.update posters worker (posters worker ++ [some thread])
        | none =>
            if (after.calls thread).isIdle then fun worker =>
              (posters worker).map fun poster =>
                if poster = some thread then none else poster
            else posters
    | .io worker _ =>
        if (state.ioWorkers worker).point.swaps then
          Function.update posters worker []
        else posters
    | _ => posters

/-- A command whose poster has returned has been notified of, and the
notification still stands or the worker is about to drain the queue. -/
structure Attended (target : Fin workers)
    (state : State Outside workers computers Task)
    (posters : List (Option (Thread Outside workers computers))) : Prop where
  parallel : posters.length = (state.ioWorkers target).inbound.q.length
  owed : ∀ thread, some thread ∈ posters → (state.calls thread).owes target
  notifies : ∀ thread, (state.calls thread).notifies target
  noted : none ∈ posters →
    (state.ioWorkers target).wakeup ≠ 0 ∨
      (state.ioWorkers target).point.drains
  sawNone : (state.ioWorkers target).point.sawNoPrivate →
    (state.ioWorkers target).privateQueue = []

namespace Attended

variable {target : Fin workers}
  {posters : List (Option (Thread Outside workers computers))}

omit [DecidableEq Outside] in
theorem carry (attended : Attended target state posters)
    {after : State Outside workers computers Task}
    (inbound : (after.ioWorkers target).inbound.q =
      (state.ioWorkers target).inbound.q)
    (disturbed :
      (state.ioWorkers target).Disturbed (after.ioWorkers target))
    (owed : ∀ thread, some thread ∈ posters →
      (after.calls thread).owes target)
    (notifies : ∀ thread, (after.calls thread).notifies target) :
    Attended target after posters where
  parallel := by rw [inbound, attended.parallel]
  owed := owed
  notifies := notifies
  noted isNone := by
    have wakeup := disturbed.wakeup
    rw [disturbed.point]
    exact (attended.noted isNone).imp (by omega) id
  sawNone := by
    rw [disturbed.point, disturbed.privateQueue]
    exact attended.sawNone

theorem begin (attended : Attended target state posters)
    {thread : Thread Outside workers computers}
    {request : Request workers Task} (idle : state.calls thread = .idle)
    (directed : DirectedPosts target
      (.call thread request : Label Outside workers computers Task)) :
    Attended target (state.begin thread request) posters := by
  refine attended.carry rfl (.refl _) ?_ ?_
  · intro other member
    have owes := attended.owed other member
    have differs : other ≠ thread := by
      rintro rfl
      rw [idle] at owes
      exact owes
    simpa [State.begin, State.setCall, differs] using owes
  · intro other
    by_cases same : other = thread
    · subst same
      simpa [State.begin, State.setCall] using notifies_enter directed
    · simpa [State.begin, State.setCall, same] using attended.notifies other

section Advance

variable {thread : Thread Outside workers computers}
  {waiter : Option (Fin computers)} {next : Call workers computers Task}
  {changed : State Outside workers computers Task}

theorem notifies_advance (attended : Attended target state posters)
    (found : state.callEffect config waiter (state.calls thread) =
      some (changed, next)) (other : Thread Outside workers computers) :
    ((changed.setCall thread next).calls other).notifies target := by
  by_cases same : other = thread
  · subst same
    simpa [State.setCall] using
      notifies_next found (attended.notifies other)
  · simpa [State.setCall, same, state.callEffect_calls found] using
      attended.notifies other

theorem owed_other (attended : Attended target state posters)
    (found : state.callEffect config waiter (state.calls thread) =
      some (changed, next)) {other : Thread Outside workers computers}
    (differs : other ≠ thread) (member : some other ∈ posters) :
    ((changed.setCall thread next).calls other).owes target := by
  simpa [State.setCall, differs, state.callEffect_calls found] using
    attended.owed other member

theorem goOn (attended : Attended target state posters)
    (found : state.callEffect config waiter (state.calls thread) =
      some (changed, next))
    (elsewhere : (state.calls thread).commands target = [])
    (open_ : some thread ∈ posters → next ≠ .idle) :
    Attended target (changed.setCall thread next) posters := by
  refine attended.carry ?_ (state.callEffect_disturbs found target) ?_
    (attended.notifies_advance found)
  · have inbound := callEffect_inbound found target
    rw [elsewhere, List.append_nil] at inbound
    exact inbound
  · intro other member
    by_cases same : other = thread
    · subst same
      simpa [State.setCall] using
        (owes_next found (attended.owed other member)).resolve_right
          fun returned => open_ member returned.1
    · exact attended.owed_other found same member

theorem returns (attended : Attended target state posters)
    (found : state.callEffect config waiter (state.calls thread) =
      some (changed, .idle))
    (elsewhere : (state.calls thread).commands target = []) :
    Attended target (changed.setCall thread .idle)
      (posters.map fun poster =>
        if poster = some thread then none else poster) := by
  have inbound := callEffect_inbound found target
  have disturbed := state.callEffect_disturbs found target
  refine ⟨?_, ?_, attended.notifies_advance found, ?_, ?_⟩
  · simpa [State.setCall, inbound, elsewhere] using attended.parallel
  · intro other member
    obtain ⟨poster, member, same⟩ := List.mem_map.mp member
    split at same
    · cases same
    · next differs =>
        subst same
        exact attended.owed_other found (by simpa using differs) member
  · intro isNone
    obtain ⟨poster, member, same⟩ := List.mem_map.mp isNone
    have wakeup := disturbed.wakeup
    simp only [State.setCall, disturbed.point]
    split at same
    · next isThread =>
        subst isThread
        have notified := owes_next found (attended.owed thread member)
        exact .inl (notified.elim (fun owes => owes.elim) And.right)
    · subst same
      exact (attended.noted member).imp (by omega) id
  · simp only [State.setCall, disturbed.point, disturbed.privateQueue]
    exact attended.sawNone

theorem pushes (attended : Attended target state posters)
    {command : InboundCommand Task} {wake : Bool}
    (call : state.calls thread = .inboundPush target command wake)
    (found : state.callEffect config waiter (state.calls thread) =
      some (changed, next)) :
    Attended target (changed.setCall thread next)
      (posters ++ [some thread]) := by
  have inbound := callEffect_inbound found target
  have disturbed := state.callEffect_disturbs found target
  have wakes : wake := by
    have notifies := attended.notifies thread
    rw [call] at notifies
    exact notifies rfl
  have isNext : next = .inboundCount target wake := by
    rw [call] at found
    cases found
    rfl
  refine ⟨?_, ?_, attended.notifies_advance found, ?_, ?_⟩
  · simp [State.setCall, inbound, call, Call.commands, Call.pushed,
      attended.parallel]
  · intro other member
    simp only [List.mem_append, List.mem_singleton,
      Option.some.injEq] at member
    by_cases isPoster : other = thread
    · subst isPoster
      simp [State.setCall, isNext, wakes, Call.owes]
    · exact attended.owed_other found isPoster
        (member.resolve_right isPoster)
  · simp only [List.mem_append, List.mem_singleton, reduceCtorEq, or_false]
    intro isNone
    have wakeup := disturbed.wakeup
    simp only [State.setCall, disturbed.point]
    exact (attended.noted isNone).imp (by omega) id
  · simp only [State.setCall, disturbed.point, disturbed.privateQueue]
    exact attended.sawNone

end Advance

theorem callStep {posters : Posters Outside workers computers}
    (attended : Attended target state (posters target))
    {thread : Thread Outside workers computers}
    {waiter : Option (Fin computers)}
    (stepped : state.callStep config thread waiter = some after) :
    Attended target after
      (observePosts state (.advance thread waiter) after posters target) := by
  obtain ⟨⟨changed, next⟩, found, rfl⟩ := Option.map_eq_some_iff.mp stepped
  have isNext : (changed.setCall thread next).calls thread = next := by
    simp [State.setCall]
  simp only [observePosts, isNext]
  cases pushed : (state.calls thread).pushed with
  | some target_ =>
      obtain ⟨worker, command⟩ := target_
      obtain ⟨wake, call⟩ := Call.pushed_some pushed
      by_cases same : worker = target
      · subst same
        simp only [Function.update_self]
        exact attended.pushes call found
      · simp only [Function.update_of_ne (Ne.symm same)]
        apply attended.goOn found
        · simp [Call.commands, pushed, same]
        · intro member
          have owes := attended.owed thread member
          rw [call] at owes
          exact owes.elim
  | none =>
      have elsewhere : (state.calls thread).commands target = [] := by
        simp [Call.commands, pushed]
      cases isIdle : next.isIdle with
      | true =>
          obtain rfl := Call.eq_idle isIdle
          exact attended.returns found elsewhere
      | false =>
          refine attended.goOn found elsewhere ?_
          rintro - rfl
          cases isIdle

theorem ioStep {posters : Posters Outside workers computers}
    (attended : Attended target state (posters target)) {worker : Fin workers}
    {choice : Choice workers}
    (stepped : state.ioStep config worker choice = some after) :
    Attended target after
      (observePosts state (.io worker choice) after posters target) := by
  have elsewhere (differs : worker ≠ target) :
      observePosts state (.io worker choice) after posters target =
        posters target := by
    simp only [observePosts]
    split
    · rw [Function.update_of_ne (Ne.symm differs)]
    · rfl
  obtain ⟨outcome, found, rfl⟩ := State.ioStep_cases stepped
  by_cases same : worker = target
  · subst same
    have inbound := IOWorker.step_inbound found
    have sawNone := IOWorker.step_sawNoPrivate found attended.sawNone
    cases swaps : (state.ioWorkers worker).point.swaps with
    | true =>
        simp only [swaps, if_true] at inbound
        simp only [observePosts, swaps, if_true, Function.update_self]
        refine ⟨?_, by simp, ?_, by simp, ?_⟩
        · simp [State.setWorker, inbound]
        · simpa [State.setWorker] using attended.notifies
        · simpa [State.setWorker] using sawNone
    | false =>
        simp only [swaps, Bool.false_eq_true, if_false] at inbound
        simp only [observePosts, swaps, Bool.false_eq_true, if_false]
        refine ⟨?_, ?_, ?_, ?_, ?_⟩
        · simpa [State.setWorker, inbound] using attended.parallel
        · simpa [State.setWorker] using attended.owed
        · simpa [State.setWorker] using attended.notifies
        · intro isNone
          have still := IOWorker.step_wakeup found (attended.noted isNone)
          simpa [State.setWorker, swaps] using still
        · simpa [State.setWorker] using sawNone
  · rw [elsewhere same]
    refine attended.carry ?_ ?_ ?_ ?_
    · simp [State.setWorker, Function.update_of_ne (Ne.symm same),
        State.rob_ioWorkers]
    · simp only [State.setWorker, Function.update_of_ne (Ne.symm same),
        State.rob_ioWorkers]
      exact ⟨rfl, Nat.le_refl _, rfl, rfl, rfl, rfl, id⟩
    · simpa [State.setWorker] using attended.owed
    · simpa [State.setWorker] using attended.notifies

theorem step {posters : Posters Outside workers computers}
    (attended : Attended target state (posters target))
    {label : Label Outside workers computers Task}
    (directed : DirectedPosts target label)
    (stepped : state.step config label = some after) :
    Attended target after (observePosts state label after posters target) := by
  cases label with
  | call thread request =>
      simp only [State.step] at stepped
      split at stepped
      · next idle =>
          split at stepped <;> cases stepped
          exact attended.begin idle directed
      · cases stepped
  | advance thread waiter => exact attended.callStep stepped
  | io worker choice =>
      simp only [State.step] at stepped
      split at stepped
      · exact attended.ioStep stepped
      · cases stepped
  | compute worker =>
      simp only [State.step] at stepped
      split at stepped
      · obtain ⟨outcome, _, rfl⟩ := Option.map_eq_some_iff.mp stepped
        exact ⟨attended.parallel, attended.owed, attended.notifies,
          attended.noted, attended.sawNone⟩
      · cases stepped
  | tick nanos =>
      cases stepped
      exact ⟨attended.parallel, attended.owed, attended.notifies,
        attended.noted, attended.sawNone⟩

omit [DecidableEq Outside] in
theorem not_overslept {posters : Posters Outside workers computers}
    (attended : Attended target state (posters target)) :
    ¬ Overslept target state posters := by
  rintro ⟨⟨timeout, point, blocking⟩, silent, waits⟩
  cases waits with
  | inl posted =>
      obtain ⟨command, member⟩ := posted
      have noted := attended.noted (List.of_mem_zip member).2
      simp [silent, point, IOPoint.drains] at noted
  | inr waiting =>
      exact waiting (attended.sawNone (by
        simpa [point, IOPoint.sawNoPrivate] using blocking))

end Attended

/-- A command posted by `postToWorker` or `postDelayed` is never left to a
blocked worker once its poster has returned, with any number of workers and
threads, whatever else they do and whether or not something is stopped. -/
theorem not_overslept_of_directedPosts (config : Config workers computers)
    (target : Fin workers) (state : State Outside workers computers Task)
    (posters : Posters Outside workers computers)
    (reached : ((machine Outside Task config).withHistory (fun _ => [])
      observePosts).ReachableUnder (fun _ label => DirectedPosts target label)
      (state, posters)) : ¬ Overslept target state posters := by
  have attended : Attended target state (posters target) := by
    refine System.withHistory_invariant
      (fun state posters => Attended target state (posters target)) ?_ ?_
      reached
    · rintro _ rfl
      refine ⟨rfl, by simp, fun _ => trivial, by simp, ?_⟩
      simp [initialState, IOPoint.sawNoPrivate]
    · intro state posters label after attended directed stepped
      exact attended.step directed stepped
  exact attended.not_overslept

end Posting

def postDirectly (task : Nat) : List (Label Unit 1 0 Nat) :=
  .call (.outside ()) (.postToWorker 0 (some task)) ::
    List.replicate 3 (.advance (.outside ()) none)

def postsAroundWait : List (Label Unit 1 0 Nat) :=
  postDirectly 5 ++ List.replicate 37 (Label.io 0 .woken) ++ postDirectly 6 ++
    List.replicate 2 (Label.io 0 .woken)

theorem not_overslept_of_directedPosts_postsAroundWait :
    ∃ (state : State Unit 1 0 Nat) (posters : Posters Unit 1 0),
      (state.ioWorkers 0).point = .waiting (-1) ∧
      (state.ioWorkers 0).inbound.q.zip (posters 0) =
        [(.privateTask 6, none)] ∧ ¬ Overslept 0 state posters := by
  have run : (((machine Unit Nat loneWorker).withHistory (fun _ => [])
      observePosts).replay (initialState, fun _ => [])
        postsAroundWait).map (fun observed =>
          ((observed.1.ioWorkers 0).point,
            (observed.1.ioWorkers 0).inbound.q.zip (observed.2 0))) =
        some (.waiting (-1), [(.privateTask 6, none)]) := by
    decide +kernel
  have directed : ((machine Unit Nat loneWorker).withHistory (fun _ => [])
      observePosts).Follows (fun _ label => DirectedPosts 0 label)
        (initialState, fun _ => []) postsAroundWait := by
    decide +kernel
  have begun : ((machine Unit Nat loneWorker).withHistory (fun _ => [])
      observePosts).initial (initialState, fun _ => []) := ⟨rfl, rfl⟩
  obtain ⟨⟨state, posters⟩, ends, found⟩ := Option.map_eq_some_iff.mp run
  obtain ⟨point, posted⟩ := Prod.mk.inj found
  exact ⟨state, posters, point, posted,
    not_overslept_of_directedPosts loneWorker 0 state posters
      (System.ReachableUnder.replay postsAroundWait (.start begun) directed
        ends)⟩

end RopHive.Schedule
