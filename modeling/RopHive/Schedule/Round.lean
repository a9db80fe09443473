import RopHive.Schedule.Digestion
import RopHive.Schedule.TimerPass

namespace RopHive.Schedule

open PriorityQueue

/-! One turn of the loop of `IOWorker::run`, from the return of
`core_->runOnce` to the next check of the flags at the head of the loop. -/

section Courses

variable {workers : Nat} {Task : Type}

/-- What the loop has done in the turn. -/
structure Course (workers : Nat) (Task : Type) where
  started : List (Origin workers × Task) := []
  /-- What `drainInbound` swapped out of `inbound_`. -/
  taken : Option (List (InboundCommand Task)) := none
  /-- The clock reading of `runExpiredTimers`. -/
  sampled : Option Int := none
  digestion : Digestion workers Task := {}

def Course.next (course : Course workers Task)
    (worker : IOWorker workers Task) (view : View workers Task)
    (outcome : Outcome workers Task) : Course workers Task where
  started := course.started ++ outcome.started.toList
  taken :=
    match worker.point with
    | .drainSwap => some worker.inbound.q
    | _ => course.taken
  sampled :=
    match worker.point with
    | .timersClock => some view.clock
    | _ => course.sampled
  digestion := course.digestion.next worker view outcome

theorem Course.next_elsewhere {course : Course workers Task}
    {worker : IOWorker workers Task} {view : View workers Task}
    {outcome : Outcome workers Task}
    (notSwapping : worker.point ≠ .drainSwap)
    (notSampling : worker.point ≠ .timersClock) :
    course.next worker view outcome =
      { course with
        started := course.started ++ outcome.started.toList
        digestion := course.digestion.next worker view outcome } := by
  unfold next
  congr
  · split
    · contradiction
    · rfl
  · split
    · contradiction
    · rfl

namespace IOWorker

variable (worker : IOWorker workers Task)

def queueAfter (commands : List (InboundCommand Task)) : List Task :=
  worker.privateQueue ++ privateTasks commands

def heapAfter (commands : List (InboundCommand Task)) :
    List (TimerTask Task) :=
  worker.timers ++ addedTimers commands

@[simp] theorem queueAfter_nil : worker.queueAfter [] = worker.privateQueue :=
  List.append_nil _

@[simp] theorem heapAfter_nil : worker.heapAfter [] = worker.timers :=
  List.append_nil _

theorem queueAfter_accept (command : InboundCommand Task)
    (rest : List (InboundCommand Task)) :
    (worker.accept command).queueAfter rest =
      worker.queueAfter (command :: rest) := by
  cases command <;> simp [accept, queueAfter, InboundCommand.private?]

theorem heapAfter_accept (command : InboundCommand Task)
    (rest : List (InboundCommand Task)) :
    (worker.accept command).heapAfter rest =
      worker.heapAfter (command :: rest) := by
  cases command <;> simp [accept, heapAfter, InboundCommand.timer?]

end IOWorker

def TimerTask.startedAt (now : Int) (timer : TimerTask Task) :
    Origin workers × Task :=
  (.timer timer.deadline now, timer.task)

/-- Unless a flag is set, `runPrivateTasks` empties the private queue. -/
theorem IOWorker.step_spent {options : Options} {self : Fin workers}
    {view : View workers Task} {worker : IOWorker workers Task}
    {choice : Choice workers} {outcome : Outcome workers Task}
    (unstopped : worker.stopRequested = false)
    (unexited : view.exitRequested = false)
    (stepped : worker.step options self view choice = some outcome)
    (spent : worker.point.holdsPrivates = false → worker.privateQueue = [])
    (elsewhere : outcome.worker.point.holdsPrivates = false) :
    outcome.worker.privateQueue = [] := by
  cases holds : worker.point.holdsPrivates with
  | false =>
      cases step_effect stepped with
      | quiet queue timers count commands shared => rw [queue, spent holds]
      | accepted point same started =>
          rw [point] at holds
          cases holds
      | ownTask point queued same started =>
          rw [point] at holds
          cases holds
      | timer point chosen found first due same started =>
          rw [same]
          exact spent holds
  | true =>
      obtain ⟨commands, point | point⟩ | inside :=
        IOPoint.holdsPrivates_cases holds
      · simp only [step, point] at stepped
        cases stepped
        cases elsewhere
      · cases commands <;>
          (simp only [step, point] at stepped
           cases stepped
           cases elsewhere)
      · obtain point | point | point | point :=
          IOPoint.inPrivates_cases inside
        · simp only [step, point] at stepped
          split at stepped <;> cases stepped
          · next empty => exact empty
          · cases elsewhere
        all_goals
          simp only [step, point, unstopped, unexited] at stepped
          cases stepped
          cases elsewhere

/-- How far the turn has come: one case for each function of the loop. -/
inductive Proceeds (options : Options) (first worker : IOWorker workers Task)
    (course : Course workers Task) : Prop
  | swapping
      (point : worker.point = .clearSleeping ∨ worker.point = .drainSwap)
      (same : course = {})
      (queue : worker.privateQueue = first.privateQueue)
      (timers : worker.timers = first.timers)
  | merging {commands taken : List (InboundCommand Task)}
      (point : worker.point = .drainCount commands ∨
        worker.point = .draining commands)
      (same : course = { taken := some taken })
      (queue : worker.queueAfter commands = first.queueAfter taken)
      (timers : worker.heapAfter commands = first.heapAfter taken)
  | privates (ran : List Task) {taken : List (InboundCommand Task)}
      (point : worker.point.inPrivates)
      (same : course =
        { started := ran.map (Prod.mk .privateTask)
          taken := some taken })
      (queue : ran ++ worker.privateQueue = first.queueAfter taken)
      (timers : worker.timers = first.heapAfter taken)
  | sampling {taken : List (InboundCommand Task)}
      (point : worker.point = .timersClock)
      (same : course =
        { started := (first.queueAfter taken).map (Prod.mk .privateTask)
          taken := some taken })
      (timers : worker.timers = first.heapAfter taken)
  | expiring (ran : List (TimerTask Task))
      {taken : List (InboundCommand Task)} {now : Int}
      (point : worker.point.expiring = some now)
      (same : course =
        { started := (first.queueAfter taken).map (Prod.mk .privateTask) ++
            ran.map (TimerTask.startedAt now)
          taken := some taken
          sampled := some now })
      (pops : Pops TimerTask.deadline now (fun _ _ => True)
        (first.heapAfter taken) ran worker.timers)
  | digesting {taken : List (InboundCommand Task)} {now : Int}
      {ran queue : List (TimerTask Task)} {digestion : Digestion workers Task}
      (digests : digestion.Digests options worker.point)
      (same : course =
        { started := (first.queueAfter taken).map (Prod.mk .privateTask) ++
            ran.map (TimerTask.startedAt now) ++ digestion.started
          taken := some taken
          sampled := some now
          digestion })
      (pops : Pops TimerTask.deadline now (fun _ _ => True)
        (first.heapAfter taken) ran queue)
      (finished : ∀ timer ∈ queue, now < timer.deadline)

variable {options : Options} {self : Fin workers} {view : View workers Task}
  {first worker : IOWorker workers Task} {choice : Choice workers}
  {outcome : Outcome workers Task} {course : Course workers Task}

namespace Proceeds

theorem clearSleeping
    (queue : worker.privateQueue = first.privateQueue)
    (timers : worker.timers = first.timers)
    (point : worker.point = .clearSleeping)
    (stepped : worker.step options self view choice = some outcome) :
    Proceeds options first outcome.worker
      (Course.next {} worker view outcome) := by
  simp only [IOWorker.step, point] at stepped
  cases stepped
  simp only [Course.next, point, Digestion.next, IOWorker.goto]
  exact .swapping (.inr rfl) rfl queue timers

theorem drainSwap
    (queue : worker.privateQueue = first.privateQueue)
    (timers : worker.timers = first.timers)
    (point : worker.point = .drainSwap)
    (stepped : worker.step options self view choice = some outcome) :
    Proceeds options first outcome.worker
      (Course.next {} worker view outcome) := by
  simp only [IOWorker.step, point] at stepped
  split at stepped <;> cases stepped <;>
    simp only [Course.next, point, Digestion.next, IOWorker.goto]
  · next none =>
      rw [none]
      refine .privates [] rfl rfl ?_ ?_
      · rw [IOWorker.queueAfter_nil]
        exact queue
      · rw [IOWorker.heapAfter_nil]
        exact timers
  · refine .merging (.inl rfl) rfl ?_ ?_
    · simp only [IOWorker.queueAfter, queue]
    · simp only [IOWorker.heapAfter, timers]

theorem draining {commands taken : List (InboundCommand Task)}
    (queue : worker.queueAfter commands = first.queueAfter taken)
    (timers : worker.heapAfter commands = first.heapAfter taken)
    (point : worker.point = .draining commands)
    (stepped : worker.step options self view choice = some outcome) :
    Proceeds options first outcome.worker
      (Course.next { taken := some taken } worker view outcome) := by
  cases commands with
  | nil =>
      simp only [IOWorker.step, point] at stepped
      cases stepped
      simp only [Course.next, point, Digestion.next, IOWorker.goto]
      rw [IOWorker.queueAfter_nil] at queue
      rw [IOWorker.heapAfter_nil] at timers
      exact .privates [] rfl rfl queue timers
  | cons command rest =>
      simp only [IOWorker.step, point] at stepped
      cases stepped
      simp only [Course.next, point, Digestion.next, IOWorker.goto]
      rw [← IOWorker.queueAfter_accept] at queue
      rw [← IOWorker.heapAfter_accept] at timers
      exact .merging (.inr rfl) rfl queue timers

theorem drainCount {commands taken : List (InboundCommand Task)}
    (queue : worker.queueAfter commands = first.queueAfter taken)
    (timers : worker.heapAfter commands = first.heapAfter taken)
    (point : worker.point = .drainCount commands)
    (stepped : worker.step options self view choice = some outcome) :
    Proceeds options first outcome.worker
      (Course.next { taken := some taken } worker view outcome) := by
  simp only [IOWorker.step, point] at stepped
  cases stepped
  simp only [Course.next, point, Digestion.next, IOWorker.goto]
  exact .merging (.inr rfl) rfl queue timers

theorem privateNext {ran : List Task} {taken : List (InboundCommand Task)}
    (queue : ran ++ worker.privateQueue = first.queueAfter taken)
    (timers : worker.timers = first.heapAfter taken)
    (point : worker.point = .privateNext)
    (stepped : worker.step options self view choice = some outcome) :
    Proceeds options first outcome.worker
      (Course.next
        { started := ran.map (Prod.mk .privateTask)
          taken := some taken }
        worker view outcome) := by
  simp only [IOWorker.step, point] at stepped
  split at stepped <;> cases stepped <;>
    simp only [Course.next, point, Digestion.next, IOWorker.goto,
      IOWorker.start]
  · next spent =>
      rw [spent, List.append_nil] at queue
      rw [queue]
      exact .sampling rfl (by simp) timers
  · next task rest queued =>
      rw [queued, List.append_cons] at queue
      exact .privates (ran ++ [task]) rfl (by simp) queue timers

theorem timersClock {taken : List (InboundCommand Task)}
    (timers : worker.timers = first.heapAfter taken)
    (point : worker.point = .timersClock)
    (stepped : worker.step options self view choice = some outcome) :
    Proceeds options first outcome.worker
      (Course.next
        { started := (first.queueAfter taken).map (Prod.mk .privateTask)
          taken := some taken }
        worker view outcome) := by
  simp only [IOWorker.step, point] at stepped
  cases stepped
  simp only [Course.next, point, Digestion.next, IOWorker.goto]
  have pops : Pops TimerTask.deadline view.clock (fun _ _ => True)
      (first.heapAfter taken) [] worker.timers := by
    rw [timers]
    exact .start
  exact .expiring [] rfl (by simp) pops

theorem timersNext {taken : List (InboundCommand Task)} {now : Int}
    {ran : List (TimerTask Task)}
    (pops : Pops TimerTask.deadline now (fun _ _ => True)
      (first.heapAfter taken) ran worker.timers)
    (point : worker.point = .timersNext now)
    (stepped : worker.step options self view choice = some outcome) :
    Proceeds options first outcome.worker
      (Course.next
        { started := (first.queueAfter taken).map (Prod.mk .privateTask) ++
            ran.map (TimerTask.startedAt now)
          taken := some taken
          sampled := some now }
        worker view outcome) := by
  simp only [IOWorker.step, point] at stepped
  cases choice with
  | timer index =>
      simp only at stepped
      split at stepped
      · cases stepped
      · next timer found =>
          split at stepped <;> cases stepped
          next allowed =>
            have least := (List.min?_eq_some_iff.mp allowed.1).2
            simp only [Course.next, point, Digestion.next, IOWorker.start]
            refine .expiring (ran ++ [timer]) rfl ?_
              (pops.pop found trivial ?_ allowed.2)
            · simp [TimerTask.startedAt]
            · intro other member
              exact least _ (List.mem_map_of_mem member)
  | go | woken | victim =>
      simp only [Option.ite_none_right_eq_some] at stepped
      obtain ⟨finished, same⟩ := stepped
      cases same
      simp only [Course.next, point, Digestion.next, IOWorker.goto]
      refine .digesting ⟨Digestion.frugal_initial, rfl⟩ ?_ pops finished
      simp [Digestion.started]

theorem step (proceeds : Proceeds options first worker course)
    (unstopped : worker.stopRequested = false)
    (unexited : view.exitRequested = false)
    (within : worker.point ≠ .checkStop .loop)
    (stepped : worker.step options self view choice = some outcome) :
    Proceeds options first outcome.worker
      (course.next worker view outcome) := by
  cases proceeds with
  | swapping point same queue timers =>
      subst same
      obtain point | point := point
      · exact clearSleeping queue timers point stepped
      · exact drainSwap queue timers point stepped
  | merging point same queue timers =>
      subst same
      obtain point | point := point
      · exact drainCount queue timers point stepped
      · exact draining queue timers point stepped
  | privates ran point same queue timers =>
      subst same
      obtain point | point | point | point := IOPoint.inPrivates_cases point
      · exact privateNext queue timers point stepped
      all_goals
        simp only [IOWorker.step, point, unstopped, unexited] at stepped
        cases stepped
        simp only [Course.next, point, Digestion.next, IOWorker.goto]
        exact .privates ran rfl (by simp) queue timers
  | sampling point same timers =>
      subst same
      exact timersClock timers point stepped
  | expiring ran point same pops =>
      subst same
      obtain point | point | point | point := expiring_cases point
      · exact timersNext pops point stepped
      all_goals
        simp only [IOWorker.step, point, unstopped, unexited] at stepped
        cases stepped
        simp only [Course.next, point, Digestion.next, IOWorker.goto]
        exact .expiring ran rfl (by simp) pops
  | digesting digests same pops finished =>
      subst same
      have advances := digests.step unstopped unexited within stepped
      refine .digesting advances.toDigests ?_ pops finished
      have notSwapping : worker.point ≠ .drainSwap := by
        intro point
        exact (point ▸ digests).stands
      have notSampling : worker.point ≠ .timersClock := by
        intro point
        exact (point ▸ digests).stands
      rw [Course.next_elsewhere notSwapping notSampling]
      simp only [advances.logged, List.append_assoc]

theorem disturbed {after : IOWorker workers Task}
    (proceeds : Proceeds options first worker course)
    (disturbed : worker.Disturbed after) :
    Proceeds options first after course := by
  have queueAfter : after.queueAfter = worker.queueAfter := by
    funext commands
    simp only [IOWorker.queueAfter, disturbed.privateQueue]
  have heapAfter : after.heapAfter = worker.heapAfter := by
    funext commands
    simp only [IOWorker.heapAfter, disturbed.timers]
  cases proceeds with
  | swapping point same queue timers =>
      rw [← disturbed.point] at point
      rw [← disturbed.privateQueue] at queue
      rw [← disturbed.timers] at timers
      exact .swapping point same queue timers
  | merging point same queue timers =>
      rw [← disturbed.point] at point
      rw [← queueAfter] at queue
      rw [← heapAfter] at timers
      exact .merging point same queue timers
  | privates ran point same queue timers =>
      rw [← disturbed.point] at point
      rw [← disturbed.privateQueue] at queue
      rw [← disturbed.timers] at timers
      exact .privates ran point same queue timers
  | sampling point same timers =>
      rw [← disturbed.point] at point
      rw [← disturbed.timers] at timers
      exact .sampling point same timers
  | expiring ran point same pops =>
      rw [← disturbed.point] at point
      rw [← disturbed.timers] at pops
      exact .expiring ran point same pops
  | digesting digests same pops finished =>
      rw [← disturbed.point] at digests
      exact .digesting digests same pops finished

end Proceeds

end Courses

end RopHive.Schedule
