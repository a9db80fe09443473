import Mathlib.Logic.Relation
import RopHive.Schedule.EventLoop

namespace RopHive.Schedule

open PriorityQueue

/-! `IOWorker::computeNextTimeoutMs` and `EventLoop::computeTimeoutMs` as
functions of what they read, with arithmetic that has no value where a 64-bit
subtraction or a narrowing cast would change the number. -/

/-- The range of 64-bit time points and durations. -/
def InInt64 (value : Int) : Prop := -2 ^ 63 ≤ value ∧ value < 2 ^ 63

instance (value : Int) : Decidable (InInt64 value) := instDecidableAnd

def sub64 (left right : Int) : Option Int :=
  if InInt64 (left - right) then some (left - right) else none

def castInt (value : Int) : Option Int :=
  if -2 ^ 31 ≤ value ∧ value ≤ intMax then some value else none

/-- The end of both functions, from the comparison with the clock on. -/
def untilDeadlineMs (deadline now : Int) : Option Int :=
  if deadline ≤ now then some 0
  else
    (sub64 deadline now).bind fun delta =>
      let ms := delta.tdiv nanosPerMilli
      if intMax < ms then some intMax else castInt ms

section

variable {workers : Nat} {Outside Task : Type}

namespace IOWorker

variable (worker : IOWorker workers Task) (view : View workers Task)

/-- `timers_.top().deadline`. -/
def topDeadline (rule : EventLoop.TimerRule Task) : Option Int :=
  (worker.timers[rule.index worker.timers]?).map TimerTask.deadline

def stopping : Bool := worker.stopRequested || view.exitRequested

def hasImmediateWork : Bool :=
  worker.stopping view || worker.inbound.approxSize ≠ 0 ||
    !worker.privateQueue.isEmpty || worker.localDq.length ≠ 0 ||
    view.globalMicro.approxSize ≠ 0

def computeNextTimeoutMs (rule : EventLoop.TimerRule Task) :
    Option Int :=
  if worker.stopping view then some 0
  else if worker.hasImmediateWork view then some 0
  else
    match worker.topDeadline rule with
    | none => some (-1)
    | some deadline => untilDeadlineMs deadline view.clock

end IOWorker

def EventLoop.State.computeTimeoutMs (state : EventLoop.State Outside Task)
    (rule : EventLoop.TimerRule Task) : Option Int :=
  if state.exitRequested then some 0
  else if !state.tasks.isEmpty then some 0
  else
    match state.topDeadline rule with
    | none => some (-1)
    | some deadline => untilDeadlineMs deadline state.clock

/-- What a timeout in milliseconds has to be, where `earliest` is the earliest
deadline and `urgent` says that the wait must not block. -/
structure ExactTimeout (urgent : Prop) (earliest : Option Int)
    (now timeout : Int) : Prop where
  atOnce : (urgent ∨ ∃ deadline ∈ earliest, deadline ≤ now) → timeout = 0
  forever : timeout = -1 ↔
    ¬ (urgent ∨ ∃ deadline ∈ earliest, deadline ≤ now) ∧ earliest = none
  between : ¬ urgent → ∀ deadline ∈ earliest, now < deadline →
    0 ≤ timeout ∧ timeout ≤ intMax ∧
      now + timeout * nanosPerMilli ≤ deadline ∧
      (timeout = intMax ∨ deadline < now + (timeout + 1) * nanosPerMilli)

theorem untilDeadlineMs_eq {deadline now : Int} (started : 0 ≤ now)
    (inRange : InInt64 deadline) :
    untilDeadlineMs deadline now = some (timeoutUntil deadline now) := by
  unfold untilDeadlineMs timeoutUntil
  split
  · rfl
  · next later =>
      have noOverflow : InInt64 (deadline - now) := by
        obtain ⟨_, below⟩ := inRange
        constructor <;> omega
      have positive : 0 ≤ deadline - now := by omega
      have milliseconds : 0 ≤ (deadline - now) / nanosPerMilli :=
        Int.ediv_nonneg positive (by decide)
      rw [sub64, if_pos noOverflow, Option.bind_some]
      simp only [Int.tdiv_eq_ediv_of_nonneg positive]
      split
      · rfl
      · exact if_pos ⟨by omega, by omega⟩

theorem exactTimeout_timeoutUntil {deadline now : Int} :
    ExactTimeout False (some deadline) now (timeoutUntil deadline now) := by
  have positive := timeoutUntil_nonneg deadline now
  refine ⟨?_, ?_, ?_⟩
  · rintro (_ | ⟨_, ⟨⟩, due⟩)
    · contradiction
    · exact if_pos due
  · simp only [reduceCtorEq, and_false, iff_false]
    omega
  · rintro _ _ ⟨⟩ later
    exact ⟨positive, timeoutUntil_le_intMax .., timeoutUntil_le later,
      lt_timeoutUntil later⟩

theorem exactTimeout_ite {urgent : Bool} {earliest : Option Int} {now : Int}
    (started : 0 ≤ now) (inRange : ∀ deadline ∈ earliest, InInt64 deadline) :
    ∃ timeout, (if urgent then some 0
        else match earliest with
          | none => some (-1)
          | some deadline => untilDeadlineMs deadline now) = some timeout ∧
      ExactTimeout (urgent = true) earliest now timeout := by
  cases urgent with
  | true =>
      refine ⟨0, rfl, fun _ => rfl, by simp, ?_⟩
      intro calm
      exact absurd rfl calm
  | false =>
      cases earliest with
      | none => exact ⟨-1, rfl, by simp, by simp, by simp⟩
      | some deadline =>
          refine ⟨timeoutUntil deadline now,
            untilDeadlineMs_eq started (inRange deadline rfl), ?_⟩
          simpa using exactTimeout_timeoutUntil

def earliestDeadline (timers : List (TimerTask Task)) : Option Int :=
  (timers.map TimerTask.deadline).min?

theorem top_eq_earliestDeadline (rule : EventLoop.TimerRule Task)
    (timers : List (TimerTask Task)) :
    (timers[rule.index timers]?).map TimerTask.deadline =
      earliestDeadline timers := by
  unfold earliestDeadline
  by_cases inhabited : timers = []
  · subst inhabited
    rfl
  · obtain ⟨top, isTop, least⟩ := rule.least inhabited
    rw [isTop, eq_comm, Option.map_some, List.min?_eq_some_iff]
    constructor
    · exact List.mem_map_of_mem (List.mem_of_getElem? isTop)
    · simpa using least

theorem earliestDeadline_perm {left right : List (TimerTask Task)}
    (perm : left.Perm right) :
    earliestDeadline left = earliestDeadline right := by
  apply Option.ext
  intro deadline
  simp only [earliestDeadline, List.min?_eq_some_iff,
    (perm.map TimerTask.deadline).mem_iff]

theorem earliestDeadline_inInt64 {timers : List (TimerTask Task)}
    (inRange : ∀ timer ∈ timers, InInt64 timer.deadline) :
    ∀ deadline ∈ earliestDeadline timers, InInt64 deadline := by
  intro deadline isLeast
  obtain ⟨timer, member, rfl⟩ :=
    List.mem_map.mp (List.min?_eq_some_iff.mp isLeast).1
  exact inRange timer member

section Functions

variable {worker : IOWorker workers Task} {view : View workers Task}
  {state : EventLoop.State Outside Task}

theorem IOWorker.computeNextTimeoutMs_eq (rule : EventLoop.TimerRule Task) :
    worker.computeNextTimeoutMs view rule =
      if worker.hasImmediateWork view then some 0
      else match earliestDeadline worker.timers with
        | none => some (-1)
        | some deadline => untilDeadlineMs deadline view.clock := by
  unfold computeNextTimeoutMs topDeadline
  rw [top_eq_earliestDeadline]
  split
  · next stopped =>
      rw [if_pos]
      simp [hasImmediateWork, stopped]
  · rfl

theorem EventLoop.State.computeTimeoutMs_eq (rule : EventLoop.TimerRule Task) :
    state.computeTimeoutMs rule =
      if state.exitRequested || !state.tasks.isEmpty then some 0
      else match earliestDeadline state.timers with
        | none => some (-1)
        | some deadline => untilDeadlineMs deadline state.clock := by
  unfold computeTimeoutMs topDeadline
  rw [top_eq_earliestDeadline]
  cases state.exitRequested <;> rfl

/-- A worker and an event loop with the same to do. -/
structure Corresponds (worker : IOWorker workers Task)
    (view : View workers Task) (state : EventLoop.State Outside Task) :
    Prop where
  urgent : worker.hasImmediateWork view =
    (state.exitRequested || !state.tasks.isEmpty)
  timers : worker.timers.Perm state.timers
  clock : view.clock = state.clock

theorem timeouts_exact (workerRule loopRule : EventLoop.TimerRule Task)
    (workerClock : 0 ≤ view.clock) (loopClock : 0 ≤ state.clock)
    (workerTimers : ∀ timer ∈ worker.timers, InInt64 timer.deadline)
    (loopTimers : ∀ timer ∈ state.timers, InInt64 timer.deadline) :
    (∃ timeout, worker.computeNextTimeoutMs view workerRule = some timeout ∧
      ExactTimeout (worker.stopping view = true ∨
          worker.hasImmediateWork view = true)
        (earliestDeadline worker.timers) view.clock timeout) ∧
    (∃ timeout, state.computeTimeoutMs loopRule = some timeout ∧
      ExactTimeout (state.exitRequested = true ∨ state.tasks ≠ [])
        (earliestDeadline state.timers) state.clock timeout) ∧
    (Corresponds worker view state →
      worker.computeNextTimeoutMs view workerRule =
        state.computeTimeoutMs loopRule) := by
  refine ⟨?_, ?_, ?_⟩
  · rw [IOWorker.computeNextTimeoutMs_eq]
    have urgent : worker.stopping view = true ∨
        worker.hasImmediateWork view = true ↔
          worker.hasImmediateWork view = true := by
      apply or_iff_right_of_imp
      intro stopped
      simp [IOWorker.hasImmediateWork, stopped]
    rw [urgent]
    exact exactTimeout_ite workerClock (earliestDeadline_inInt64 workerTimers)
  · rw [EventLoop.State.computeTimeoutMs_eq]
    have urgent : state.exitRequested = true ∨ state.tasks ≠ [] ↔
        (state.exitRequested || !state.tasks.isEmpty) = true := by
      simp
    rw [urgent]
    exact exactTimeout_ite loopClock (earliestDeadline_inInt64 loopTimers)
  · rintro ⟨urgent, timers, clock⟩
    rw [IOWorker.computeNextTimeoutMs_eq, EventLoop.State.computeTimeoutMs_eq,
      urgent, earliestDeadline_perm timers, clock]

end Functions

section Refinement

variable (options : Options) (self : Fin workers) (view : View workers Task)

/-- The worker comes from one point to another while nothing else moves. -/
def IOWorker.Goes (worker : IOWorker workers Task) :
    IOPoint workers Task → IOPoint workers Task → Prop :=
  Relation.ReflTransGen fun before after =>
    ({ worker with point := before } : IOWorker workers Task).step options self
      view .go = some { worker := { worker with point := after }
                        globalMicro := view.globalMicro }

variable {options self view} {worker : IOWorker workers Task}

theorem IOWorker.goes_check (site : Site workers Task) :
    worker.Goes options self view (.checkStop site)
      (if worker.stopping view then site.onStop else site.onward) := by
  cases stop : worker.stopRequested with
  | true =>
      apply Relation.ReflTransGen.single
      simp [step, goto, stopping, stop]
  | false =>
      apply Relation.ReflTransGen.head (b := .checkExit site)
      · simp [step, goto, stop]
      · apply Relation.ReflTransGen.single
        simp [step, goto, stopping, stop]

theorem IOWorker.goes_reads (calm : worker.stopping view = false) :
    worker.Goes options self view .readInbound
      (if worker.hasImmediateWork view then .enterWait 0
       else if worker.timers = [] then block (-1) else .readClock) := by
  by_cases inbound : worker.inbound.approxSize ≠ 0
  · apply Relation.ReflTransGen.single
    simp [step, goto, hasImmediateWork, inbound]
  by_cases queued : worker.privateQueue ≠ []
  · apply Relation.ReflTransGen.single
    simp [step, goto, hasImmediateWork, inbound, queued]
  apply Relation.ReflTransGen.head (b := .readLocal)
  · simp [step, goto, inbound, queued]
  by_cases kept : worker.localDq.length ≠ 0
  · apply Relation.ReflTransGen.single
    simp [step, goto, hasImmediateWork, kept]
  apply Relation.ReflTransGen.head (b := .readGlobal)
  · simp [step, goto, kept]
  · apply Relation.ReflTransGen.single
    simp only [not_not] at inbound queued kept
    by_cases pooled : view.globalMicro.approxSize ≠ 0
    · simp [step, goto, hasImmediateWork, pooled]
    · simp [step, goto, hasImmediateWork, calm, inbound, queued, kept, pooled]

/-- The steps from the call of `computeNextTimeoutMs` on lead to the point that
belongs to its result. -/
theorem IOWorker.goes_computeNextTimeoutMs {timeout : Int}
    (rule : EventLoop.TimerRule Task) (started : 0 ≤ view.clock)
    (inRange : ∀ timer ∈ worker.timers, InInt64 timer.deadline)
    (computed : worker.computeNextTimeoutMs view rule = some timeout) :
    worker.Goes options self view (.checkStop .timeout) (block timeout) := by
  have checked : worker.Goes options self view _ _ := goes_check .timeout
  rw [computeNextTimeoutMs_eq] at computed
  cases stopped : worker.stopping view with
  | true =>
      simp only [hasImmediateWork, stopped, Bool.true_or, if_true,
        Option.some.injEq] at computed
      subst computed
      rwa [stopped] at checked
  | false =>
      have again : worker.Goes options self view _ _ := goes_check .work
      rw [stopped] at checked again
      refine (checked.trans again).trans ?_
      have read : worker.Goes options self view _ _ := goes_reads stopped
      cases immediate : worker.hasImmediateWork view with
      | true =>
          simp only [immediate, if_true, Option.some.injEq] at computed read
          subst computed
          exact read
      | false =>
          simp only [immediate, Bool.false_eq_true, if_false] at computed read
          cases earliest : earliestDeadline worker.timers with
          | none =>
              have empty : worker.timers = [] := by
                simpa [earliestDeadline] using earliest
              simp only [earliest, Option.some.injEq] at computed
              subst computed
              rwa [if_pos empty] at read
          | some deadline =>
              have inhabited : worker.timers ≠ [] := by
                intro empty
                simp [earliestDeadline, empty] at earliest
              rw [earliest] at computed
              rw [if_neg inhabited] at read
              refine read.tail ?_
              have range := earliestDeadline_inInt64 inRange deadline earliest
              obtain rfl := Option.some.inj
                ((untilDeadlineMs_eq started range).symm.trans computed)
              have least : ({ worker with
                  point := .readClock } : IOWorker workers Task).earliest =
                some deadline := earliest
              simp only [step, least]
              rfl

/-- What the loop of the model waits for is the result of the function. -/
theorem EventLoop.State.computeTimeoutMs_eq_timeoutMs
    {state : EventLoop.State Outside Task} (rule : EventLoop.TimerRule Task)
    (started : 0 ≤ state.clock)
    (inRange : ∀ timer ∈ state.timers, InInt64 timer.deadline) :
    state.computeTimeoutMs rule =
      some (if state.exitRequested then 0 else state.timeoutMs rule) := by
  unfold computeTimeoutMs timeoutMs
  cases state.exitRequested with
  | true => rfl
  | false =>
      cases queued : state.tasks with
      | cons => simp
      | nil =>
          cases top : state.topDeadline rule with
          | none => simp
          | some deadline =>
              have least : earliestDeadline state.timers = some deadline := by
                rw [← top_eq_earliestDeadline rule]
                exact top
              simpa using untilDeadlineMs_eq started
                (earliestDeadline_inInt64 inRange deadline least)

end Refinement

end

def patientWorker : IOWorker 1 Unit where
  timers := [⟨2 ^ 63 - 1, ()⟩]

def atOrigin : View 1 Unit where
  exitRequested := false
  clock := 0
  globalMicro := {}
  peerDq := fun _ => []

def patientLoop : EventLoop.State Unit Unit :=
  { EventLoop.initialState with
    timers := patientWorker.timers }

theorem timeouts_exact_lastTimePoint :
    (∃ timeout, patientWorker.computeNextTimeoutMs atOrigin (.first _) =
        some timeout ∧
      ExactTimeout (patientWorker.stopping atOrigin = true ∨
          patientWorker.hasImmediateWork atOrigin = true)
        (earliestDeadline patientWorker.timers) atOrigin.clock timeout) ∧
    (∃ timeout, patientLoop.computeTimeoutMs (.first _) = some timeout ∧
      ExactTimeout (patientLoop.exitRequested = true ∨ patientLoop.tasks ≠ [])
        (earliestDeadline patientLoop.timers) patientLoop.clock timeout) ∧
    patientWorker.computeNextTimeoutMs atOrigin (.first _) =
      patientLoop.computeTimeoutMs (.first _) := by
  have inRange : ∀ timer ∈ patientWorker.timers, InInt64 timer.deadline := by
    simp [patientWorker, InInt64]
  obtain ⟨worker, loop, agree⟩ :=
    @timeouts_exact 1 Unit Unit patientWorker atOrigin patientLoop (.first _)
      (.first _) (by decide) (by decide) inRange inRange
  exact ⟨worker, loop, agree ⟨by decide, .refl _, rfl⟩⟩

end RopHive.Schedule
