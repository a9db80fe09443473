import Mathlib.Data.Fintype.Basic
import Mathlib.Data.List.ReduceOption
import RopHive.Async.AsyncQueue

namespace RopHive.Async

open Transition

/-! What the pops of an `AsyncQueue` return, and who is resumed for it. -/

variable {T Executor Coroutine Thread : Type}

def pushed (log : List (Event T)) : List T :=
  log.filterMap fun
    | .pushed v => some v
    | .popped _ => none

def results (log : List (Event T)) : List (Option T) :=
  log.filterMap fun
    | .pushed _ => none
    | .popped result => some result

def taken (log : List (Event T)) : List T :=
  (results log).reduceOption

theorem pushed_append (first second : List (Event T)) :
    pushed (first ++ second) = pushed first ++ pushed second :=
  List.filterMap_append

theorem results_append (first second : List (Event T)) :
    results (first ++ second) = results first ++ results second :=
  List.filterMap_append

theorem taken_append (first second : List (Event T)) :
    taken (first ++ second) = taken first ++ taken second := by
  rw [taken, results_append]
  exact List.filterMap_append

section Sections

variable {queue after : AsyncQueue T Executor Coroutine}
  {wake : Wake Executor Coroutine}

/-- A locked section takes the waiter, with something there for it, or leaves
it alone. -/
inductive Served (before after : AsyncQueue T Executor Coroutine)
    (wake : Wake Executor Coroutine) : Prop
  | taken : after.waiter = none →
      wake = { exec := after.exec, waiter := before.waiter } →
      after.awaitReady = true → Served before after wake
  | passed : after.waiter = before.waiter → wake = {} →
      after.awaitReady = before.awaitReady → Served before after wake

theorem served_push (v : T) :
    Served queue (queue.push v).1 (queue.push v).2 := by
  unfold AsyncQueue.push
  split
  · exact .passed rfl rfl rfl
  · refine .taken rfl rfl ?_
    simp [AsyncQueue.awaitReady, AsyncQueue.release]

theorem served_close : Served queue queue.close.1 queue.close.2 :=
  .taken rfl rfl rfl

theorem served_bind (exec : Executor) :
    Served queue (queue.bind exec).1 (queue.bind exec).2 := by
  simp only [AsyncQueue.bind]
  split
  · next wakes =>
      exact .taken rfl rfl (Bool.and_eq_true_iff.mp wakes).2
  · exact .passed rfl rfl rfl

theorem closed_of_awaitReady (ready : queue.awaitReady = true)
    (empty : queue.q = []) : queue.closed = true := by
  simpa [AsyncQueue.awaitReady, empty] using ready

end Sections

namespace Shared

variable {shared after : Shared T Executor Coroutine Thread}

theorem served (shared : Shared T Executor Coroutine Thread)
    (request : Request T Executor) :
    Served shared.queue (shared.serve request).1
      (shared.serve request).2 := by
  cases request with
  | push v => exact served_push v
  | close => exact served_close
  | bind exec => exact served_bind exec

theorem q_serve (request : Request T Executor) :
    (shared.serve request).1.q =
      shared.queue.q ++ pushed (shared.admits request) := by
  cases request with
  | push v =>
      simp only [serve, admits, AsyncQueue.push]
      split
      · exact (List.append_nil _).symm
      · rfl
  | close => exact (List.append_nil _).symm
  | bind exec =>
      simp only [serve, admits, AsyncQueue.bind]
      split
      · exact (List.append_nil _).symm
      · exact (List.append_nil _).symm

theorem results_admits (request : Request T Executor) :
    results (shared.admits request) = [] := by
  cases request with
  | push v =>
      simp only [admits]
      split
      · rfl
      · rfl
  | close => rfl
  | bind exec => rfl

theorem serve_of_closed (closed : shared.queue.closed = true)
    (request : Request T Executor) :
    (shared.serve request).1.closed = true ∧ shared.admits request = [] := by
  cases request with
  | push v => simp [serve, admits, AsyncQueue.push, closed]
  | close => exact ⟨rfl, rfl⟩
  | bind exec =>
      simp only [serve, admits, AsyncQueue.bind]
      split
      · exact ⟨closed, trivial⟩
      · exact ⟨closed, trivial⟩

theorem exec_serve (bound : shared.queue.exec.isSome = true)
    (request : Request T Executor) :
    (shared.serve request).1.exec.isSome = true := by
  cases request with
  | push v =>
      simp only [serve, AsyncQueue.push]
      split
      · exact bound
      · exact bound
  | close => exact bound
  | bind exec =>
      simp only [serve, AsyncQueue.bind]
      split
      · rfl
      · rfl

end Shared

/-- Where the one handle is that somebody is to resume: in `waiter_`, with a
thread on its way to `wakeOne`, or with an executor.  `lost` is a handle that
was taken before there was an executor. -/
inductive Spot (Executor Coroutine Thread : Type) where
  | nowhere
  | waiting (h : Coroutine)
  | waking (thread : Thread) (exec : Executor) (h : Coroutine)
  | scheduled (exec : Executor) (h : Coroutine)
  | lost (h : Coroutine)

namespace Spot

def holder : Spot Executor Coroutine Thread → Option Coroutine
  | .nowhere => none
  | .waiting h | .waking _ _ h | .scheduled _ h | .lost h => some h

def waiter : Spot Executor Coroutine Thread → Option Coroutine
  | .waiting h => some h
  | _ => none

def handedBy [DecidableEq Thread] (thread : Thread) :
    Spot Executor Coroutine Thread → Option (Executor × Coroutine)
  | .waking own exec h => if own = thread then some (exec, h) else none
  | _ => none

def atExecutor : Spot Executor Coroutine Thread → List (Executor × Coroutine)
  | .scheduled exec h => [(exec, h)]
  | _ => []

/-- The coroutine has something to be resumed for. -/
def woken : Spot Executor Coroutine Thread → Bool
  | .waking .. | .scheduled .. => true
  | _ => false

end Spot

section Runs

variable {shared after : Shared T Executor Coroutine Thread}

/-- Pops come one after the other. -/
def OneConsumer (shared : Shared T Executor Coroutine Thread) :
    QueueLabel T Executor Coroutine Thread → Prop
  | .awaitReady _ => ∀ other, shared.phases other = .running
  | _ => True

/-- A coroutine pops where there is an executor and no other coroutine pops,
and no thread comes between its `await_ready` and its `await_suspend`. -/
def Orderly (shared : Shared T Executor Coroutine Thread) :
    QueueLabel T Executor Coroutine Thread → Prop
  | .awaitReady _ => (∀ other, shared.phases other = .running) ∧
      shared.queue.exec.isSome = true
  | .call _ _ => ∀ h, shared.phases h ≠ .suspending
  | _ => True

theorem oneConsumer_of_orderly
    {label : QueueLabel T Executor Coroutine Thread}
    (orderly : Orderly shared label) : OneConsumer shared label := by
  cases label with
  | awaitReady h => exact orderly.1
  | _ => trivial

def OnItsWay (shared : Shared T Executor Coroutine Thread) (h : Coroutine) :
    Prop :=
  (∃ thread exec, (shared.wakes thread).handed = some (exec, h)) ∨
    ∃ exec, (exec, h) ∈ shared.scheduled

/-- A coroutine sleeps only on an open queue in which there is nothing, and
then as its waiter. -/
structure Heeded (shared : Shared T Executor Coroutine Thread) : Prop where
  found : (∃ h, shared.phases h = .suspending) ∨
    shared.queue.waiter.isSome = true → shared.queue.awaitReady = false
  bound : ∀ h, shared.phases h ≠ .running → shared.queue.exec.isSome = true
  asleep : ∀ h, shared.phases h = .suspended →
    shared.queue.waiter = some h ∨ OnItsWay shared h

/-- Every value that is let in is returned by one pop, in the order of the
pushes; a pop returns without a value once the queue is closed and empty, and
so do all that follow. -/
structure Drained (queue : AsyncQueue T Executor Coroutine)
    (log : List (Event T)) : Prop where
  inOrder : pushed log = taken log ++ queue.q
  ended : ∃ count, results log =
    (taken log).map some ++ List.replicate count none ∧
      (0 < count → queue.closed = true ∧ queue.q = [])

structure Delivered (shared : Shared T Executor Coroutine Thread) : Prop
    extends Drained shared.queue shared.log where
  suspended : shared.misused = false

theorem drained_serve (drained : Drained shared.queue shared.log)
    (request : Request T Executor) :
    Drained (shared.serve request).1
      (shared.log ++ shared.admits request) := by
  have same : results (shared.log ++ shared.admits request) =
      results shared.log := by
    rw [results_append, Shared.results_admits, List.append_nil]
  have sameTaken : taken (shared.log ++ shared.admits request) =
      taken shared.log := by
    rw [taken, same, taken]
  constructor
  · rw [pushed_append, drained.inOrder, sameTaken, Shared.q_serve,
      List.append_assoc]
  · obtain ⟨count, shape, ended⟩ := drained.ended
    refine ⟨count, ?_, fun some => ?_⟩
    · rw [same, sameTaken]
      exact shape
    · obtain ⟨closed, empty⟩ := ended some
      obtain ⟨stays, nothing⟩ := Shared.serve_of_closed closed request
      refine ⟨stays, ?_⟩
      rw [Shared.q_serve, empty, nothing]
      rfl

theorem drained_awaitResume {queue : AsyncQueue T Executor Coroutine}
    {log : List (Event T)} (drained : Drained queue log)
    (ready : queue.awaitReady = true) :
    Drained queue.awaitResume.2
      (log ++ [Event.popped queue.awaitResume.1]) := by
  obtain ⟨count, shape, ended⟩ := drained.ended
  have inOrder := drained.inOrder
  cases q : queue.q with
  | nil =>
      have closed := closed_of_awaitReady ready q
      have nothing : queue.awaitResume = (none, queue) := by
        simp [AsyncQueue.awaitResume, q]
      rw [nothing]
      have same : taken (log ++ [Event.popped none]) = taken log := by
        rw [taken_append]
        exact List.append_nil _
      have more : results (log ++ [Event.popped none]) =
          results log ++ [none] := results_append _ _
      constructor
      · rw [pushed_append, same, inOrder]
        exact List.append_nil _
      · refine ⟨count + 1, ?_, fun _ => ⟨closed, q⟩⟩
        rw [more, shape, same, List.append_assoc, ← List.replicate_succ']
  | cons v rest =>
      have none : count = 0 := by
        by_contra more
        obtain ⟨-, empty⟩ := ended (Nat.pos_of_ne_zero more)
        rw [q] at empty
        cases empty
      have front : queue.awaitResume = (some v, { queue with q := rest }) := by
        simp [AsyncQueue.awaitResume, q]
      rw [front]
      have takes : taken (log ++ [Event.popped (some v)]) = taken log ++ [v] :=
        taken_append _ _
      have more : results (log ++ [Event.popped (some v)]) =
          results log ++ [some v] := results_append _ _
      constructor
      · rw [pushed_append, takes, inOrder, q]
        exact (List.append_nil _).trans (List.append_cons _ _ _)
      · refine ⟨0, ?_, nofun⟩
        rw [more, shape, takes, none]
        simp

theorem nowhere_of_holder {spot : Spot Executor Coroutine Thread}
    (nobody : spot.holder = none) : spot = .nowhere := by
  cases spot with
  | nowhere => rfl
  | _ => cases nobody

theorem waiting_of_waiter {spot : Spot Executor Coroutine Thread}
    {h : Coroutine} (waits : spot.waiter = some h) : spot = .waiting h := by
  cases spot with
  | waiting other =>
      cases waits
      rfl
  | _ => cases waits

variable [DecidableEq Thread]

structure Placed (spot : Spot Executor Coroutine Thread)
    (shared : Shared T Executor Coroutine Thread) : Prop where
  waiter : shared.queue.waiter = spot.waiter
  waking : ∀ thread, (shared.wakes thread).handed = spot.handedBy thread
  scheduled : shared.scheduled = spot.atExecutor
  suspended : ∀ h, shared.phases h = .suspended ↔ spot.holder = some h
  single : ∀ h other, shared.phases h ≠ .running →
    shared.phases other ≠ .running → h = other
  fed : spot.woken = true ∨ (∃ h, shared.phases h = .resuming) →
    shared.queue.awaitReady = true

theorem placed_initial :
    Placed .nowhere ({} : Shared T Executor Coroutine Thread) where
  waiter := rfl
  waking := fun _ => rfl
  scheduled := rfl
  suspended := fun _ => ⟨nofun, nofun⟩
  single := fun _ _ inside => absurd rfl inside
  fed := by
    rintro (woken | ⟨_, resuming⟩)
    · cases woken
    · cases resuming

theorem idle_wakes {spot : Spot Executor Coroutine Thread}
    {wakes : Thread → Wake Executor Coroutine}
    (waking : ∀ thread, (wakes thread).handed = spot.handedBy thread)
    {thread : Thread} (free : (wakes thread).handed = none)
    {wake : Wake Executor Coroutine} (idle : wake.handed = none)
    (other : Thread) :
    (Function.update wakes thread wake other).handed =
      spot.handedBy other := by
  by_cases same : other = thread
  · subst same
    rw [Function.update_self, idle, ← waking, free]
  · rw [Function.update_of_ne same]
    exact waking other

theorem taken_wakes {spot : Spot Executor Coroutine Thread}
    {wakes : Thread → Wake Executor Coroutine}
    (waking : ∀ thread, (wakes thread).handed = spot.handedBy thread)
    (nobody : ∀ thread, spot.handedBy thread = none) (thread : Thread)
    (exec : Executor) (h : Coroutine) (other : Thread) :
    (Function.update wakes thread ⟨some exec, some h⟩ other).handed =
      Spot.handedBy other (.waking thread exec h) := by
  by_cases same : other = thread
  · subst same
    rw [Function.update_self]
    exact (if_pos rfl).symm
  · rw [Function.update_of_ne same, waking, nobody]
    exact (if_neg (Ne.symm same)).symm

theorem freed_wakes {wakes : Thread → Wake Executor Coroutine}
    {own : Thread} {exec : Executor} {h : Coroutine}
    (waking : ∀ thread, (wakes thread).handed =
      Spot.handedBy thread (.waking own exec h)) (other : Thread) :
    (Function.update wakes own {} other).handed = none := by
  by_cases same : other = own
  · subst same
    rw [Function.update_self]
    rfl
  · rw [Function.update_of_ne same, waking]
    exact if_neg (Ne.symm same)

theorem placed_call {spot : Spot Executor Coroutine Thread}
    (placed : Placed spot shared) {thread : Thread}
    (free : (shared.wakes thread).handed = none)
    (request : Request T Executor) :
    ∃ spot, Placed spot { shared with
      queue := (shared.serve request).1
      wakes := Function.update shared.wakes thread (shared.serve request).2
      log := shared.log ++ shared.admits request } := by
  cases shared.served request with
  | passed waiter wake ready =>
      refine ⟨spot, waiter.trans placed.waiter, ?_, placed.scheduled,
        placed.suspended, placed.single, ?_⟩
      · rw [wake]
        exact idle_wakes placed.waking free rfl
      · intro woken
        exact ready.trans (placed.fed woken)
  | taken gone wake ready =>
      rw [placed.waiter] at wake
      have fed : ∀ {woken : Prop}, woken →
          (shared.serve request).1.awaitReady = true := fun _ => ready
      cases waits : spot.waiter with
      | none =>
          refine ⟨spot, gone.trans waits.symm, ?_, placed.scheduled,
            placed.suspended, placed.single, fed⟩
          rw [wake, waits]
          apply idle_wakes placed.waking free
          cases (shared.serve request).1.exec with
          | _ => rfl
      | some h =>
          obtain rfl := waiting_of_waiter waits
          rw [waits] at wake
          cases bound : (shared.serve request).1.exec with
          | some exec =>
              refine ⟨.waking thread exec h, gone, ?_, placed.scheduled,
                placed.suspended, placed.single, fed⟩
              rw [wake, bound]
              exact taken_wakes placed.waking (fun _ => rfl) thread exec h
          | none =>
              refine ⟨.lost h, gone, ?_, placed.scheduled, placed.suspended,
                placed.single, fed⟩
              rw [wake, bound]
              exact idle_wakes placed.waking free rfl

theorem Placed.nowhere {spot : Spot Executor Coroutine Thread}
    (placed : Placed spot shared) {h : Coroutine}
    (inside : shared.phases h ≠ .running)
    (awake : shared.phases h ≠ .suspended) : spot = .nowhere := by
  apply nowhere_of_holder
  cases held : spot.holder with
  | none => rfl
  | some other =>
      have asleep := (placed.suspended other).mpr held
      have same := placed.single h other inside fun runs =>
        Phase.noConfusion (asleep.symm.trans runs)
      exact absurd (same ▸ asleep) awake

theorem Placed.alone {spot : Spot Executor Coroutine Thread}
    (placed : Placed spot shared) {h : Coroutine}
    (inside : shared.phases h ≠ .running) (other : Coroutine)
    (alsoInside : shared.phases other ≠ .running) : other = h :=
  placed.single other h alsoInside inside

theorem placed_wakeOne {spot : Spot Executor Coroutine Thread}
    (placed : Placed spot shared) {thread : Thread} {exec : Executor}
    {h : Coroutine}
    (woken : (shared.wakes thread).handed = some (exec, h)) :
    Placed (.scheduled exec h) { shared with
      wakes := Function.update shared.wakes thread {}
      scheduled := shared.scheduled ++ [(exec, h)] } := by
  have here := (placed.waking thread).symm.trans woken
  cases spot with
  | waking own first second =>
      obtain ⟨rfl, same⟩ := Option.ite_none_right_eq_some.mp here
      cases same
      refine ⟨placed.waiter, freed_wakes placed.waking, ?_, placed.suspended,
        placed.single, fun _ => placed.fed (.inl rfl)⟩
      rw [placed.scheduled]
      rfl
  | _ => cases here

theorem onItsWay_call {thread : Thread} {request : Request T Executor}
    (free : (shared.wakes thread).handed = none) {h : Coroutine}
    (onItsWay : OnItsWay shared h) :
    OnItsWay { shared with
      queue := (shared.serve request).1
      wakes := Function.update shared.wakes thread (shared.serve request).2
      log := shared.log ++ shared.admits request } h := by
  refine onItsWay.imp_left ?_
  rintro ⟨other, exec, woken⟩
  refine ⟨other, exec, ?_⟩
  have different : other ≠ thread := by
    rintro rfl
    exact Option.noConfusion rfl (heq_of_eq (free.symm.trans woken))
  exact (congrArg Wake.handed
    (Function.update_of_ne different _ _)).trans woken

theorem heeded_call (heeded : Heeded shared) {thread : Thread}
    (free : (shared.wakes thread).handed = none)
    (request : Request T Executor)
    (between : ∀ h, shared.phases h ≠ .suspending) :
    Heeded { shared with
      queue := (shared.serve request).1
      wakes := Function.update shared.wakes thread (shared.serve request).2
      log := shared.log ++ shared.admits request } := by
  have bound := fun h inside =>
    Shared.exec_serve (heeded.bound h inside) request
  cases shared.served request with
  | passed waiter wake ready =>
      refine ⟨?_, bound, ?_⟩
      · rintro (⟨h, found⟩ | waits)
        · exact absurd found (between h)
        · rw [waiter] at waits
          exact ready.trans (heeded.found (.inr waits))
      · intro h sleeps
        exact (heeded.asleep h sleeps).imp waiter.trans (onItsWay_call free)
  | taken gone wake ready =>
      refine ⟨?_, bound, ?_⟩
      · rintro (⟨h, found⟩ | waits)
        · exact absurd found (between h)
        · rw [gone] at waits
          cases waits
      · intro h sleeps
        refine .inr ((heeded.asleep h sleeps).elim ?_ (onItsWay_call free))
        intro waits
        obtain ⟨exec, found⟩ := Option.isSome_iff_exists.mp
          (bound h fun runs => Phase.noConfusion (sleeps.symm.trans runs))
        refine .inl ⟨thread, exec, ?_⟩
        refine (congrArg Wake.handed (Function.update_self thread
          (shared.serve request).2 shared.wakes)).trans ?_
        rw [wake, found, waits]
        rfl

variable [DecidableEq Coroutine]

section Phases

variable {phases : Coroutine → Phase} {h : Coroutine} {phase : Phase}

theorem single_update (alone : ∀ other, phases other ≠ .running → other = h)
    (first second : Coroutine)
    (one : Function.update phases h phase first ≠ .running)
    (two : Function.update phases h phase second ≠ .running) :
    first = second := by
  have own : ∀ other, Function.update phases h phase other ≠ .running →
      other = h := by
    intro other inside
    by_contra different
    rw [Function.update_of_ne different] at inside
    exact different (alone other inside)
  exact (own first one).trans (own second two).symm

theorem update_eq_iff (alone : ∀ other, phases other ≠ .running → other = h)
    {inside : Phase} (isInside : inside ≠ .running) (other : Coroutine) :
    Function.update phases h phase other = inside ↔
      phase = inside ∧ h = other := by
  by_cases same : other = h
  · subst same
    simp
  · rw [Function.update_of_ne same]
    constructor
    · intro found
      exact absurd (alone other (found ▸ isInside)) same
    · intro both
      exact absurd both.2.symm same

end Phases

theorem Placed.advance {spot : Spot Executor Coroutine Thread}
    (placed : Placed spot shared) {h : Coroutine} {phase : Phase}
    {queue : AsyncQueue T Executor Coroutine} {log : List (Event T)}
    (nowhere : spot = .nowhere)
    (alone : ∀ other, shared.phases other ≠ .running → other = h)
    (waiter : queue.waiter = if phase = .suspended then some h else none)
    (fed : phase = .resuming → queue.awaitReady = true) :
    ∃ spot, Placed spot ({ shared with
      queue
      log }.setPhase h phase) := by
  subst nowhere
  refine ⟨if phase = .suspended then .waiting h else .nowhere, ?_, ?_, ?_, ?_,
    single_update alone, ?_⟩
  · rw [Shared.setPhase, waiter]
    split
    · rfl
    · rfl
  · intro thread
    rw [Shared.setPhase, placed.waking]
    split
    · rfl
    · rfl
  · rw [Shared.setPhase, placed.scheduled]
    split
    · rfl
    · rfl
  · intro other
    rw [Shared.setPhase, update_eq_iff alone (by decide)]
    split
    · next asleep => simp [asleep, Spot.holder]
    · next awake => simp [awake, Spot.holder]
  · intro woken
    apply fed
    cases woken with
    | inl somewhere =>
        split at somewhere
        · cases somewhere
        · cases somewhere
    | inr resuming =>
        obtain ⟨other, goesOn⟩ := resuming
        exact ((update_eq_iff alone (by decide) other).mp goesOn).1

variable [DecidableEq Executor]

theorem placed_resume {spot : Spot Executor Coroutine Thread}
    (placed : Placed spot shared) {exec : Executor} {h : Coroutine}
    (member : (exec, h) ∈ shared.scheduled) :
    shared.phases h = .suspended ∧
      ∃ spot, Placed spot ({ shared with
        scheduled := shared.scheduled.erase (exec, h) }.setPhase h
          .resuming) := by
  rw [placed.scheduled] at member
  cases spot with
  | scheduled own other =>
      cases List.mem_singleton.mp member
      have asleep := (placed.suspended h).mpr rfl
      have inside : shared.phases h ≠ .running := fun runs =>
        Phase.noConfusion (asleep.symm.trans runs)
      have ready := placed.fed (.inl rfl)
      have alone := placed.alone inside
      refine ⟨asleep, .nowhere, placed.waiter, placed.waking, ?_, ?_,
        single_update alone, fun _ => ready⟩
      · have taken : shared.scheduled.erase (exec, h) = [] := by
          simp [placed.scheduled, Spot.atExecutor]
        exact taken
      · intro other
        rw [Shared.setPhase, update_eq_iff alone (by decide)]
        simp [Spot.holder]
  | _ => cases member

theorem placed_step {label : QueueLabel T Executor Coroutine Thread}
    {spot : Spot Executor Coroutine Thread} (placed : Placed spot shared)
    (guarded : OneConsumer shared label)
    (stepped : shared.step label = some after) :
    ∃ spot, Placed spot after := by
  cases Shared.moves_of_step stepped with
  | called free => exact placed_call placed free _
  | woke woken => exact ⟨_, placed_wakeOne placed woken⟩
  | @asked h runs =>
      have nowhere : spot = .nowhere := by
        apply nowhere_of_holder
        cases held : spot.holder with
        | none => rfl
        | some other =>
            have asleep := (placed.suspended other).mpr held
            exact Phase.noConfusion (asleep.symm.trans (guarded other))
      have waiter := placed.waiter
      rw [nowhere] at waiter
      refine placed.advance nowhere ?_ ?_ ?_
      · exact fun other inside => absurd (guarded other) inside
      · rw [waiter]
        cases shared.queue.awaitReady with
        | _ => rfl
      · intro resuming
        split at resuming
        · next ready => exact ready
        · cases resuming
  | @slept h found =>
      have inside : shared.phases h ≠ .running := fun runs =>
        Phase.noConfusion (found.symm.trans runs)
      have nowhere := placed.nowhere inside fun asleep =>
        Phase.noConfusion (found.symm.trans asleep)
      exact placed.advance nowhere (placed.alone inside) rfl nofun
  | @took h goesOn =>
      have inside : shared.phases h ≠ .running := fun runs =>
        Phase.noConfusion (goesOn.symm.trans runs)
      have nowhere := placed.nowhere inside fun asleep =>
        Phase.noConfusion (goesOn.symm.trans asleep)
      have waiter := placed.waiter
      rw [nowhere] at waiter
      refine placed.advance nowhere (placed.alone inside) ?_ nofun
      unfold AsyncQueue.awaitResume
      split
      · exact waiter
      · exact waiter
  | resumed member =>
      obtain ⟨asleep, placed⟩ := placed_resume placed member
      unfold Shared.resumed
      rw [if_pos asleep]
      exact placed

theorem delivered_step {label : QueueLabel T Executor Coroutine Thread}
    {spot : Spot Executor Coroutine Thread} (placed : Placed spot shared)
    (delivered : Delivered shared)
    (stepped : shared.step label = some after) : Delivered after := by
  cases Shared.moves_of_step stepped with
  | called free =>
      exact ⟨drained_serve delivered.toDrained _, delivered.suspended⟩
  | took goesOn =>
      have ready := placed.fed (.inr ⟨_, goesOn⟩)
      exact ⟨drained_awaitResume delivered.toDrained ready,
        delivered.suspended⟩
  | resumed member =>
      have asleep := (placed_resume placed member).1
      unfold Shared.resumed
      rw [if_pos asleep]
      exact ⟨delivered.toDrained, delivered.suspended⟩
  | slept found =>
      exact ⟨⟨delivered.inOrder, delivered.ended⟩, delivered.suspended⟩
  | _ => exact ⟨delivered.toDrained, delivered.suspended⟩

/-- In every interleaving of any threads that push, close and bind with
coroutines that pop one after the other. -/
theorem pops_inOrder
    (reached : Shared.system.ReachableUnder OneConsumer shared) :
    Delivered shared := by
  have both : (∃ spot, Placed spot shared) ∧ Delivered shared := by
    refine reached.invariant
      (fun shared => (∃ spot, Placed spot shared) ∧ Delivered shared) ?_ ?_
    · rintro shared rfl
      exact ⟨⟨.nowhere, placed_initial⟩, ⟨rfl, 0, rfl, nofun⟩, rfl⟩
    · rintro shared label after ⟨⟨spot, placed⟩, delivered⟩ guarded stepped
      exact ⟨placed_step placed guarded stepped,
        delivered_step placed delivered stepped⟩
  exact both.2

theorem heeded_step {label : QueueLabel T Executor Coroutine Thread}
    {spot : Spot Executor Coroutine Thread} (placed : Placed spot shared)
    (heeded : Heeded shared) (orderly : Orderly shared label)
    (stepped : shared.step label = some after) : Heeded after := by
  cases Shared.moves_of_step stepped with
  | called free => exact heeded_call heeded free _ orderly
  | @woke thread exec h woken =>
      refine ⟨heeded.found, heeded.bound, fun other sleeps => ?_⟩
      refine (heeded.asleep other sleeps).imp_right ?_
      rintro (⟨second, given, handed⟩ | ⟨given, member⟩)
      · by_cases same : second = thread
        · subst same
          cases woken.symm.trans handed
          exact .inr ⟨exec, List.mem_append_right _ List.mem_cons_self⟩
        · refine .inl ⟨second, given, ?_⟩
          exact (congrArg Wake.handed
            (Function.update_of_ne same _ _)).trans handed
      · exact .inr ⟨given, List.mem_append_left _ member⟩
  | @asked h runs =>
      have alone : ∀ other, shared.phases other ≠ .running → other = h :=
        fun other inside => absurd (orderly.1 other) inside
      refine ⟨?_, fun _ _ => orderly.2, fun other sleeps => ?_⟩
      · rintro (⟨other, finds⟩ | waits)
        · have missed := ((update_eq_iff alone (by decide) other).mp finds).1
          split at missed
          · cases missed
          · next nothing => exact Bool.eq_false_iff.mpr nothing
        · exact heeded.found (.inr waits)
      · have sleeping := ((update_eq_iff alone (by decide) other).mp sleeps).1
        split at sleeping
        · cases sleeping
        · cases sleeping
  | @slept h found =>
      have inside : shared.phases h ≠ .running := fun runs =>
        Phase.noConfusion (found.symm.trans runs)
      refine ⟨fun _ => heeded.found (.inl ⟨h, found⟩),
        fun _ _ => heeded.bound h inside, fun other sleeps => ?_⟩
      obtain ⟨-, rfl⟩ :=
        (update_eq_iff (placed.alone inside) (by decide) other).mp sleeps
      exact .inl rfl
  | @took h goesOn =>
      have inside : shared.phases h ≠ .running := fun runs =>
        Phase.noConfusion (goesOn.symm.trans runs)
      have leaves : ∀ {phase : Phase}, phase ≠ .running → ∀ other,
          Function.update shared.phases h .running other ≠ phase := by
        intro phase stays other found
        exact stays.symm
          ((update_eq_iff (placed.alone inside) stays other).mp found).1
      have waiter := placed.waiter
      rw [placed.nowhere inside fun asleep =>
        Phase.noConfusion (goesOn.symm.trans asleep)] at waiter
      refine ⟨?_, ?_, ?_⟩
      · rintro (⟨other, finds⟩ | waits)
        · exact absurd finds (leaves (by decide) other)
        · have kept : shared.queue.awaitResume.2.waiter =
              shared.queue.waiter := by
            unfold AsyncQueue.awaitResume
            split
            · rfl
            · rfl
          have none : shared.queue.awaitResume.2.waiter = none :=
            kept.trans waiter
          exact Bool.noConfusion
            ((congrArg Option.isSome none).symm.trans waits)
      · intro other stays
        exact absurd rfl (leaves stays other)
      · intro other sleeps
        exact absurd sleeps (leaves (by decide) other)
  | @resumed exec h member =>
      have asleep := (placed_resume placed member).1
      have inside : shared.phases h ≠ .running := fun runs =>
        Phase.noConfusion (asleep.symm.trans runs)
      have alone := placed.alone inside
      unfold Shared.resumed
      rw [if_pos asleep]
      refine ⟨?_, fun _ _ => heeded.bound h inside, fun other sleeps => ?_⟩
      · rintro (⟨other, finds⟩ | waits)
        · cases ((update_eq_iff alone (by decide) other).mp finds).1
        · exact heeded.found (.inr waits)
      · cases ((update_eq_iff alone (by decide) other).mp sleeps).1

/-- A pop that waits is resumed for what there is, where no push, `close` or
`bind` comes between its test of the queue and its going to sleep. -/
theorem pops_heeded
    (reached : Shared.system.ReachableUnder Orderly shared)
    {h : Coroutine} (sleeps : shared.phases h = .suspended) :
    OnItsWay shared h ∨ shared.queue.waiter = some h ∧
      shared.queue.q = [] ∧ shared.queue.closed = false := by
  have both : (∃ spot, Placed spot shared) ∧ Heeded shared := by
    refine reached.invariant
      (fun shared => (∃ spot, Placed spot shared) ∧ Heeded shared) ?_ ?_
    · rintro shared rfl
      refine ⟨⟨.nowhere, placed_initial⟩, ?_, fun _ inside => ?_, nofun⟩
      · rintro (⟨_, found⟩ | waits)
        · cases found
        · cases waits
      · exact absurd rfl inside
    · rintro shared label after ⟨⟨spot, placed⟩, heeded⟩ orderly stepped
      exact ⟨placed_step placed (oneConsumer_of_orderly orderly) stepped,
        heeded_step placed heeded orderly stepped⟩
  refine (both.2.asleep h sleeps).symm.imp_right fun waits => ⟨waits, ?_⟩
  have nothing := both.2.found (.inr (congrArg Option.isSome waits))
  simpa [AsyncQueue.awaitReady, and_comm] using nothing

section Decidable

variable [Fintype Coroutine] {label : QueueLabel T Executor Coroutine Thread}

instance decidableOneConsumer : Decidable (OneConsumer shared label) := by
  unfold OneConsumer
  split <;> infer_instance

instance decidableOrderly : Decidable (Orderly shared label) := by
  unfold Orderly
  split <;> infer_instance

end Decidable

end Runs

section Samples

abbrev SampleShared := Shared Nat Unit Unit Bool

abbrev SampleLabel := QueueLabel Nat Unit Unit Bool

def sleeping : List SampleLabel :=
  [.call true (.bind ()), .awaitReady (), .awaitSuspend ()]

def pushedTo : List SampleLabel :=
  sleeping ++ [QueueLabel.call true (.push 7)]

def poppedAndClosed : List SampleLabel :=
  pushedTo ++ [QueueLabel.call false .close, .wakeOne true, .resume () (),
    .awaitResume (), .awaitReady (), .awaitResume ()]

theorem pops_inOrder_closed :
    ∃ shared : SampleShared, results shared.log = [some 7, none] ∧
      Delivered shared := by
  obtain ⟨shared, run, popped⟩ : ∃ after,
      Shared.system.replay ({} : SampleShared) poppedAndClosed = some after ∧
      results after.log = [some 7, none] := ⟨_, rfl, rfl⟩
  have guarded : Shared.system.Follows OneConsumer ({} : SampleShared)
      poppedAndClosed := by
    decide +kernel
  exact ⟨shared, popped, pops_inOrder
    (System.ReachableUnder.replay _ (.start rfl) guarded run)⟩

theorem pops_heeded_pushed :
    ∃ shared : SampleShared, shared.queue.q = [7] ∧
      (OnItsWay shared () ∨ shared.queue.waiter = some () ∧
        shared.queue.q = [] ∧ shared.queue.closed = false) := by
  obtain ⟨shared, run, q, sleeps⟩ : ∃ after,
      Shared.system.replay ({} : SampleShared) pushedTo = some after ∧
      after.queue.q = [7] ∧ after.phases () = .suspended :=
    ⟨_, rfl, rfl, rfl⟩
  have orderly : Shared.system.Follows Orderly ({} : SampleShared)
      pushedTo := by
    decide +kernel
  exact ⟨shared, q, pops_heeded
    (System.ReachableUnder.replay _ (.start rfl) orderly run) sleeps⟩

/-- A push between the test and the going to sleep wakes nobody. -/
theorem push_missed :
    ∃ shared : SampleShared, Shared.system.ReachableUnder OneConsumer shared ∧
      shared.phases () = .suspended ∧ shared.queue.q = [7] ∧
      ¬ OnItsWay shared () := by
  obtain ⟨shared, run, sleeps, q, wakes, scheduled⟩ : ∃ after,
      Shared.system.replay ({} : SampleShared)
        [.call true (.bind ()), .awaitReady (), .call true (.push 7),
          .awaitSuspend ()] = some after ∧
      after.phases () = .suspended ∧ after.queue.q = [7] ∧
      (∀ thread, (after.wakes thread).handed = none) ∧
      after.scheduled = [] := ⟨_, rfl, rfl, rfl, by decide, rfl⟩
  refine ⟨shared, System.ReachableUnder.replay _ (.start rfl) ?_ run, sleeps,
    q, ?_⟩
  · decide +kernel
  · rintro (⟨thread, exec, handed⟩ | ⟨exec, member⟩)
    · cases (wakes thread).symm.trans handed
    · rw [scheduled] at member
      cases member

end Samples

end RopHive.Async
