import RopHive.Schedule.EventCore
import RopHive.Transition.EdgeTriggered

namespace RopHive.Schedule

open Transition

inductive KqueueFilter where
  | read
  | write
  deriving DecidableEq, Repr

/-- A returned event with its flags EV_ERROR and EV_EOF. -/
structure KqueueRawEvent where
  filter : KqueueFilter
  error : Bool := false
  eof : Bool := false
  data : Nat := 0
  deriving DecidableEq, Repr

/-- One descriptor in the event loop of its worker: the kernel's side of
EVFILT_READ, registered with EV_CLEAR, the two sources, and the read event of
the current batch until it is dispatched. -/
structure KqueueLoop (Item : Type) where
  channel : Channel Item := {}
  core : EventCore KqueueFilter := {}
  ready : Option KqueueRawEvent := none
  deriving DecidableEq

/-- `arm` and `disarm` of the sources, as they bear on EVFILT_READ. -/
def armOrDisarm {Item : Type} (channel : Channel Item) :
    PendingOp KqueueFilter → Channel Item
  | .add .read => channel.register
  | .remove .read => channel.unregister
  | .add .write | .remove .write => channel

namespace KqueueLoop

variable {Item : Type}

def applyPendingChanges (loop : KqueueLoop Item) : KqueueLoop Item :=
  if loop.core.inDispatch then loop
  else { loop with
    core := loop.core.applyPendingChanges
    channel := loop.core.pendingOps.foldl armOrDisarm loop.channel }

def register (loop : KqueueLoop Item) (op : PendingOp KqueueFilter) :
    KqueueLoop Item :=
  { loop with
    core := { loop.core with
      pendingOps := loop.core.pendingOps ++ [op] } }.applyPendingChanges

/-- `runOnce` up to the dispatching of the events of the wait, which are at
most `max_events_`, so that an active registration may be left out. -/
def wait (loop : KqueueLoop Item) :
    Option KqueueRawEvent → Option (KqueueLoop Item)
  | none => some { loop with core := { loop.core with inDispatch := true } }
  | some event =>
      if loop.channel.active ∧ loop.channel.ready ∧ event.filter = .read ∧
          event.eof = loop.channel.ended then
        some {
          channel := loop.channel.collect
          core := { loop.core with inDispatch := true }
          ready := some event }
      else none

def dispatch (loop : KqueueLoop Item) (event : KqueueRawEvent) :
    Option (KqueueLoop Item) :=
  match event.filter with
  | .read =>
      if loop.ready = some event then some { loop with ready := none }
      else none
  | .write =>
      if loop.core.inDispatch ∧ .write ∈ loop.core.sources then some loop
      else none

def finishDispatch (loop : KqueueLoop Item) : Option (KqueueLoop Item) :=
  if loop.core.inDispatch ∧ loop.ready = none then
    some { loop with
      core := { loop.core with inDispatch := false } }.applyPendingChanges
  else none

theorem upcoming_applyPendingChanges (loop : KqueueLoop Item) :
    loop.applyPendingChanges.core.upcoming = loop.core.upcoming := by
  unfold applyPendingChanges
  split
  · rfl
  · exact EventCore.upcoming_applyPendingChanges loop.core

theorem upcoming_register (loop : KqueueLoop Item)
    (op : PendingOp KqueueFilter) :
    (loop.register op).core.upcoming =
      EventCore.applyOp loop.core.upcoming op := by
  rw [register, upcoming_applyPendingChanges]
  simp [EventCore.upcoming]

theorem upcoming_wait {loop after : KqueueLoop Item}
    {returned : Option KqueueRawEvent}
    (waited : loop.wait returned = some after) :
    after.core.upcoming = loop.core.upcoming := by
  cases returned with
  | none =>
      cases waited
      rfl
  | some event =>
      simp only [wait, Option.ite_none_right_eq_some,
        Option.some.injEq] at waited
      obtain ⟨-, rfl⟩ := waited
      rfl

theorem upcoming_dispatch {loop after : KqueueLoop Item}
    {event : KqueueRawEvent} (dispatched : loop.dispatch event = some after) :
    after.core.upcoming = loop.core.upcoming := by
  unfold dispatch at dispatched
  split at dispatched
  · obtain ⟨-, dispatched⟩ := Option.ite_none_right_eq_some.mp dispatched
    cases dispatched
    rfl
  · obtain ⟨-, dispatched⟩ := Option.ite_none_right_eq_some.mp dispatched
    cases dispatched
    rfl

theorem upcoming_finishDispatch {loop after : KqueueLoop Item}
    (finished : loop.finishDispatch = some after) :
    after.core.upcoming = loop.core.upcoming := by
  simp only [finishDispatch, Option.ite_none_right_eq_some,
    Option.some.injEq] at finished
  obtain ⟨-, rfl⟩ := finished
  rw [upcoming_applyPendingChanges]
  rfl

/-- The read source is armed as `sources_` has it, and what is queued for it
gets attention or will be reported. -/
structure Watched (attended : Prop) (loop : KqueueLoop Item) : Prop where
  armed : loop.channel.registered ↔ .read ∈ loop.core.sources
  noted : loop.channel.registered →
    attended ∨ loop.channel.Covered ∨ loop.ready.isSome

variable {attended : Prop} {loop : KqueueLoop Item}

theorem Watched.imp {other : Prop} (watched : loop.Watched attended)
    (weaker : attended → other) : loop.Watched other :=
  ⟨watched.armed, fun registered =>
    (watched.noted registered).imp weaker id⟩

theorem armed_armOrDisarm {channel : Channel Item}
    {sources : List KqueueFilter}
    (armed : channel.registered ↔ .read ∈ sources)
    (op : PendingOp KqueueFilter) :
    (armOrDisarm channel op).registered ↔
      .read ∈ EventCore.applyOp sources op := by
  cases op with
  | add filter => cases filter <;> simp [armOrDisarm, armed]
  | remove filter => cases filter <;> simp [armOrDisarm, armed]

theorem noted_armOrDisarm {channel : Channel Item}
    (noted : channel.registered → attended ∨ channel.Covered)
    (op : PendingOp KqueueFilter) :
    (armOrDisarm channel op).registered →
      attended ∨ (armOrDisarm channel op).Covered := by
  cases op with
  | add filter =>
      cases filter with
      | write => exact noted
      | read =>
          intro _
          by_cases isAttended : attended
          · exact .inl isAttended
          · right
            apply Channel.Covered.register
            intro registered
            exact (noted registered).resolve_left isAttended
  | remove filter =>
      cases filter with
      | write => exact noted
      | read => simp [armOrDisarm]

theorem Watched.applyPendingChanges (watched : loop.Watched attended) :
    loop.applyPendingChanges.Watched attended := by
  unfold KqueueLoop.applyPendingChanges
  split
  · exact watched
  · next outside =>
      have applied : ∀ (ops : List (PendingOp KqueueFilter))
          (channel : Channel Item) (sources : List KqueueFilter),
          (channel.registered ↔ .read ∈ sources) →
          (channel.registered →
            (attended ∨ loop.ready.isSome) ∨ channel.Covered) →
          ((ops.foldl armOrDisarm channel).registered ↔
            .read ∈ ops.foldl EventCore.applyOp sources) ∧
          ((ops.foldl armOrDisarm channel).registered →
            (attended ∨ loop.ready.isSome) ∨
              (ops.foldl armOrDisarm channel).Covered) := by
        intro ops
        induction ops with
        | nil => exact fun _ _ armed noted => ⟨armed, noted⟩
        | cons op ops ih =>
            intro channel sources armed noted
            exact ih _ _ (armed_armOrDisarm armed op)
              (noted_armOrDisarm noted op)
      obtain ⟨armed, noted⟩ := applied loop.core.pendingOps loop.channel
        loop.core.sources watched.armed
        (fun registered => by have := watched.noted registered; tauto)
      constructor
      · simpa [EventCore.applyPendingChanges, outside,
          EventCore.upcoming] using armed
      · intro registered
        have := noted registered
        tauto

theorem Watched.register (watched : loop.Watched attended)
    (op : PendingOp KqueueFilter) : (loop.register op).Watched attended :=
  Watched.applyPendingChanges ⟨watched.armed, watched.noted⟩

theorem Watched.wait (watched : loop.Watched attended)
    {returned : Option KqueueRawEvent} {after : KqueueLoop Item}
    (waited : loop.wait returned = some after) : after.Watched attended := by
  cases returned with
  | none =>
      cases waited
      exact ⟨watched.armed, watched.noted⟩
  | some event =>
      simp only [KqueueLoop.wait, Option.ite_none_right_eq_some,
        Option.some.injEq] at waited
      obtain ⟨-, rfl⟩ := waited
      exact ⟨watched.armed, fun _ => .inr (.inr rfl)⟩

theorem Watched.finishDispatch (watched : loop.Watched attended)
    {after : KqueueLoop Item} (finished : loop.finishDispatch = some after) :
    after.Watched attended := by
  simp only [KqueueLoop.finishDispatch, Option.ite_none_right_eq_some,
    Option.some.injEq] at finished
  obtain ⟨-, rfl⟩ := finished
  exact Watched.applyPendingChanges ⟨watched.armed, watched.noted⟩

theorem Watched.arrive (watched : loop.Watched attended) (items : List Item) :
    { loop with
      channel := loop.channel.arrive items }.Watched attended := by
  refine ⟨watched.armed, ?_⟩
  intro registered
  refine (watched.noted registered).imp id (Or.imp ?_ id)
  exact fun covered => covered.arrive items registered

theorem Watched.finish (watched : loop.Watched attended) :
    { loop with channel := loop.channel.finish }.Watched attended := by
  refine ⟨watched.armed, ?_⟩
  intro registered
  exact (watched.noted registered).imp id (Or.imp Channel.Covered.finish id)

end KqueueLoop

end RopHive.Schedule
