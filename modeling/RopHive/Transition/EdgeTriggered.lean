import Mathlib.Tactic.Common

namespace Transition

/-! Edge-triggered readiness.  A channel queues items for a reader; a
registration of the reader becomes active when something arrives, and
collecting its event makes it inactive until the next arrival. -/

structure Channel (Item : Type) where
  queue : List Item := []
  ended : Bool := false
  registered : Bool := false
  active : Bool := false
  deriving DecidableEq

namespace Channel

variable {Item : Type} {channel : Channel Item}

def ready (channel : Channel Item) : Bool :=
  !channel.queue.isEmpty || channel.ended

def arrive (channel : Channel Item) (items : List Item) : Channel Item :=
  { channel with
    queue := channel.queue ++ items
    active := channel.registered && !items.isEmpty || channel.active }

def finish (channel : Channel Item) : Channel Item :=
  { channel with
    ended := true
    active := channel.registered || channel.active }

def register (channel : Channel Item) : Channel Item :=
  if channel.registered then channel
  else { channel with registered := true, active := channel.ready }

def unregister (channel : Channel Item) : Channel Item :=
  { channel with registered := false, active := false }

def collect (channel : Channel Item) : Channel Item :=
  { channel with active := false }

/-- Whatever is queued will be reported. -/
def Covered (channel : Channel Item) : Prop :=
  channel.queue = [] ∨ channel.active

instance : Decidable channel.Covered :=
  inferInstanceAs (Decidable (_ ∨ _))

@[simp] theorem registered_register (channel : Channel Item) :
    channel.register.registered = true := by
  unfold register
  split
  · assumption
  · rfl

@[simp] theorem registered_unregister (channel : Channel Item) :
    channel.unregister.registered = false := rfl

theorem Covered.arrive (covered : channel.Covered) (items : List Item)
    (registered : channel.registered) : (channel.arrive items).Covered := by
  cases items with
  | nil =>
      refine covered.imp ?_ ?_
      · intro empty
        simp [Channel.arrive, empty]
      · intro active
        simp [Channel.arrive, active]
  | cons first rest => exact .inr (by simp [Channel.arrive, registered])

theorem Covered.finish (covered : channel.Covered) :
    channel.finish.Covered := by
  refine covered.imp id ?_
  intro active
  simp [Channel.finish, active]

theorem Covered.register (covered : channel.registered → channel.Covered) :
    channel.register.Covered := by
  unfold Channel.register
  split
  · next isRegistered => exact covered isRegistered
  · cases queued : channel.queue with
    | nil => exact .inl rfl
    | cons first rest => exact .inr (by simp [ready, queued])

end Channel

end Transition
