import RopHive.Schedule.EventCore
import RopHive.Transition.CompletionPort

namespace RopHive.Schedule

open Transition

/-! One handle in the event loop of its worker: the kernel's side of its
overlapped operations, and the source that hands their completions on. -/

/-- `arm` of the source associates the handle with the port, and a handle is
associated for good. -/
structure IocpLoop (Op Record Result : Type) where
  core : EventCore Unit := {}
  associated : Bool := false
  port : CompletionPort Op Record Result := {}

def PendingOp.adds : PendingOp Unit → Bool
  | .add _ => true
  | .remove _ => false

namespace IocpLoop

variable {Op Record Result : Type} (loop : IocpLoop Op Record Result)

/-- The source matches packets of its key only while it is armed. -/
def armed : Bool := () ∈ loop.core.sources

def applyPendingChanges : IocpLoop Op Record Result :=
  if loop.core.inDispatch then loop
  else { loop with
    core := loop.core.applyPendingChanges
    associated := loop.associated || loop.core.pendingOps.any PendingOp.adds }

def register (op : PendingOp Unit) : IocpLoop Op Record Result :=
  { loop with
    core := { loop.core with
      pendingOps := loop.core.pendingOps ++ [op] } }.applyPendingChanges

/-- `runOnce` up to the dispatching of the packets that the wait has taken from
the port; those of the wait before have all been dealt with. -/
def wait (count : Nat) : Option (IocpLoop Op Record Result) :=
  if ¬ loop.core.inDispatch ∧ loop.port.batch.isEmpty then
    some { loop with
      core := { loop.core with inDispatch := true }
      port := loop.port.collect count }
  else none

def dispatch : Option (Op × IocpLoop Op Record Result) :=
  if loop.core.inDispatch ∧ loop.armed then
    loop.port.next.map fun (op, port) => (op, { loop with port })
  else none

def drop : Option (IocpLoop Op Record Result) :=
  if loop.core.inDispatch ∧ ¬ loop.armed then
    loop.port.next.map fun (_, port) => { loop with port }
  else none

def finishDispatch : Option (IocpLoop Op Record Result) :=
  if loop.core.inDispatch ∧ loop.port.batch.isEmpty then
    some { loop with
      core := { loop.core with inDispatch := false } }.applyPendingChanges
  else none

variable {loop} {after : IocpLoop Op Record Result}

@[simp] theorem port_applyPendingChanges :
    loop.applyPendingChanges.port = loop.port := by
  unfold applyPendingChanges
  split <;> rfl

@[simp] theorem port_register (op : PendingOp Unit) :
    (loop.register op).port = loop.port := by
  rw [register, port_applyPendingChanges]

theorem port_finishDispatch (finished : loop.finishDispatch = some after) :
    after.port = loop.port := by
  obtain ⟨_, same⟩ := Option.ite_none_right_eq_some.mp finished
  cases same
  exact port_applyPendingChanges

theorem inFlight_wait {count : Nat} (waited : loop.wait count = some after) :
    after.port.inFlight = loop.port.inFlight := by
  obtain ⟨⟨_, dealt⟩, same⟩ := Option.ite_none_right_eq_some.mp waited
  cases same
  exact CompletionPort.inFlight_collect count
    (List.isEmpty_iff.mp dealt)

theorem pending_wait {count : Nat} (waited : loop.wait count = some after) :
    after.port.pending = loop.port.pending := by
  obtain ⟨_, same⟩ := Option.ite_none_right_eq_some.mp waited
  cases same
  rfl

theorem dispatch_next {op : Op} (dispatched : loop.dispatch = some (op, after)) :
    loop.port.next = some (op, after.port) := by
  simp only [dispatch, Option.ite_none_right_eq_some,
    Option.map_eq_some_iff] at dispatched
  obtain ⟨_, ⟨taken, port⟩, found, same⟩ := dispatched
  cases same
  exact found

theorem drop_next (dropped : loop.drop = some after) :
    ∃ op, loop.port.next = some (op, after.port) := by
  simp only [drop, Option.ite_none_right_eq_some,
    Option.map_eq_some_iff] at dropped
  obtain ⟨_, ⟨taken, port⟩, found, same⟩ := dropped
  cases same
  exact ⟨taken, found⟩

end IocpLoop

end RopHive.Schedule
