import Mathlib.Data.List.Perm.Basic
import Mathlib.Logic.Function.Basic

namespace Transition

/-! Overlapped operations.  An operation is posted with a record, which takes
its result.  When it completes, a packet is queued, where the port announces
completions, and packets are taken from the queue in batches. -/

universe u v w

structure CompletionPort (Op : Type u) (Record : Type v) (Result : Type w)
    where
  pending : List Op := []
  queued : List Op := []
  batch : List Op := []
  result : Record → Option Result := fun _ => none

namespace CompletionPort

variable {Op : Type u} {Record : Type v} {Result : Type w}
  (port : CompletionPort Op Record Result)

/-- The operations of which the user has not been told the end. -/
def inFlight : List Op :=
  port.pending ++ port.batch ++ port.queued

/-- A batch is taken when the last one has been dealt with. -/
def collect (count : Nat) : CompletionPort Op Record Result :=
  { port with
    queued := port.queued.drop count
    batch := port.queued.take count }

def next : Option (Op × CompletionPort Op Record Result) :=
  match port.batch with
  | [] => none
  | op :: rest => some (op, { port with batch := rest })

section Records

variable [DecidableEq Record] (record : Op → Record)

def busy (cell : Record) : Bool :=
  port.pending.any fun op => record op = cell

def post (op : Op) : CompletionPort Op Record Result :=
  { port with
    pending := port.pending ++ [op]
    result := Function.update port.result (record op) none }

def write (cell : Record) (value : Result) :
    CompletionPort Op Record Result :=
  { port with
    result := Function.update port.result cell (some value) }

def complete [DecidableEq Op] (announced : Bool) (op : Op) (value : Result) :
    CompletionPort Op Record Result :=
  { port with
    pending := port.pending.erase op
    queued := if announced then port.queued ++ [op] else port.queued
    result := Function.update port.result (record op) (some value) }

end Records

variable {port}

theorem inFlight_collect (count : Nat) (dealt : port.batch = []) :
    (port.collect count).inFlight = port.inFlight := by
  simp [inFlight, collect, dealt]

theorem next_cases {op : Op} {after : CompletionPort Op Record Result}
    (taken : port.next = some (op, after)) :
    ∃ rest, port.batch = op :: rest ∧ after = { port with batch := rest } := by
  unfold next at taken
  split at taken
  · cases taken
  · next shape =>
      cases taken
      exact ⟨_, shape, rfl⟩

theorem inFlight_next {op : Op} {after : CompletionPort Op Record Result}
    (taken : port.next = some (op, after)) :
    port.inFlight.Perm (op :: after.inFlight) := by
  obtain ⟨rest, shape, rfl⟩ := next_cases taken
  simp only [inFlight, shape, List.append_assoc, List.cons_append]
  exact List.perm_middle

variable [DecidableEq Record] {record : Op → Record}

@[simp] theorem inFlight_write (cell : Record) (value : Result) :
    (port.write cell value).inFlight = port.inFlight := rfl

theorem inFlight_post (op : Op) :
    (port.post record op).inFlight.Perm (op :: port.inFlight) := by
  simp only [inFlight, post, List.append_assoc, List.singleton_append]
  exact List.perm_middle

theorem mem_inFlight_of_busy {cell : Record}
    (isBusy : port.busy record cell = true) :
    ∃ op ∈ port.inFlight, record op = cell := by
  obtain ⟨op, member, same⟩ := List.any_eq_true.mp isBusy
  refine ⟨op, ?_, of_decide_eq_true same⟩
  exact List.mem_append_left _ (List.mem_append_left _ member)

/-- Where completions are not announced the user is never told. -/
theorem inFlight_lose [DecidableEq Op] {op : Op} (value : Result)
    (member : op ∈ port.pending) :
    port.inFlight.Perm
      (op :: (port.complete record false op value).inFlight) := by
  simp only [inFlight, complete, Bool.false_eq_true, if_false,
    ← List.cons_append]
  exact ((List.perm_cons_erase member).append_right _).append_right _

theorem inFlight_complete [DecidableEq Op] {op : Op} (value : Result)
    (member : op ∈ port.pending) :
    (port.complete record true op value).inFlight.Perm port.inFlight := by
  have told : (port.complete record true op value).inFlight =
      (port.complete record false op value).inFlight ++ [op] := by
    simp [inFlight, complete]
  rw [told]
  exact (List.perm_append_singleton _ _).trans (inFlight_lose value member).symm

end CompletionPort

end Transition
