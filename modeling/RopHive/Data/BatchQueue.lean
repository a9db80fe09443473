import Mathlib.Data.List.Basic

/-! A queue from which clients take batches.  The ledger says what went in, in
which order batches were cut off the front, and what each client was handed. -/

namespace BatchQueue

structure Pop (Client α : Type) where
  client : Client
  limit : Nat
  batch : List α
  deriving DecidableEq

/-- What a client finds in its vector on return, and the count returned. -/
structure Return (Client α : Type) where
  client : Client
  out : List α
  n : Nat
  deriving DecidableEq

structure Ledger (Client α : Type) where
  pushed : List α := []
  pops : List (Pop Client α) := []
  returns : List (Return Client α) := []
  deriving DecidableEq

variable {Client α : Type}

namespace Ledger

def push (ledger : Ledger Client α) (item : α) : Ledger Client α :=
  { ledger with pushed := ledger.pushed ++ [item] }

def pop (ledger : Ledger Client α) (pop : Pop Client α) : Ledger Client α :=
  { ledger with pops := ledger.pops ++ [pop] }

def hand (ledger : Ledger Client α) (handed : Return Client α) :
    Ledger Client α :=
  { ledger with returns := ledger.returns ++ [handed] }

variable [DecidableEq Client]

def batchesOf (ledger : Ledger Client α) (client : Client) : List (List α) :=
  ledger.pops.filterMap fun pop =>
    if pop.client = client then some pop.batch else none

def outsOf (ledger : Ledger Client α) (client : Client) : List (List α) :=
  ledger.returns.filterMap fun handed =>
    if handed.client = client ∧ handed.out ≠ [] then some handed.out else none

/-- `held` is the batch that a client has cut off and not been handed yet. -/
structure Balanced (ledger : Ledger Client α) (queue : List α)
    (held : Client → Option (List α)) : Prop where
  fifo : ledger.pushed = ledger.pops.flatMap Pop.batch ++ queue
  bounded : ∀ pop ∈ ledger.pops,
    pop.batch ≠ [] ∧ pop.batch.length ≤ pop.limit
  counted : ∀ handed ∈ ledger.returns, handed.n = handed.out.length
  handedOut : ∀ client, ledger.batchesOf client =
    ledger.outsOf client ++ (held client).toList

namespace Balanced

variable {ledger : Ledger Client α} {queue : List α}
  {held held' : Client → Option (List α)} {client : Client} {limit : Nat}
  {batch : List α}

theorem initial : ({} : Ledger Client α).Balanced [] fun _ => none where
  fifo := rfl
  bounded := nofun
  counted := nofun
  handedOut _ := rfl

theorem push (balanced : ledger.Balanced queue held) (item : α) :
    (ledger.push item).Balanced (queue ++ [item]) held where
  fifo := by
    rw [Ledger.push, balanced.fifo, List.append_assoc]
  bounded := balanced.bounded
  counted := balanced.counted
  handedOut := balanced.handedOut

theorem pop (balanced : ledger.Balanced queue held)
    (notNone : queue.take limit ≠ []) (free : held client = none) :
    (ledger.pop ⟨client, limit, queue.take limit⟩).Balanced
      (queue.drop limit)
      (Function.update held client (some (queue.take limit))) where
  fifo := by
    simp [Ledger.pop, balanced.fifo]
  bounded := by
    intro pop member
    obtain old | new := List.mem_append.mp member
    · exact balanced.bounded pop old
    · obtain rfl := List.mem_singleton.mp new
      exact ⟨notNone, List.length_take_le _ _⟩
  counted := balanced.counted
  handedOut := by
    intro other
    have before := balanced.handedOut other
    by_cases same : other = client
    · subst same
      rw [free] at before
      simpa [Ledger.pop, batchesOf, outsOf] using before
    · simpa [Ledger.pop, batchesOf, outsOf, Ne.symm same, same] using before

theorem hand (balanced : ledger.Balanced queue held)
    (holds : held client = some batch) (notNone : batch ≠ []) :
    (ledger.hand ⟨client, batch, batch.length⟩).Balanced queue
      (Function.update held client none) where
  fifo := balanced.fifo
  bounded := balanced.bounded
  counted := by
    intro handed member
    obtain old | new := List.mem_append.mp member
    · exact balanced.counted handed old
    · obtain rfl := List.mem_singleton.mp new
      rfl
  handedOut := by
    intro other
    have before := balanced.handedOut other
    by_cases same : other = client
    · subst same
      rw [holds] at before
      simpa [Ledger.hand, batchesOf, outsOf, notNone] using before
    · simpa [Ledger.hand, batchesOf, outsOf, Ne.symm same, same] using before

theorem handNothing (balanced : ledger.Balanced queue held) :
    (ledger.hand ⟨client, [], 0⟩).Balanced queue held where
  fifo := balanced.fifo
  bounded := balanced.bounded
  counted := by
    intro handed member
    obtain old | new := List.mem_append.mp member
    · exact balanced.counted handed old
    · obtain rfl := List.mem_singleton.mp new
      rfl
  handedOut := by
    intro other
    simpa [Ledger.hand, batchesOf, outsOf] using balanced.handedOut other

theorem held_ne_nil (balanced : ledger.Balanced queue held)
    (holds : held client = some batch) : batch ≠ [] := by
  have member : batch ∈ ledger.batchesOf client := by
    rw [balanced.handedOut, holds]
    simp
  obtain ⟨pop, isPop, same⟩ := List.mem_filterMap.mp member
  split at same
  · cases same
    exact (balanced.bounded pop isPop).1
  · cases same

end Balanced

end Ledger

end BatchQueue
