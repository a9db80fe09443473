import Mathlib.Algebra.Group.Int.Defs
import Mathlib.Algebra.Group.Nat.Defs
import Mathlib.Data.List.Basic
import Mathlib.Logic.Function.Basic
import Mathlib.Tactic.Common

namespace RopHive.TaskDeque

/-! The purpose of the deque, apart from how it is coded: a ledger of the
indices that were pushed and not yet claimed.  The owner adds and claims at the
high end, thieves claim at the low end. -/

variable {Task Thief : Type}

inductive Event (Task Thief : Type) where
  | pushed (index : Nat) (task : Task)
  | popped (index : Nat)
  | stolen (thief : Thief) (index : Nat)
  deriving DecidableEq, Repr

namespace Event

def claimed? : Event Task Thief → Option Nat
  | .pushed _ _ => none
  | .popped index => some index
  | .stolen _ index => some index

def pushed? : Event Task Thief → Option Nat
  | .pushed index _ => some index
  | _ => none

def stolen? : Event Task Thief → Option Nat
  | .stolen _ index => some index
  | _ => none

def record (entries : Nat → Option Task) :
    Event Task Thief → Nat → Option Task
  | .pushed index task => Function.update entries index (some task)
  | .popped index => Function.update entries index none
  | .stolen _ index => Function.update entries index none

end Event

def owed (history : List (Event Task Thief)) : Nat → Option Task :=
  history.foldl Event.record fun _ => none

@[simp] theorem owed_nil :
    owed ([] : List (Event Task Thief)) = fun _ => none := rfl

@[simp] theorem owed_append (history : List (Event Task Thief))
    (event : Event Task Thief) :
    owed (history ++ [event]) = event.record (owed history) := by
  simp [owed]

def pushes (history : List (Event Task Thief)) (index : Nat) : Nat :=
  (history.filterMap Event.pushed?).count index

def claims (history : List (Event Task Thief)) (index : Nat) : Nat :=
  (history.filterMap Event.claimed?).count index

theorem pushes_append (history : List (Event Task Thief))
    (event : Event Task Thief) (index : Nat) :
    pushes (history ++ [event]) index = pushes history index +
      (if event.pushed? = some index then 1 else 0) := by
  cases event <;>
    simp [pushes, List.filterMap_cons, Event.pushed?, List.count_singleton]

theorem claims_append (history : List (Event Task Thief))
    (event : Event Task Thief) (index : Nat) :
    claims (history ++ [event]) index = claims history index +
      (if event.claimed? = some index then 1 else 0) := by
  cases event <;>
    simp [claims, List.filterMap_cons, Event.claimed?, List.count_singleton]

def stolenIndices (history : List (Event Task Thief)) : List Nat :=
  history.filterMap Event.stolen?

theorem stolenIndices_append (history : List (Event Task Thief))
    (event : Event Task Thief) :
    stolenIndices (history ++ [event]) =
      stolenIndices history ++ event.stolen?.toList := by
  cases event <;> simp [stolenIndices, List.filterMap_cons, Event.stolen?]

/-- The histories of a deque whose unclaimed indices are exactly those from
`low` up to but not including `high`. -/
inductive Legal : List (Event Task Thief) → Nat → Nat → Prop
  | empty : Legal [] 0 0
  | push {history : List (Event Task Thief)} {low high : Nat} (task : Task) :
      Legal history low high →
      Legal (history ++ [Event.pushed high task]) low (high + 1)
  | pop {history : List (Event Task Thief)} {low high : Nat} :
      Legal history low (high + 1) → low < high →
      Legal (history ++ [Event.popped high]) low high
  | popLast {history : List (Event Task Thief)} {low : Nat} :
      Legal history low (low + 1) →
      Legal (history ++ [Event.popped low]) (low + 1) (low + 1)
  | steal {history : List (Event Task Thief)} {low high : Nat}
      (thief : Thief) : Legal history low high → low < high →
      Legal (history ++ [Event.stolen thief low]) (low + 1) high

namespace Legal

variable {history : List (Event Task Thief)} {low high : Nat}

theorem low_le_high (legal : Legal history low high) : low ≤ high := by
  induction legal with
  | empty => exact Nat.le_refl 0
  | push _ _ ih => omega
  | pop _ below _ => omega
  | popLast _ _ => exact Nat.le_refl _
  | steal _ _ below _ => omega

theorem owed_isSome (legal : Legal history low high) (index : Nat) :
    (owed history index).isSome ↔ low ≤ index ∧ index < high := by
  induction legal with
  | empty => simp
  | push task legal ih =>
      have ordered := legal.low_le_high
      simp only [owed_append, Event.record, Function.update_apply]
      split
      · simp; omega
      · rw [ih]; omega
  | pop legal below ih =>
      simp only [owed_append, Event.record, Function.update_apply]
      split
      · simp; omega
      · rw [ih]; omega
  | popLast legal ih =>
      simp only [owed_append, Event.record, Function.update_apply]
      split
      · simp
      · rw [ih]; omega
  | steal thief legal below ih =>
      simp only [owed_append, Event.record, Function.update_apply]
      split
      · simp; omega
      · rw [ih]; omega

/-- Every index has been claimed as often as it was pushed, save once more
pushed while it is unclaimed: no push is ever claimed twice. -/
theorem pushes_eq (legal : Legal history low high) (index : Nat) :
    pushes history index = claims history index +
      (if low ≤ index ∧ index < high then 1 else 0) := by
  induction legal with
  | empty => simp [pushes, claims]
  | push task legal ih =>
      have ordered := legal.low_le_high
      simp only [pushes_append, claims_append, ih, Event.pushed?,
        Event.claimed?]
      grind
  | pop legal below ih | popLast legal ih | steal thief legal below ih =>
      simp only [pushes_append, claims_append, ih, Event.pushed?,
        Event.claimed?]
      grind

theorem stolenIndices_lt (legal : Legal history low high) :
    ∀ index ∈ stolenIndices history, index < low := by
  induction legal with
  | empty => simp [stolenIndices]
  | push _ _ ih | pop _ _ ih =>
      simpa [stolenIndices_append, Event.stolen?] using ih
  | popLast _ ih =>
      intro index member
      have := ih index (by
        simpa [stolenIndices_append, Event.stolen?] using member)
      omega
  | steal _ _ _ ih =>
      intro index member
      simp only [stolenIndices_append, Event.stolen?, Option.toList_some,
        List.mem_append, List.mem_singleton] at member
      rcases member with earlier | rfl
      · have := ih index earlier
        omega
      · exact Nat.lt_succ_self _

theorem stolenIndices_increasing (legal : Legal history low high) :
    (stolenIndices history).Pairwise (· < ·) := by
  induction legal with
  | empty => simp [stolenIndices]
  | push _ _ ih | pop _ _ ih | popLast _ ih =>
      simpa [stolenIndices_append, Event.stolen?] using ih
  | steal thief legal below ih =>
      simp only [stolenIndices_append, Event.stolen?, Option.toList_some,
        List.pairwise_append]
      refine ⟨ih, by simp, ?_⟩
      intro earlier member latest latestMember
      rw [List.mem_singleton.mp latestMember]
      exact legal.stolenIndices_lt earlier member

end Legal

/-- What an event may do to the ledger `before` it: a push takes an index with
no unclaimed push, a pop claims the largest unclaimed index and a steal the
smallest one. -/
def Event.Lawful (before : List (Event Task Thief)) : Event Task Thief → Prop
  | .pushed index _ => owed before index = none
  | .popped index => (owed before index).isSome ∧
      ∀ other, (owed before other).isSome → other ≤ index
  | .stolen _ index => (owed before index).isSome ∧
      ∀ other, (owed before other).isSome → index ≤ other

def ClaimsInOrder (history : List (Event Task Thief)) : Prop :=
  ∀ before event rest, history = before ++ event :: rest →
    event.Lawful before

theorem ClaimsInOrder.append {history : List (Event Task Thief)}
    (inOrder : ClaimsInOrder history) {event : Event Task Thief}
    (lawful : event.Lawful history) : ClaimsInOrder (history ++ [event]) := by
  intro before earlier rest split
  rcases List.eq_nil_or_concat rest with rfl | ⟨front, last, rfl⟩
  · obtain ⟨rfl, same⟩ := List.append_inj' split rfl
    cases same
    exact lawful
  · have shorter : history ++ [event] =
        (before ++ earlier :: front) ++ [last] := by
      simpa using split
    exact inOrder before earlier front (List.append_inj' shorter rfl).1

theorem Legal.claimsInOrder {history : List (Event Task Thief)}
    {low high : Nat} (legal : Legal history low high) :
    ClaimsInOrder history := by
  induction legal with
  | empty =>
      intro before event rest split
      simp at split
  | @push history low high task legal ih =>
      apply ih.append
      have absent : ¬ (owed history high).isSome := by
        rw [legal.owed_isSome]
        omega
      simpa [Event.Lawful] using absent
  | pop legal below ih =>
      refine ih.append ⟨(legal.owed_isSome _).mpr (by omega), ?_⟩
      intro other unclaimed
      have := (legal.owed_isSome other).mp unclaimed
      omega
  | popLast legal ih =>
      refine ih.append ⟨(legal.owed_isSome _).mpr (by omega), ?_⟩
      intro other unclaimed
      have := (legal.owed_isSome other).mp unclaimed
      omega
  | steal thief legal below ih =>
      refine ih.append ⟨(legal.owed_isSome _).mpr (by omega), ?_⟩
      intro other unclaimed
      exact ((legal.owed_isSome other).mp unclaimed).1

end RopHive.TaskDeque
