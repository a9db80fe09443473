import RopHive.TaskDeque.History
import RopHive.Transition.System

namespace RopHive.TaskDeque

open Transition

/-! The code of `TaskDeque`, one step for each load, store, compare-and-swap
and fetch-and-add of `top_`, `bottom_` and `size_` and for each write to or
move out of a slot.  Indices are natural numbers: `top_` and `bottom_` do not
wrap.  `size_` is an integer because a thief may subtract before the owner has
added. -/

/-- A `capacity_` that `roundUpPow2` returns: a power of two, at least two. -/
structure Capacity where
  exponent : Nat
  positive : 0 < exponent

namespace Capacity

def val (capacity : Capacity) : Nat := 2 ^ capacity.exponent

def maxSize (capacity : Capacity) : Nat := capacity.val - 1

/-- `i & (capacity_ - 1)`. -/
def slot (capacity : Capacity) (index : Nat) : Nat :=
  index &&& (capacity.val - 1)

theorem slot_eq_mod (capacity : Capacity) (index : Nat) :
    capacity.slot index = index % capacity.val :=
  Nat.and_two_pow_sub_one_eq_mod index capacity.exponent

theorem slot_ne (capacity : Capacity) {first second : Nat}
    (ordered : first < second) (close : second - first < capacity.val) :
    capacity.slot first ≠ capacity.slot second := by
  rw [slot_eq_mod, slot_eq_mod]
  intro same
  have divides : capacity.val ∣ second - first :=
    Nat.dvd_of_mod_eq_zero (Nat.sub_mod_eq_zero_of_mod_eq same.symm)
  have := Nat.le_of_dvd (by omega) divides
  omega

end Capacity

/-- Where the owner stands in `tryPushBottom` or `tryPopBottom`.  The task that
a claim is entitled to, `claim`, is recorded with it for the specification. -/
inductive OwnerPoint (Task : Type) where
  | idle
  | pushTop (task : Task) (b : Nat)
  | pushWrite (task : Task) (b : Nat)
  | pushBottom (task : Task) (b : Nat)
  | pushSize
  | popBottom (b : Nat)
  | popTop (b : Nat)
  | popCas (b : Nat)
  | popRestore (b : Nat)
  | lastBottom (b : Nat) (claim : Option Task)
  | lastSize (b : Nat) (claim : Option Task)
  | lastTake (b : Nat) (claim : Option Task)
  | popTake (b : Nat) (claim : Option Task)
  | popSize (item claim : Option Task)
  deriving DecidableEq, Repr

/-- Where a thief stands in `tryStealTop`. -/
inductive ThiefPoint (Task : Type) where
  | idle
  | loadBottom (t : Nat)
  | cas (t : Nat)
  | size (t : Nat) (claim : Option Task)
  | take (t : Nat) (claim : Option Task)
  deriving DecidableEq, Repr

/-- A value handed out, next to the task its claim was entitled to. -/
structure Handout (Task : Type) where
  claim : Option Task
  value : Option Task
  deriving DecidableEq, Repr

structure State (Task Thief : Type) where
  buffer : Nat → Option Task
  top : Nat
  bottom : Nat
  size : Int
  owner : OwnerPoint Task
  thieves : Thief → ThiefPoint Task
  history : List (Event Task Thief)
  handouts : List (Handout Task)

/-- `push` and `pop` are the owner's calls up to their first load, `steal` a
thief's; `owner` and `thief` take one further step of a call. -/
inductive Label (Task Thief : Type) where
  | push (task : Option Task)
  | pop
  | owner
  | steal (thief : Thief)
  | thief (thief : Thief)
  deriving DecidableEq, Repr

section Steps

variable {Task Thief : Type} [DecidableEq Thief] (capacity : Capacity)

def initialState : State Task Thief where
  buffer := fun _ => none
  top := 0
  bottom := 0
  size := 0
  owner := .idle
  thieves := fun _ => .idle
  history := []
  handouts := []

/-- Move the function out of the slot of `index`, which leaves it empty. -/
def State.takeSlot (state : State Task Thief) (index : Nat) :
    State Task Thief :=
  { state with
    buffer := Function.update state.buffer (capacity.slot index) none }

def State.ownerStep (state : State Task Thief) : Option (State Task Thief) :=
  match state.owner with
  | .idle => none
  | .pushTop task b =>
      -- `b - t` is unsigned: below `t` it is huge, and the push is refused.
      if b < state.top ∨ capacity.maxSize ≤ b - state.top then
        some { state with owner := .idle }
      else
        some { state with owner := .pushWrite task b }
  | .pushWrite task b =>
      some { state with
        buffer := Function.update state.buffer (capacity.slot b) (some task)
        owner := .pushBottom task b }
  | .pushBottom task b =>
      some { state with
        bottom := b + 1
        owner := .pushSize
        history := state.history ++ [.pushed b task] }
  | .pushSize => some { state with size := state.size + 1, owner := .idle }
  | .popBottom b => some { state with bottom := b, owner := .popTop b }
  | .popTop b =>
      if state.top ≤ b then
        if state.top = b then
          some { state with owner := .popCas b }
        else
          -- From here on the owner takes `b` without a compare-and-swap.
          some { state with
            owner := .popTake b (owed state.history b)
            history := state.history ++ [.popped b] }
      else
        some { state with owner := .popRestore b }
  | .popCas b =>
      if state.top = b then
        some { state with
          top := b + 1
          owner := .lastBottom b (owed state.history b)
          history := state.history ++ [.popped b] }
      else
        some { state with owner := .popRestore b }
  | .popRestore b => some { state with bottom := b + 1, owner := .idle }
  | .lastBottom b claim =>
      some { state with bottom := b + 1, owner := .lastSize b claim }
  | .lastSize b claim =>
      some { state with size := state.size - 1, owner := .lastTake b claim }
  | .lastTake b claim =>
      some { state.takeSlot capacity b with
        owner := .idle
        handouts := state.handouts ++
          [⟨claim, state.buffer (capacity.slot b)⟩] }
  | .popTake b claim =>
      some { state.takeSlot capacity b with
        owner := .popSize (state.buffer (capacity.slot b)) claim }
  | .popSize item claim =>
      some { state with
        size := state.size - 1
        owner := .idle
        handouts := state.handouts ++ [⟨claim, item⟩] }

def State.thiefStep (state : State Task Thief) (thief : Thief) :
    Option (State Task Thief) :=
  let goto := fun point => Function.update state.thieves thief point
  match state.thieves thief with
  | .idle => none
  | .loadBottom t =>
      some { state with
        thieves := goto (if t < state.bottom then .cas t else .idle) }
  | .cas t =>
      if state.top = t then
        some { state with
          top := t + 1
          thieves := goto (.size t (owed state.history t))
          history := state.history ++ [.stolen thief t] }
      else
        some { state with thieves := goto .idle }
  | .size t claim =>
      some { state with
        size := state.size - 1
        thieves := goto (.take t claim) }
  | .take t claim =>
      some { state.takeSlot capacity t with
        thieves := goto .idle
        handouts := state.handouts ++
          [⟨claim, state.buffer (capacity.slot t)⟩] }

def State.step (state : State Task Thief) :
    Label Task Thief → Option (State Task Thief)
  | .push task =>
      match state.owner, task with
      | .idle, none => some state
      | .idle, some task =>
          some { state with owner := .pushTop task state.bottom }
      | _, _ => none
  | .pop =>
      match state.owner with
      | .idle =>
          if state.bottom = 0 then some state
          else some { state with owner := .popBottom (state.bottom - 1) }
      | _ => none
  | .owner => state.ownerStep capacity
  | .steal thief =>
      match state.thieves thief with
      | .idle =>
          some { state with
            thieves :=
              Function.update state.thieves thief (.loadBottom state.top) }
      | _ => none
  | .thief thief => state.thiefStep capacity thief

def machine (Task Thief : Type) [DecidableEq Thief] (capacity : Capacity) :
    System (State Task Thief) (Label Task Thief) where
  initial := fun state => state = initialState
  step := State.step capacity

end Steps

end RopHive.TaskDeque
