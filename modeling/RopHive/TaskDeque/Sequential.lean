import RopHive.TaskDeque.Machine
import RopHive.Transition.Device

namespace RopHive.TaskDeque

open Transition

/-! `TaskDeque` with one call at a time, and with the counters as they are: a
`size_t` of `width` bits wraps. -/

section RoundUp

/-- `x != 0 && (x & (x - 1)) == 0`. -/
def isPow2 (x : Nat) : Bool := x ≠ 0 ∧ x &&& (x - 1) = 0

/-- `while (p < x) p <<= 1`, for as many turns as the fuel allows. -/
def doubleUpTo (width x : Nat) : Nat → Nat → Option Nat
  | 0, _ => none
  | fuel + 1, p =>
      if p < x then doubleUpTo width x fuel ((p <<< 1) % 2 ^ width)
      else some p

/-- After `width` turns `p` is zero for good. -/
def roundUpPow2 (width x : Nat) : Option Nat :=
  if x < 2 then some 2
  else if isPow2 x then some x
  else doubleUpTo width x (width + 1) 1

/-- The same call, looked at after `turns` turns of its loop. -/
def roundUpWithin (width x turns : Nat) : Option Nat :=
  if x < 2 then some 2
  else if isPow2 x then some x
  else doubleUpTo width x turns 1

end RoundUp

/-- The fields of a `TaskDeque` other than `capacity_`. -/
structure Deque (width : Nat) (Task : Type) where
  buffer : Nat → Option Task
  top : BitVec width
  bottom : BitVec width
  size : BitVec width

/-- The calls, `tryPushBottom` with each kind of argument; `none` is an empty
function. -/
inductive Operation (Task : Type) where
  | pushCopy (task : Option Task)
  | push (task : Option Task)
  | pop
  | steal
  | approxSize
  | remainingSpace
  deriving DecidableEq, Repr

/-- What a call returns, and what a push leaves in its argument. -/
inductive Answer (Task : Type) where
  | pushed (accepted : Bool) (argument : Option Task)
  | taken (item : Option (Option Task))
  | count (number : Nat)
  deriving DecidableEq, Repr

namespace Deque

section Code

variable {width : Nat} {Task : Type} (capacity : Capacity)

def initial : Deque width Task where
  buffer := fun _ => none
  top := 0
  bottom := 0
  size := 0

def maxSize : BitVec width := .ofNat width capacity.maxSize

variable (deque : Deque width Task)

def approxSize : BitVec width := deque.size

def remainingSpace : BitVec width :=
  let used :=
    if deque.top ≤ deque.bottom then deque.bottom - deque.top else 0
  if maxSize capacity ≤ used then 0 else maxSize capacity - used

/-- `i & (capacity_ - 1)`. -/
def slot (index : BitVec width) : Nat := capacity.slot index.toNat

def isFull : Bool := maxSize capacity ≤ deque.bottom - deque.top

/-- Whether the call accepts, what it leaves in the argument, and the deque. -/
def tryPushBottom : Option Task → Bool × Option Task × Deque width Task
  | none => (true, none, deque)
  | some task =>
      if deque.isFull capacity then (false, some task, deque)
      else
        (true, none,
          { deque with
            buffer := Function.update deque.buffer
              (slot capacity deque.bottom) (some task)
            bottom := deque.bottom + 1
            size := deque.size + 1 })

/-- The overload that copies its argument. -/
def tryPushBottomCopy (task : Option Task) : Bool × Deque width Task :=
  match task with
  | none => (true, deque)
  | some task =>
      let (accepted, _, after) := deque.tryPushBottom capacity (some task)
      (accepted, after)

def takeSlot (index : BitVec width) : Option Task × Deque width Task :=
  (deque.buffer (slot capacity index),
    { deque with
      buffer := Function.update deque.buffer (slot capacity index) none })

def tryPopBottom : Option (Option Task) × Deque width Task :=
  if deque.bottom = 0 then (none, deque)
  else
    let b := deque.bottom - 1
    let t := deque.top
    if t ≤ b then
      if t = b then
        -- Nobody else moves `top_`: the compare-and-swap succeeds.
        let (item, after) := { deque with
          top := t + 1
          bottom := b + 1
          size := deque.size - 1 }.takeSlot capacity b
        (some item, after)
      else
        let (item, after) := { deque with
          bottom := b
          size := deque.size - 1 }.takeSlot capacity b
        (some item, after)
    else (none, { deque with
      bottom := b + 1 })

def tryStealTop : Option (Option Task) × Deque width Task :=
  let t := deque.top
  let b := deque.bottom
  if t < b then
    let (item, after) := { deque with
      top := t + 1
      size := deque.size - 1 }.takeSlot capacity t
    (some item, after)
  else (none, deque)

def run : Operation Task → Answer Task × Deque width Task
  | .pushCopy task =>
      let (accepted, after) := deque.tryPushBottomCopy capacity task
      (.pushed accepted task, after)
  | .push task =>
      let (accepted, argument, after) := deque.tryPushBottom capacity task
      (.pushed accepted argument, after)
  | .pop =>
      let (item, after) := deque.tryPopBottom capacity
      (.taken item, after)
  | .steal =>
      let (item, after) := deque.tryStealTop capacity
      (.taken item, after)
  | .approxSize => (.count deque.approxSize.toNat, deque)
  | .remainingSpace => (.count (deque.remainingSpace capacity).toNat, deque)

end Code

end Deque

def device (width : Nat) (Task : Type) (capacity : Capacity) :
    Device (Deque width Task) (Operation Task) (Answer Task) where
  run := Deque.run capacity

section Bounded

variable {Task : Type}

/-- A list of at most `bound` tasks, the oldest in front. -/
def boundedPush (bound : Nat) (tasks : List Task) :
    Option Task → Bool × List Task
  | none => (true, tasks)
  | some task =>
      if tasks.length < bound then (true, tasks ++ [task])
      else (false, tasks)

/-- The purpose of the deque when one call is made at a time.  A refused task
is left in the argument, an accepted one only by the copying push. -/
def boundedRun (bound : Nat) (tasks : List Task) :
    Operation Task → Answer Task × List Task
  | .pushCopy task =>
      let (accepted, after) := boundedPush bound tasks task
      (.pushed accepted task, after)
  | .push task =>
      let (accepted, after) := boundedPush bound tasks task
      (.pushed accepted (if accepted then none else task), after)
  | .pop => (.taken (tasks.getLast?.map some), tasks.dropLast)
  | .steal => (.taken (tasks.head?.map some), tasks.tail)
  | .approxSize => (.count tasks.length, tasks)
  | .remainingSpace => (.count (bound - tasks.length), tasks)

def boundedList (Task : Type) (bound : Nat) :
    Device (List Task) (Operation Task) (Answer Task) where
  run := boundedRun bound

end Bounded

end RopHive.TaskDeque
