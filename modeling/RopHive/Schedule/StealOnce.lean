import Mathlib.Data.Fintype.Card
import RopHive.Schedule.IOWorker
import RopHive.TaskDeque.Counter
import RopHive.Transition.History

namespace RopHive.Schedule.StealOnce

open Transition

/-! `IOWorker::stealOnce` on any number of workers at once, down to the single
loads, stores and read-modify-writes of their deques.  Outside `stealOnce`, and
in a task that it runs itself, a worker pushes to and pops from its own deque
as it likes. -/

/-- The local variables of the loop of `stealOnce`: `i`, the victim, how much
of `steal_n` is left, and `stole_cnt`. -/
structure Attempt (workers : Nat) where
  index : Nat
  victim : Fin workers
  left : Nat
  stolen : Nat
  deriving DecidableEq, Repr

inductive Point (workers : Nat) (Task : Type) where
  | outside
  | pick (index : Nat)
  | readSize (index : Nat) (victim : Fin workers)
  | next (attempt : Attempt workers)
  | stealing (attempt : Attempt workers)
  | spaceBottom (attempt : Attempt workers) (task : Option Task)
  | spaceTop (attempt : Attempt workers) (task : Option Task) (b : Nat)
  | offer (attempt : Attempt workers) (task : Option Task)
  | pushing (attempt : Attempt workers) (task : Task)
  | running (attempt : Attempt workers)
  | divisionByZero
  deriving DecidableEq, Repr

structure State (workers : Nat) (Task : Type) where
  deques : Fin workers → TaskDeque.State Task (Fin workers)
  points : Fin workers → Point workers Task

/-- What a worker does with its own deque apart from `stealOnce`. -/
inductive OwnCall (Task : Type) where
  | push (task : Option Task)
  | pop
  | step
  deriving DecidableEq, Repr

def OwnCall.label {workers : Nat} {Task : Type} :
    OwnCall Task → TaskDeque.Label Task (Fin workers)
  | .push task => .push task
  | .pop => .pop
  | .step => .owner

/-- `begin` calls `stealOnce`; `advance` takes its next step, where the worker
drawn by `dist(rng_)` is given. -/
inductive Label (workers : Nat) (Task : Type) where
  | own (worker : Fin workers) (call : OwnCall Task)
  | begin (worker : Fin workers)
  | advance (worker : Fin workers) (drawn : Fin workers)
  deriving DecidableEq, Repr

/-- What a `size_t` load of `size_` yields. -/
def sizeRead {workers : Nat} {Task : Type}
    (deque : TaskDeque.State Task (Fin workers)) : Nat :=
  (deque.size % 2 ^ 64).toNat

section Steps

variable {workers : Nat} {Task : Type} (options : Fin workers → Options)

def Attempt.leave (attempt : Attempt workers) : Point workers Task :=
  if attempt.stolen ≠ 0 then .outside else .pick (attempt.index + 1)

def Attempt.count (attempt : Attempt workers) : Attempt workers :=
  { attempt with left := attempt.left - 1, stolen := attempt.stolen + 1 }

/-- The local deque has refused the task. -/
def runHere (attempt : Attempt workers) : Option Task → Point workers Task
  | some _ => .running attempt
  | none => .next attempt.count

namespace State

variable (state : State workers Task)

def goto (worker : Fin workers) (point : Point workers Task) :
    State workers Task :=
  { state with points := Function.update state.points worker point }

def onDeque (worker target : Fin workers)
    (label : TaskDeque.Label Task (Fin workers))
    (onward : TaskDeque.State Task (Fin workers) → Point workers Task) :
    Option (State workers Task) :=
  ((state.deques target).step (options target).localQueueCapacity label).map
    fun deque =>
      { deques := Function.update state.deques target deque
        points := Function.update state.points worker (onward deque) }

def afterSteal (worker : Fin workers) (attempt : Attempt workers)
    (deque : TaskDeque.State Task (Fin workers)) : Point workers Task :=
  match deque.thieves worker with
  | .idle =>
      match (state.deques attempt.victim).thieves worker with
      | .take t _ =>
          .spaceBottom attempt ((state.deques attempt.victim).buffer
            ((options attempt.victim).localQueueCapacity.slot t))
      | _ => attempt.leave
  | _ => .stealing attempt

def afterPush (worker : Fin workers) (attempt : Attempt workers) (task : Task)
    (deque : TaskDeque.State Task (Fin workers)) : Point workers Task :=
  match deque.owner with
  | .idle =>
      match (state.deques worker).owner with
      | .pushSize => .next attempt.count
      | _ => runHere attempt (some task)
  | _ => .pushing attempt task

def advance (worker drawn : Fin workers) : Option (State workers Task) :=
  match state.points worker with
  | .outside | .divisionByZero => none
  | .pick index =>
      some (state.goto worker
        (if index < (options worker).ktries then
          if drawn = worker then .pick (index + 1)
          else .readSize index drawn
         else .outside))
  | .readSize index victim =>
      let peerSize := sizeRead (state.deques victim)
      some (state.goto worker
        (if max 8 (options worker).victimMinimumSize < peerSize ∧
            (options worker).stealBatchFactor = 0 then .divisionByZero
         else .next ⟨index, victim,
          IOWorker.stealQuota (options worker) peerSize, 0⟩))
  | .next attempt =>
      if attempt.left = 0 then some (state.goto worker attempt.leave)
      else
        state.onDeque options worker attempt.victim (.steal worker)
          fun _ => .stealing attempt
  | .stealing attempt =>
      state.onDeque options worker attempt.victim (.thief worker)
        (state.afterSteal options worker attempt)
  | .spaceBottom attempt task =>
      some (state.goto worker
        (.spaceTop attempt task (state.deques worker).bottom))
  | .spaceTop attempt task b =>
      some (state.goto worker
        (if (options worker).localQueueCapacity.maxSize ≤
            b - (state.deques worker).top then runHere attempt task
         else .offer attempt task))
  | .offer attempt none => some (state.goto worker (.next attempt.count))
  | .offer attempt (some task) =>
      state.onDeque options worker worker (.push (some task))
        fun _ => .pushing attempt task
  | .pushing attempt task =>
      state.onDeque options worker worker .owner
        (state.afterPush worker attempt task)
  | .running attempt =>
      match (state.deques worker).owner with
      | .idle => some (state.goto worker (.next attempt.count))
      | _ => none

def mayOwn (worker : Fin workers) : Bool :=
  match state.points worker with
  | .outside | .running _ => true
  | _ => false

def step : Label workers Task → Option (State workers Task)
  | .own worker call =>
      if state.mayOwn worker then
        state.onDeque options worker worker call.label
          fun _ => state.points worker
      else none
  | .begin worker =>
      match state.points worker, (state.deques worker).owner with
      | .outside, .idle =>
          some (state.goto worker
            (if 1 < workers ∧ (options worker).willSteal then .pick 0
             else .outside))
      | _, _ => none
  | .advance worker drawn => state.advance options worker drawn

end State

def initialState : State workers Task where
  deques _ := TaskDeque.initialState
  points _ := .outside

variable (Task) in
def machine : System (State workers Task) (Label workers Task) where
  initial state := state = initialState
  step state label := state.step options label

/-- What became of a stolen task. -/
inductive Settled (Task : Type) where
  | queued (task : Task)
  | executed (task : Task)
  deriving DecidableEq, Repr

def Settled.task : Settled Task → Task
  | .queued task => task
  | .executed task => task

/-- What a worker's calls of `stealOnce` have done: in the present or last call
the draws, the other workers inside `tryStealTop` of the victim when its size
was read, and the values taken from each worker; and in all calls the stolen
tasks and what became of them. -/
structure Account (workers : Nat) (Task : Type) where
  draws : Nat := 0
  others : Nat := 0
  taken : Fin workers → Nat := fun _ => 0
  stolen : List Task := []
  settled : List (Settled Task) := []

/-- The workers other than `worker` that are inside `tryStealTop`. -/
def otherThieves (worker : Fin workers)
    (deque : TaskDeque.State Task (Fin workers)) : Nat :=
  (Finset.univ.filter fun other => other ≠ worker ∧
    ¬ (deque.thieves other matches .idle)).card

def Account.take (account : Account workers Task) (victim : Fin workers)
    (value : Option Task) : Account workers Task :=
  { account with
    taken := Function.update account.taken victim (account.taken victim + 1)
    stolen := account.stolen ++ value.toList }

def Account.settle (account : Account workers Task) (settled : Settled Task) :
    Account workers Task :=
  { account with settled := account.settled ++ [settled] }

def Account.reopen (account : Account workers Task) : Account workers Task :=
  { account with
    draws := 0
    others := 0
    taken := fun _ => 0 }

def note (worker : Fin workers) (before after : State workers Task)
    (account : Account workers Task) : Account workers Task :=
  match before.points worker, after.points worker with
  | .pick _, .outside => account
  | .pick _, _ => { account with draws := account.draws + 1 }
  | .readSize _ victim, _ =>
      { account with others := otherThieves worker (before.deques victim) }
  | .stealing attempt, .spaceBottom _ value =>
      account.take attempt.victim value
  | .spaceTop _ (some task) _, .running _ => account.settle (.executed task)
  | .pushing _ task, .running _ => account.settle (.executed task)
  | .pushing _ _, _ =>
      match (before.deques worker).owner with
      | .pushBottom task _ => account.settle (.queued task)
      | _ => account
  | _, _ => account

def observe : System.Observer (State workers Task) (Label workers Task)
    (Fin workers → Account workers Task)
  | _, .own _ _, _, accounts => accounts
  | _, .begin worker, _, accounts =>
      Function.update accounts worker (accounts worker).reopen
  | before, .advance worker _, after, accounts =>
      Function.update accounts worker
        (note worker before after (accounts worker))

variable (Task) in
def observed : System (State workers Task × (Fin workers → Account workers Task))
    (Label workers Task) :=
  (machine Task options).withHistory (fun _ => {}) observe

end Steps

end RopHive.Schedule.StealOnce
