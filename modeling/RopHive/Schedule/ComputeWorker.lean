import RopHive.Schedule.IOWorker

namespace RopHive.Schedule

/-! The loop of `ComputeWorker::run` and `GlobalComputePool::waitPopBatch`
inside it.  The condition variable is the set of the workers at `waiting`;
one that has been notified is at `lock` again, where it takes `mu_` and
evaluates the predicate anew. -/

inductive ComputeSite (Task : Type) where
  | loop
  | batch (task : Task) (rest : List Task)
  deriving DecidableEq, Repr

inductive ComputePoint (Task : Type) where
  | checkStop (site : ComputeSite Task)
  | checkExit (site : ComputeSite Task)
  | markSleeping
  | lock
  | predicate
  | enterWait
  | waiting
  | popCount (batch : List Task)
  | clearSleeping (batch : List Task)
  | running (rest : List Task)
  | returned
  deriving DecidableEq, Repr

structure ComputeWorker (Task : Type) where
  stopRequested : Bool := false
  sleeping : Bool := false
  point : ComputePoint Task := .checkStop .loop
  deriving DecidableEq, Repr

def ComputeWorker.isWaiting {Task : Type} (worker : ComputeWorker Task) :
    Bool :=
  match worker.point with
  | .waiting => true
  | _ => false

/-- The pool's queue and the worker that holds its `mu_`. -/
structure GlobalComputePool (computers : Nat) (Task : Type) where
  queue : CountedQueue Task := {}
  owner : Option (Fin computers) := none
  deriving DecidableEq, Repr

structure ComputeOutcome (computers : Nat) (Task : Type) where
  worker : ComputeWorker Task
  pool : GlobalComputePool computers Task
  popped : Option (List Task) := none
  started : Option Task := none

namespace ComputeSite

variable {Task : Type}

def onStop : ComputeSite Task → ComputePoint Task
  | .loop => .returned
  | .batch _ _ => .checkStop .loop

end ComputeSite

namespace ComputeWorker

variable {computers : Nat} {Task : Type} (computeBatchSize : Nat)
  (self : Fin computers) (exitRequested : Bool)
  (pool : GlobalComputePool computers Task) (worker : ComputeWorker Task)

def goto (point : ComputePoint Task) : ComputeOutcome computers Task where
  worker := { worker with point }
  pool := pool

def next : List Task → ComputePoint Task
  | [] => .checkStop .loop
  | task :: rest => .checkStop (.batch task rest)

def step : Option (ComputeOutcome computers Task) :=
  match worker.point with
  | .checkStop site =>
      some (worker.goto pool
        (if worker.stopRequested then site.onStop else .checkExit site))
  | .checkExit .loop =>
      some (worker.goto pool
        (if exitRequested then .returned else .markSleeping))
  | .checkExit (.batch task rest) =>
      if exitRequested then some (worker.goto pool (.checkStop .loop))
      else
        some { worker.goto pool (.running rest) with started := some task }
  | .markSleeping =>
      some ({ worker with sleeping := true }.goto pool
        (if computeBatchSize = 0 then .checkStop .loop else .lock))
  | .lock =>
      match pool.owner with
      | none => some (worker.goto { pool with owner := some self } .predicate)
      | some _ => none
  | .predicate =>
      match pool.queue.q.take computeBatchSize with
      | [] =>
          if exitRequested then
            some (worker.goto { pool with owner := none } (.checkStop .loop))
          else some (worker.goto pool .enterWait)
      | batch =>
          some { worker.goto { pool with
              queue := { pool.queue with
                q := pool.queue.q.drop computeBatchSize }
              owner := none } (.popCount batch) with
            popped := some batch }
  | .enterWait => some (worker.goto { pool with owner := none } .waiting)
  -- A spurious wakeup.
  | .waiting => some (worker.goto pool .lock)
  | .popCount batch =>
      some (worker.goto { pool with
        queue := { pool.queue with
          approxSize := pool.queue.approxSize - batch.length } }
          (.clearSleeping batch))
  | .clearSleeping batch =>
      some ({ worker with sleeping := false }.goto pool (next batch))
  | .running rest => some (worker.goto pool (next rest))
  | .returned => none

end ComputeWorker

end RopHive.Schedule
