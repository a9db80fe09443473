import RopHive.Data.BatchQueue
import RopHive.Schedule.IOWorker
import RopHive.Transition.History
import RopHive.Transition.Threads

namespace RopHive.Schedule.GlobalPool

open Transition

/-! `GlobalMicroPool`, `GlobalComputePool` and the exit flag of a `Hive`, with
any threads that call them.  A locked section is one step, except that
`waitPopBatch` keeps `mu_` from its predicate into the wait set of `cv_`. -/

inductive Request (Task : Type) where
  | pushMicro (task : Option Task)
  | tryPopBatch (maxN : Nat)
  | pushCompute (task : Option Task)
  | waitPopBatch (maxN : Nat)
  | requestExit
  deriving DecidableEq

/-- Where a thread stands in a call. -/
inductive Call (Task : Type) where
  | idle
  | microPush (task : Task)
  | microCount
  | tryPop (maxN : Nat)
  | tryPopCount (batch : List Task)
  | computePush (task : Task)
  | computeCount
  | computeNotify
  | waitLock (maxN : Nat)
  | waitPredicate (maxN : Nat)
  | waitEnter (maxN : Nat)
  | waiting (maxN : Nat)
  | waitPopCount (batch : List Task)
  | exitExchange
  | notifyAll
  deriving DecidableEq

structure State (Thread Task : Type) where
  globalMicro : CountedQueue Task := {}
  globalCompute : CountedQueue Task := {}
  /-- The thread that holds `mu_` of the compute pool between steps. -/
  owner : Option Thread := none
  exitRequested : Bool := false
  calls : Thread → Call Task := fun _ => .idle
  /-- The vector that each thread passes to the pools. -/
  out : Thread → List Task := fun _ => []
  returned : Thread → Nat := fun _ => 0

inductive Label (Thread Task : Type) where
  | call (thread : Thread) (request : Request Task)
  | advance (thread : Thread) (waiter : Option Thread)

namespace Call

variable {Task : Type}

def isWaiting : Call Task → Bool
  | .waiting _ => true
  | _ => false

/-- What `notify_all` does to a thread: in the wait set it goes back to
taking `mu_`. -/
def released : Call Task → Call Task
  | .waiting maxN => .waitLock maxN
  | call => call

end Call

namespace State

variable {Thread Task : Type} [DecidableEq Thread]
  (state : State Thread Task)

def setCall (thread : Thread) (call : Call Task) : State Thread Task :=
  { state with calls := Function.update state.calls thread call }

/-- A pop returns `n` and leaves `out` in the caller's vector. -/
def giveBack (thread : Thread) (out : List Task) (n : Nat) :
    State Thread Task :=
  { state with
    out := Function.update state.out thread out
    returned := Function.update state.returned thread n }

def clearOut (thread : Thread) : State Thread Task :=
  { state with out := Function.update state.out thread [] }

def begin (thread : Thread) : Request Task → State Thread Task
  | .pushMicro none | .pushCompute none => state
  | .pushMicro (some task) => state.setCall thread (.microPush task)
  | .pushCompute (some task) => state.setCall thread (.computePush task)
  | .tryPopBatch maxN =>
      if maxN = 0 then state.giveBack thread [] 0
      else (state.clearOut thread).setCall thread (.tryPop maxN)
  | .waitPopBatch maxN =>
      if maxN = 0 then state.giveBack thread [] 0
      else (state.clearOut thread).setCall thread (.waitLock maxN)
  | .requestExit => state.setCall thread .exitExchange

variable [Fintype Thread]

/-- One step of a call: what it does to the shared state, and the call's next
point.  `waiter` is the thread that `notify_one` picks. -/
def callEffect (thread : Thread) (waiter : Option Thread) :
    Call Task → Option (State Thread Task × Call Task)
  | .idle => none
  | .microPush task =>
      some ({ state with
        globalMicro := { state.globalMicro with
          q := state.globalMicro.q ++ [task] } }, .microCount)
  | .microCount =>
      some ({ state with
        globalMicro := { state.globalMicro with
          approxSize := state.globalMicro.approxSize + 1 } }, .idle)
  | .tryPop maxN =>
      match state.globalMicro.q.take maxN with
      | [] => some (state.giveBack thread [] 0, .idle)
      | batch =>
          some ({ state with
            globalMicro := { state.globalMicro with
              q := state.globalMicro.q.drop maxN } }, .tryPopCount batch)
  | .tryPopCount batch =>
      some ({ state with
        globalMicro := { state.globalMicro with
          approxSize := state.globalMicro.approxSize - batch.length
            } }.giveBack thread batch batch.length, .idle)
  | .computePush task =>
      match state.owner with
      | some _ => none
      | none =>
          some ({ state with
            globalCompute := { state.globalCompute with
              q := state.globalCompute.q ++ [task] } }, .computeCount)
  | .computeCount =>
      some ({ state with
        globalCompute := { state.globalCompute with
          approxSize := state.globalCompute.approxSize + 1 } },
        .computeNotify)
  | .computeNotify =>
      match waiter with
      | some other =>
          if (state.calls other).isWaiting then
            some (state.setCall other (state.calls other).released, .idle)
          else none
      | none =>
          if ∃ other, (state.calls other).isWaiting then none
          else some (state, .idle)
  | .waitLock maxN =>
      match state.owner with
      | some _ => none
      | none => some ({ state with owner := some thread }, .waitPredicate maxN)
  | .waitPredicate maxN =>
      match state.globalCompute.q.take maxN with
      | [] =>
          if state.exitRequested then
            some ({ state with owner := none }.giveBack thread [] 0, .idle)
          else some (state, .waitEnter maxN)
      | batch =>
          some ({ state with
            globalCompute := { state.globalCompute with
              q := state.globalCompute.q.drop maxN }
            owner := none }, .waitPopCount batch)
  | .waitEnter maxN => some ({ state with owner := none }, .waiting maxN)
  -- A spurious wakeup.
  | .waiting maxN => some (state, .waitLock maxN)
  | .waitPopCount batch =>
      some ({ state with
        globalCompute := { state.globalCompute with
          approxSize := state.globalCompute.approxSize - batch.length
            } }.giveBack thread batch batch.length, .idle)
  | .exitExchange =>
      if state.exitRequested then some (state, .idle)
      else some ({ state with exitRequested := true }, .notifyAll)
  | .notifyAll =>
      some ({ state with
        calls := fun other => (state.calls other).released }, .idle)

def callStep (thread : Thread) (waiter : Option Thread) :
    Option (State Thread Task) :=
  (state.callEffect thread waiter (state.calls thread)).map fun effect =>
    effect.1.setCall thread effect.2

def step : Label Thread Task → Option (State Thread Task)
  | .call thread request =>
      match state.calls thread with
      | .idle => some (state.begin thread request)
      | _ => none
  | .advance thread waiter => state.callStep thread waiter

end State

section Machine

variable (Thread Task : Type) [DecidableEq Thread] [Fintype Thread]

def machine : System (State Thread Task) (Label Thread Task) where
  initial state := state = {}
  step state label := state.step label

/-- What each pool took in and gave out, in the order of the locked sections. -/
structure Ledgers where
  micro : BatchQueue.Ledger Thread Task := {}
  compute : BatchQueue.Ledger Thread Task := {}

variable {Thread Task}

def noteMicro (thread : Thread) (before after : State Thread Task)
    (ledger : BatchQueue.Ledger Thread Task) : BatchQueue.Ledger Thread Task :=
  match before.calls thread, after.calls thread with
  | .microPush task, _ => ledger.push task
  | .tryPop maxN, .tryPopCount batch => ledger.pop ⟨thread, maxN, batch⟩
  | .tryPop _, .idle | .tryPopCount _, .idle =>
      ledger.hand ⟨thread, after.out thread, after.returned thread⟩
  | _, _ => ledger

def noteCompute (thread : Thread) (before after : State Thread Task)
    (ledger : BatchQueue.Ledger Thread Task) : BatchQueue.Ledger Thread Task :=
  match before.calls thread, after.calls thread with
  | .computePush task, _ => ledger.push task
  | .waitPredicate maxN, .waitPopCount batch =>
      ledger.pop ⟨thread, maxN, batch⟩
  | .waitPredicate _, .idle | .waitPopCount _, .idle =>
      ledger.hand ⟨thread, after.out thread, after.returned thread⟩
  | _, _ => ledger

def observe : System.Observer (State Thread Task) (Label Thread Task)
    (Ledgers Thread Task)
  | _, .call _ _, _, ledgers => ledgers
  | before, .advance thread _, after, ledgers =>
      { micro := noteMicro thread before after ledgers.micro
        compute := noteCompute thread before after ledgers.compute }

def observed : System (State Thread Task × Ledgers Thread Task)
    (Label Thread Task) :=
  (machine Thread Task).withHistory {} observe

end Machine

end RopHive.Schedule.GlobalPool
