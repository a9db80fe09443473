import RopHive.Schedule.IOWorker
import RopHive.TaskDeque.WordMachine
import RopHive.Transition.History

namespace RopHive.Schedule.LocalLoop

open Transition

/-! `IOWorker::run` on the worker's own `TaskDeque`, one step for each of its
loads, stores and read-modify-writes, with any number of thieves.  What the
worker reads of the rest of the hive is given with each step. -/

/-- Where the worker's thread stands with its own deque: in its loop, in one
of the calls of the loop, or in a `postToLocal` of user code. -/
inductive Stage (workers : Nat) (Task : Type) where
  | loop
  | popping (ran : Nat)
  | spaceTop (haul : Haul workers Task) (task : Task) (b : Nat)
  | pushing (haul : Haul workers Task) (task : Task)
  | postSpace (task : Task) (b : Nat)
  | postPush (task : Task)
  | posting (task : Task)
  deriving DecidableEq, Repr

/-- `worker` is everything but the deque. -/
structure State (workers : Nat) (Task Thief : Type) where
  worker : IOWorker workers Task
  deque : TaskDeque.State Task Thief
  stage : Stage workers Task

/-- `go` takes the worker's next step, `post` begins `postToLocal` in a task
or handler; `disturb` is what other threads do to the worker's other fields. -/
inductive Label (workers : Nat) (Task Thief : Type) where
  | go (choice : Choice workers) (view : View workers Task)
  | post (task : Task)
  | disturb (inbound : CountedQueue (InboundCommand Task)) (wakeup : Nat)
      (stopRequested : Bool)
  | steal (thief : Thief)
  | thief (thief : Thief)

section Steps

variable {workers : Nat} {Task Thief : Type} [DecidableEq Thief]
  (width : Nat) (options : Options) (self : Fin workers)

/-- `maxSize() - used`, or zero: there is no space. -/
def full (top b : Nat) : Bool :=
  IOWorker.maxLocal options ≤ (if top ≤ b then b - top else 0)

/-- `tryPopBottom` has returned nothing. -/
def drained (ran : Nat) : IOPoint workers Task :=
  if ran ≠ 0 then .checkStop .loop else .harvestPop

namespace State

variable (state : State workers Task Thief)

def goto (point : IOPoint workers Task) : State workers Task Thief :=
  { state with
    worker := { state.worker with point }
    stage := .loop }

/-- A step of the deque, after which the thread goes on as given by the deque
after it. -/
def onDeque (label : TaskDeque.Label Task Thief)
    (onward : TaskDeque.State Task Thief → State workers Task Thief →
      State workers Task Thief) : Option (State workers Task Thief) :=
  (state.deque.wordStep width options.localQueueCapacity label).map
    fun deque => onward deque { state with deque }

/-- Behind a step of `tryPopBottom` in `runLocalBatch`. -/
def afterPop (ran : Nat) (deque : TaskDeque.State Task Thief)
    (after : State workers Task Thief) : State workers Task Thief :=
  match deque.owner with
  | .idle =>
      match state.deque.popped options.localQueueCapacity with
      | none => after.goto (drained ran)
      | some (some _) => after.goto (.running (.localBatch (ran + 1)))
      | some none => after.goto (.checkStop (.task (.localBatch (ran + 1))))
  | _ => { after with stage := .popping ran }

/-- The deque is about to return true from `tryPushBottom`. -/
def accepts : Bool := state.deque.owner matches .pushSize

/-- Behind a step of `tryPushBottom` in `harvestGlobalBatch` or `stealOnce`. -/
def afterPush (haul : Haul workers Task) (task : Task)
    (deque : TaskDeque.State Task Thief)
    (after : State workers Task Thief) : State workers Task Thief :=
  match deque.owner with
  | .idle =>
      after.goto (if state.accepts then haul.next else .running (.inline haul))
  | _ => { after with stage := .pushing haul task }

/-- Behind a step of `tryPushBottom` in `postToLocal`; a refused task goes to
the global pool. -/
def afterPost (task : Task) (deque : TaskDeque.State Task Thief)
    (after : State workers Task Thief) : State workers Task Thief :=
  match deque.owner with
  | .idle => { after with stage := .loop }
  | _ => { after with stage := .posting task }

def loopStep (choice : Choice workers) (view : View workers Task) :
    Option (State workers Task Thief) :=
  match state.worker.point with
  | .readLocal =>
      -- `approxSize` is a load of `size_`.
      some (state.goto
        (if state.deque.size % 2 ^ width ≠ 0 then .enterWait 0
         else .readGlobal))
  | .localPop ran =>
      if ran < options.localBatchSize then
        state.onDeque width options .pop (state.afterPop options ran)
      else some (state.goto (drained ran))
  | .offerSpace haul task =>
      some { state with stage := .spaceTop haul task state.deque.bottom }
  | .offerPush haul task =>
      state.onDeque width options (.push (some task))
        fun _ after => { after with stage := .pushing haul task }
  | _ =>
      (state.worker.step options self view choice).map fun outcome =>
        { state with worker := outcome.worker }

def go (choice : Choice workers) (view : View workers Task) :
    Option (State workers Task Thief) :=
  match state.stage with
  | .loop => state.loopStep width options self choice view
  | .popping ran =>
      state.onDeque width options .owner (state.afterPop options ran)
  | .spaceTop haul task b =>
      some (state.goto
        (if full options state.deque.top b then .running (.inline haul)
         else .offerPush haul task))
  | .pushing haul task =>
      state.onDeque width options .owner (state.afterPush haul task)
  | .postSpace task b =>
      some { state with
        stage := if full options state.deque.top b then .loop
          else .postPush task }
  | .postPush task =>
      state.onDeque width options (.push (some task))
        fun _ after => { after with stage := .posting task }
  | .posting task =>
      state.onDeque width options .owner (afterPost task)

def mayPost : Bool :=
  match state.stage, state.worker.point with
  | .loop, .running _ | .loop, .dispatching _ _ => true
  | _, _ => false

def step : Label workers Task Thief → Option (State workers Task Thief)
  | .go choice view => state.go width options self choice view
  | .post task =>
      if state.mayPost then
        some { state with stage := .postSpace task state.deque.bottom }
      else none
  | .disturb inbound wakeup stopRequested =>
      some { state with
        worker := { state.worker with inbound, wakeup, stopRequested } }
  | .steal thief => state.onDeque width options (.steal thief) fun _ => id
  | .thief thief => state.onDeque width options (.thief thief) fun _ => id

end State

def initialState : State workers Task Thief where
  worker := {}
  deque := TaskDeque.initialState
  stage := .loop

variable (Task Thief) in
def machine : System (State workers Task Thief)
    (Label workers Task Thief) where
  initial state := state = initialState
  step state label := state.step width options self label

/-- No push is published while `bottom_` is the largest value of its type. -/
def mayPublish (state : State workers Task Thief)
    (_ : Label workers Task Thief) : Prop :=
  state.deque.mayPublish width = true

instance (state : State workers Task Thief)
    (label : Label workers Task Thief) :
    Decidable (mayPublish width state label) :=
  inferInstanceAs (Decidable (_ = true))

/-- The batch of the present or last harvest, and what it has put into the
deque so far. -/
structure Harvest (Task : Type) where
  batch : List Task := []
  queued : List Task := []
  deriving DecidableEq, Repr

def observe : System.Observer (State workers Task Thief)
    (Label workers Task Thief) (Harvest Task)
  | before, .go _ _, after, harvest =>
      match before.stage, before.worker.point, after.worker.point with
      | .loop, .harvestPop, .harvestCount batch => ⟨batch, []⟩
      | .pushing (.harvest _) _, _, _ =>
          match before.deque.owner with
          | .pushBottom task _ =>
              { harvest with queued := harvest.queued ++ [task] }
          | _ => harvest
      | _, _, _ => harvest
  | _, _, _, harvest => harvest

variable (Task Thief) in
def observed : System (State workers Task Thief × Harvest Task)
    (Label workers Task Thief) :=
  (machine Task Thief width options self).withHistory {} observe

end Steps

end RopHive.Schedule.LocalLoop
