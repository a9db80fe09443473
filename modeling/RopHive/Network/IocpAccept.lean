import RopHive.Network.Accept
import RopHive.Network.IocpConnection

namespace RopHive.Network

open Transition
open RopHive.Schedule (PendingOp)

structure IocpTcpAcceptWatcher where
  option : TcpAcceptOption
  /-- The driver of the listening socket has an AcceptEx. -/
  acceptEx : Bool
  /-- Which of the two callbacks are non-empty functions. -/
  onAccept : Bool
  onError : Bool := false

namespace IocpAccept

/-- A slot. Accept sockets go by the order in which they are made, and a buffer
goes by the socket it was made for. -/
structure AcceptOp where
  acceptFd : Option Nat := none
  buffer : Option Nat := none
  inFlight : Bool := false
  deriving DecidableEq, Repr

/-- `sockets` counts the accept sockets made so far. -/
structure State where
  attached : Bool := false
  ops : List AcceptOp := []
  sockets : Nat := 0
  deriving DecidableEq, Repr

/-- A call of AcceptEx: the slot whose OVERLAPPED and buffer it is given, and
the accept socket. -/
structure AcceptEx where
  slot : Nat
  fd : Nat
  deriving DecidableEq, Repr

structure WindowsTcpStream where
  fd : Option Nat
  acceptBuffer : Option Nat
  deriving DecidableEq, Repr

inductive Outcome where
  | done
  | failed (err : Nat)
  deriving DecidableEq, Repr

inductive Request where
  | start
  | stop
  deriving DecidableEq, Repr

/-- What is left to do: the loop of `start` from a slot on, the last line of
`onCompletion`, and what `postAccept` does behind `on_error_` when AcceptEx has
failed. -/
inductive Point where
  | posting (slot : Nat)
  | reposting (slot : Nat)
  | cleanup (slot : Nat)
  deriving DecidableEq, Repr

/-- `createAcceptSocket` fails, or AcceptEx answers. -/
inductive Answer where
  | noSocket (err : Nat)
  | accept (answer : WsaAnswer)
  deriving DecidableEq, Repr

inductive Input where
  | proceed
  | posted (answer : Answer)
  deriving DecidableEq, Repr

inductive Action where
  | onAccept (stream : WindowsTcpStream)
  | onError (err : Nat)
  | register (op : PendingOp Unit)
  /-- `postAccept` is entered. -/
  | postAccept (slot : Nat)
  /-- The buffer and the OVERLAPPED are made anew. -/
  | renew (slot : Nat)
  | acceptEx (op : AcceptEx)
  /-- The slot gives up its socket and its buffer. -/
  | vacate (slot : Nat)
  | closeFd (fd : Nat)
  deriving DecidableEq, Repr

abbrev Turn := Transition.Turn State Point Action

def State.op (state : State) (slot : Nat) : AcceptOp :=
  state.ops.getD slot {}

def State.setOp (state : State) (slot : Nat) (op : AcceptOp) : State :=
  { state with ops := state.ops.set slot op }

def resize (ops : List AcceptOp) (depth : Nat) : List AcceptOp :=
  ops.take depth ++ List.replicate (depth - ops.length) ({} : AcceptOp)

def closeFd : Option Nat → List Action
  | some fd => [.closeFd fd]
  | none => []

variable (watcher : IocpTcpAcceptWatcher)

def depth : Nat := max 1 (min watcher.option.maxAcceptPerTick 32)

def postAccept (state : State) (slot : Nat) (answer : Answer) : Turn :=
  if ¬ state.attached then (Turn.rest state).preceded [.postAccept slot]
  else
    let op := state.op slot
    match answer with
    | .noSocket err =>
        (Turn.callBack (state.setOp slot { op with acceptFd := none })
          watcher.onError (.onError err)).preceded
            (.postAccept slot :: closeFd op.acceptFd)
    | .accept answer =>
        let fd := state.sockets
        let op' : AcceptOp := { op with
          acceptFd := some fd
          buffer := some fd }
        let state := { state with sockets := fd + 1 }
        match answer.failure with
        | some err =>
            ((Turn.callBack (state.setOp slot op') watcher.onError
              (.onError err)).andThen [.code (.cleanup slot)]).preceded
                (.postAccept slot :: closeFd op.acceptFd ++ [.renew slot])
        | none =>
            (Turn.rest (state.setOp slot { op' with inFlight := true })).preceded
              (.postAccept slot :: closeFd op.acceptFd ++
                [.renew slot, .acceptEx ⟨slot, fd⟩])

def start (state : State) : Turn :=
  if state.attached then .rest state
  else if ¬ watcher.acceptEx then
    .callBack state watcher.onError (.onError WsaError.einval)
  else
    (Turn.await { state with
      attached := true
      ops := resize state.ops (depth watcher) } (.posting 0)).preceded
        [.register (.add ())]

def stop (state : State) : State × List Action :=
  if state.attached then
    ({ state with attached := false }, [.register (.remove ())])
  else (state, [])

/-- Without `on_accept_` the stream closes its socket. -/
def handOver (state : State) (stream : WindowsTcpStream) : Turn :=
  if watcher.onAccept then ⟨state, [.user], [.onAccept stream]⟩
  else ⟨state, [], closeFd stream.fd⟩

def onCompletion (state : State) (slot : Nat) (outcome : Outcome) : Turn :=
  if ¬ state.attached ∨ ¬ slot < state.ops.length then .rest state
  else
    let op := state.op slot
    let state := state.setOp slot {
      acceptFd := none
      buffer := none
      inFlight := false }
    match outcome with
    | .failed err =>
        ((Turn.callBack state watcher.onError (.onError err)).andThen
          [.code (.reposting slot)]).preceded
            (.vacate slot :: closeFd op.acceptFd)
    | .done =>
        ((handOver watcher state ⟨op.acceptFd, op.buffer⟩).andThen
          [.code (.reposting slot)]).preceded [.vacate slot]

def call (state : State) : Request → Turn
  | .start => start watcher state
  | .stop => (Turn.rest (stop state).1).preceded (stop state).2

def cleanup (state : State) (slot : Nat) : Turn :=
  let op := state.op slot
  (Turn.rest (state.setOp slot { op with
    acceptFd := none
    buffer := none })).preceded (.vacate slot :: closeFd op.acceptFd)

def resume (state : State) : Point → Input → Option Turn
  | .posting slot, .posted answer =>
      if slot < state.ops.length then
        some ((postAccept watcher state slot answer).andThen
          [.code (.posting (slot + 1))])
      else none
  | .posting slot, .proceed =>
      if slot < state.ops.length then none else some (.rest state)
  | .reposting slot, .posted answer =>
      some (postAccept watcher state slot answer)
  | .cleanup slot, .proceed => some (cleanup state slot)
  | _, _ => none

def program : Program State Request (Nat × Outcome) Point Input Action where
  call state request := some (call watcher state request)
  ready state event := some (onCompletion watcher state event.1 event.2)
  resume := resume watcher

def effect : Action → Option (IocpEffect AcceptEx Nat)
  | .register op => some (.register op)
  | .postAccept slot | .vacate slot => some (.touch slot)
  | .renew slot => some (.reset slot)
  | .acceptEx op => some (.post op)
  | _ => none

def component : IocpComponent where
  State := State
  Request := Request
  Point := Point
  Input := Input
  Action := Action
  Op := AcceptEx
  Record := Nat
  Result := Outcome
  decidableOp := inferInstance
  decidableRecord := inferInstance
  program := program watcher
  fresh state := state = {}
  record := AcceptEx.slot
  zeroed := .done
  incomplete := .failed WsaError.ioIncomplete
  effect := effect

end IocpAccept

end RopHive.Network
