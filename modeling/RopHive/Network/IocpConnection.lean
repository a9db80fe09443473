import RopHive.Network.Connection
import RopHive.Network.IocpCompletion

namespace RopHive.Network

open Transition
open RopHive.Schedule (PendingOp)

namespace WsaError

def ioIncomplete : Nat := 996
def ioPending : Nat := 997
def ebadf : Nat := 10009
def einval : Nat := 10022

end WsaError

/-- What WSARecv, WSASend and AcceptEx return. -/
inductive WsaAnswer where
  | ok
  | error (code : Nat)
  deriving DecidableEq, Repr

def WsaAnswer.failure : WsaAnswer → Option Nat
  | .ok => none
  | .error code => if code = WsaError.ioPending then none else some code

structure IocpTcpConnectionWatcher where
  option : TcpConnectionOption
  callbacks : ConnectionCallbacks

namespace IocpConnection

structure State where
  fd : Option Nat
  attached : Bool := false
  peerClosed : Bool := false
  wantSendReady : Bool := false
  closed : Bool := false
  receiving : Bool := false
  sending : Bool := false
  sendBuf : List Byte := []
  deriving DecidableEq, Repr

/-- The two OVERLAPPED of the watcher, each with its buffer. -/
inductive Side where
  | recv
  | send
  deriving DecidableEq, Repr

/-- How an operation ends; a receive leaves its bytes in `in_buf_`. -/
inductive Outcome where
  | done (data : List Byte)
  | failed (err : Nat)
  deriving DecidableEq, Repr

/-- A call with the answer of the kernel to the operation it may post. -/
inductive Request where
  | start (answer : WsaAnswer)
  | stop
  | trySend (data : List Byte) (answer : WsaAnswer)
  | shutdownWrite
  | close
  deriving DecidableEq, Repr

/-- What is left behind a callback: of `startRecv`, `trySend`, both completion
handlers where they report an error, and `onRecvComplete`. -/
inductive Point where
  | recvFailed
  | sendFailed (err : Nat)
  | sendReturn (result : TrySendResult)
  | completionFailed
  | received
  deriving DecidableEq, Repr

inductive Input where
  | proceed
  | recv (answer : WsaAnswer)
  deriving DecidableEq, Repr

inductive Action where
  | onRecv (chunk : List Byte)
  | onError (err : Nat)
  | onClose
  | onSendReady
  | register (op : PendingOp Unit)
  | zero (side : Side)
  | post (side : Side)
  | writeSendBuf
  | shutdownWrite
  | closeFd (fd : Nat)
  | returned (result : TrySendResult)
  deriving DecidableEq, Repr

abbrev Turn := Transition.Turn State Point Action

variable (watcher : IocpTcpConnectionWatcher)

def stop (state : State) : State × List Action :=
  if state.attached then
    ({ state with attached := false }, [.register (.remove ())])
  else (state, [])

def closeFd : Option Nat → List Action
  | some fd => [.closeFd fd]
  | none => []

def closeNow (state : State) : Turn :=
  if state.closed then .rest state
  else
    let (stopped, actions) := stop { state with closed := true }
    (Turn.callBack { stopped with fd := none } watcher.callbacks.onClose
      .onClose).preceded (actions ++ closeFd stopped.fd)

def startRecv (state : State) (answer : WsaAnswer) : Turn :=
  if state.fd = none ∨ state.receiving then .rest state
  else
    match answer.failure with
    | some err =>
        ((Turn.callBack state watcher.callbacks.onError
          (.onError err)).andThen [.code .recvFailed]).preceded [.zero .recv]
    | none =>
        (Turn.rest { state with receiving := true }).preceded
          [.zero .recv, .post .recv]

def start (state : State) (answer : WsaAnswer) : Turn :=
  if state.attached then .rest state
  else
    (startRecv watcher { state with attached := true } answer).preceded
      [.register (.add ())]

/-- `trySend` where no send is under way. -/
def postSend (state : State) (data : List Byte) (answer : WsaAnswer) : Turn :=
  let sendBuf :=
    data.take (min watcher.option.maxWriteBytesPerTick data.length)
  match answer.failure with
  | some err =>
      ((Turn.callBack { state with
          sending := false
          sendBuf := [] } watcher.callbacks.onError (.onError err)).andThen
            [.code (.sendFailed err)]).preceded
              [.writeSendBuf, .zero .send, .writeSendBuf]
  | none =>
      (Turn.rest { state with
        sending := true
        sendBuf }).preceded [.writeSendBuf, .zero .send, .post .send,
          .returned { n := sendBuf.length }]

def trySend (state : State) (data : List Byte) (answer : WsaAnswer) : Turn :=
  match state.fd with
  | none => (Turn.rest state).preceded [.returned { err := WsaError.ebadf }]
  | some _ =>
      if data = [] then (Turn.rest state).preceded [.returned {}]
      else if state.sending then
        (Turn.rest { state with wantSendReady := true }).preceded
          [.returned { wouldBlock := true }]
      else postSend watcher state data answer

def completionError (state : State) (err : Nat) : Turn :=
  (Turn.callBack state watcher.callbacks.onError (.onError err)).andThen
    [.code .completionFailed]

def onRecvComplete (state : State) (outcome : Outcome) : Turn :=
  let state := { state with receiving := false }
  match outcome with
  | .failed err => completionError watcher state err
  | .done [] => closeNow watcher { state with peerClosed := true }
  | .done data =>
      (Turn.callBack state watcher.callbacks.onRecv (.onRecv data)).andThen
        [.code .received]

def onSendComplete (state : State) (outcome : Outcome) : Turn :=
  let state := { state with sending := false }
  match outcome with
  | .failed err => completionError watcher state err
  | .done _ =>
      let state := { state with sendBuf := [] }
      if state.wantSendReady ∧ ¬ state.closed then
        (Turn.callBack { state with wantSendReady := false }
          watcher.callbacks.onSendReady .onSendReady).preceded [.writeSendBuf]
      else (Turn.rest state).preceded [.writeSendBuf]

def onCompletion (state : State) (side : Side) (outcome : Outcome) : Turn :=
  if state.fd = none ∨ state.closed then .rest state
  else
    match side with
    | .recv => onRecvComplete watcher state outcome
    | .send => onSendComplete watcher state outcome

def call (state : State) : Request → Turn
  | .start answer => start watcher state answer
  | .stop => (Turn.rest (stop state).1).preceded (stop state).2
  | .trySend data answer => trySend watcher state data answer
  | .shutdownWrite =>
      match state.fd with
      | none => .rest state
      | some _ => (Turn.rest state).preceded [.shutdownWrite]
  | .close => closeNow watcher state

def resume (state : State) : Point → Input → Option Turn
  | .recvFailed, .proceed | .completionFailed, .proceed =>
      some (closeNow watcher state)
  | .sendFailed err, .proceed =>
      some ((closeNow watcher state).andThen [.code (.sendReturn { err })])
  | .sendReturn result, .proceed =>
      some ((Turn.rest state).preceded [.returned result])
  | .received, .recv answer =>
      if state.closed then some (.rest state)
      else some (startRecv watcher state answer)
  | _, _ => none

def program : Program State Request (Side × Outcome) Point Input Action where
  call state request := some (call watcher state request)
  ready state event := some (onCompletion watcher state event.1 event.2)
  resume := resume watcher

def effect : Action → Option (IocpEffect Side Side)
  | .register op => some (.register op)
  | .zero side => some (.reset side)
  | .post side => some (.post side)
  | .writeSendBuf => some (.touch .send)
  | _ => none

/-- Each OVERLAPPED has one kind of operation. -/
def component : IocpComponent where
  State := State
  Request := Request
  Point := Point
  Input := Input
  Action := Action
  Op := Side
  Record := Side
  Result := Outcome
  decidableOp := inferInstance
  decidableRecord := inferInstance
  program := program watcher
  fresh state := ∃ fd, state = { fd := some fd }
  record := id
  zeroed := .done []
  incomplete := .failed WsaError.ioIncomplete
  effect := effect

end IocpConnection

end RopHive.Network
