import RopHive.Network.Connection
import RopHive.Schedule.KqueueBackend

namespace RopHive.Network

open Transition
open RopHive.Schedule (KqueueFilter KqueueRawEvent PendingOp)

namespace MacErrno

def eintr : Nat := 4
def eio : Nat := 5
def ebadf : Nat := 9
def eagain : Nat := 35
def ewouldblock : Nat := eagain

end MacErrno

structure KqueueTcpConnectionWatcher where
  option : TcpConnectionOption
  callbacks : ConnectionCallbacks

namespace KqueueConnection

open Connection (Request Input inBufSize)

structure State where
  fd : Option Nat
  attached : Bool := false
  peerClosed : Bool := false
  wantSendReady : Bool := false
  closed : Bool := false
  writeAttached : Bool := false
  deriving DecidableEq, Repr

/-- `readLoop` is the head of the loop of `handleRead` and `recv` its call of
the kernel. -/
inductive Point where
  | sendLoop (data : List Byte) (limit total : Nat)
  | sendFailed (err total : Nat)
  | sendReturn (result : TrySendResult)
  | socketError
  | readyFailed
  | readLoop (remaining : Nat)
  | recv (remaining : Nat)
  | readFailed
  deriving DecidableEq, Repr

inductive Action where
  | onRecv (chunk : List Byte)
  | onError (err : Nat)
  | onClose
  | onSendReady
  | register (op : PendingOp KqueueFilter)
  | sent (bytes : List Byte)
  | shutdownWrite
  | closeFd (fd : Nat)
  | returned (result : TrySendResult)
  deriving DecidableEq, Repr

abbrev Turn := Transition.Turn State Point Action

def start (state : State) : State × List Action :=
  if state.attached then (state, [])
  else ({ state with attached := true }, [.register (.add .read)])

def stop (state : State) : State × List Action :=
  if state.attached then
    ({ state with attached := false, writeAttached := false },
      (if state.writeAttached then [Action.register (.remove .write)]
        else []) ++
        [Action.register (.remove .read)])
  else (state, [])

def closeFd : Option Nat → List Action
  | some fd => [.closeFd fd]
  | none => []

def armWritable (state : State) : State × List Action :=
  if state.writeAttached then (state, [])
  else ({ state with writeAttached := true }, [.register (.add .write)])

def disarmWritable (state : State) : State × List Action :=
  if state.writeAttached then
    ({ state with writeAttached := false }, [.register (.remove .write)])
  else (state, [])

variable (watcher : KqueueTcpConnectionWatcher)

def closeNow (state : State) : Turn :=
  if state.closed then .rest state
  else
    let (stopped, actions) := stop { state with closed := true }
    (Turn.callBack { stopped with fd := none } watcher.callbacks.onClose
      .onClose).preceded (actions ++ closeFd stopped.fd)

/-- The head of the loop of `trySend`. -/
def sendWhile (state : State) (data : List Byte) (limit total : Nat) : Turn :=
  if total < limit then .await state (.sendLoop data limit total)
  else (Turn.rest state).preceded [.returned { n := total }]

def trySend (state : State) (data : List Byte) : Turn :=
  match state.fd with
  | none => (Turn.rest state).preceded [.returned { err := MacErrno.ebadf }]
  | some _ =>
      if data = [] then (Turn.rest state).preceded [.returned {}]
      else sendWhile state data
        (min watcher.option.maxWriteBytesPerTick data.length) 0

def sendError (state : State) (err total : Nat) : Turn :=
  (Turn.callBack state watcher.callbacks.onError (.onError err)).andThen
    [.code (.sendFailed err total)]

/-- The rest of a round of the loop of `trySend`. -/
def sendAnswered (state : State) (data : List Byte) (limit total : Nat) :
    SendResult → Option Turn
  | .accepted count =>
      if 0 < count ∧ count ≤ limit - total then
        some ((sendWhile state data limit (total + count)).preceded
          [.sent ((data.drop total).take count)])
      else none
  | .nothing => some (sendError watcher state MacErrno.eio total)
  | .failed errno =>
      if errno = MacErrno.eintr then some (sendWhile state data limit total)
      else if errno = MacErrno.eagain ∨ errno = MacErrno.ewouldblock then
        let (armed, actions) := armWritable { state with wantSendReady := true }
        some ((Turn.rest armed).preceded
          (actions ++ [.returned { n := total, wouldBlock := true }]))
      else some (sendError watcher state errno total)

def afterRead (state : State) : Turn :=
  if state.peerClosed then closeNow watcher state else .rest state

def handleRead (state : State) (remaining : Nat) : Turn :=
  if 0 < remaining then .await state (.recv remaining)
  else afterRead watcher state

/-- The rest of a round of the loop of `handleRead`.  On the descriptor -1 the
kernel has one answer only. -/
def recvAnswered (state : State) (remaining : Nat) :
    RecvResult → Option Turn
  | .received chunk =>
      if state.fd.isSome ∧ 0 < chunk.length ∧
          chunk.length ≤ min remaining inBufSize then
        some ((Turn.callBack state watcher.callbacks.onRecv
          (.onRecv chunk)).andThen
            [.code (.readLoop (remaining - chunk.length))])
      else none
  | .endOfStream =>
      if state.fd.isSome then
        some (afterRead watcher { state with peerClosed := true })
      else none
  | .failed errno =>
      if state.fd.isSome ∨ errno = MacErrno.ebadf then
        if errno = MacErrno.eintr then some (.await state (.readLoop remaining))
        else if errno = MacErrno.eagain ∨ errno = MacErrno.ewouldblock then
          some (afterRead watcher state)
        else
          some ((Turn.callBack state watcher.callbacks.onError
            (.onError errno)).andThen [.code .readFailed])
      else none

/-- The first branch of both handlers of events. -/
def eventError (state : State) (event : KqueueRawEvent) : Turn :=
  if event.data ≠ 0 then
    (Turn.callBack state watcher.callbacks.onError
      (.onError event.data)).andThen [.code .readyFailed]
  else .await state .socketError

def onReadReady (state : State) (event : KqueueRawEvent) : Turn :=
  match state.fd with
  | none => .rest state
  | some _ =>
      if event.error then eventError watcher state event
      else .await { state with peerClosed := event.eof || state.peerClosed }
        (.readLoop watcher.option.maxReadBytesPerTick)

def onWriteReady (state : State) (event : KqueueRawEvent) : Turn :=
  match state.fd with
  | none => .rest state
  | some _ =>
      if event.error then eventError watcher state event
      else if event.eof then closeNow watcher { state with peerClosed := true }
      else if state.wantSendReady then
        let (disarmed, actions) :=
          disarmWritable { state with wantSendReady := false }
        (Turn.callBack disarmed watcher.callbacks.onSendReady
          .onSendReady).preceded actions
      else .rest state

def onReady (state : State) (event : KqueueRawEvent) : Turn :=
  match event.filter with
  | .read => onReadReady watcher state event
  | .write => onWriteReady watcher state event

def call (state : State) : Request → Turn
  | .start => (Turn.rest (start state).1).preceded (start state).2
  | .stop => (Turn.rest (stop state).1).preceded (stop state).2
  | .trySend data => trySend watcher state data
  | .shutdownWrite =>
      match state.fd with
      | none => .rest state
      | some _ => (Turn.rest state).preceded [.shutdownWrite]
  | .close => closeNow watcher state

def resume (state : State) : Point → Input → Option Turn
  | .sendLoop data limit total, .send result =>
      sendAnswered watcher state data limit total result
  | .sendFailed err total, .proceed =>
      some ((closeNow watcher state).andThen
        [.code (.sendReturn { n := total, err := err })])
  | .sendReturn result, .proceed =>
      some ((Turn.rest state).preceded [.returned result])
  | .socketError, .socketError answer =>
      some ((Turn.callBack state watcher.callbacks.onError
        (.onError (if answer.value ≠ 0 then answer.value else
          MacErrno.eio))).andThen [.code .readyFailed])
  | .readyFailed, .proceed => some (closeNow watcher state)
  | .readLoop remaining, .proceed => some (handleRead watcher state remaining)
  | .recv remaining, .recv result =>
      recvAnswered watcher state remaining result
  | .readFailed, .proceed => some (closeNow watcher state)
  | _, _ => none

def program : Program State Request KqueueRawEvent Point Input Action where
  call state request := some (call watcher state request)
  ready state event := some (onReady watcher state event)
  resume := resume watcher

def Fresh (state : State) : Prop := ∃ fd, state = { fd := some fd }

end KqueueConnection

end RopHive.Network
