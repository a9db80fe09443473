import RopHive.Network.Socket
import RopHive.Transition.Reentrant

namespace RopHive.Network

open Transition

structure TcpConnectionOption where
  maxReadBytesPerTick : Nat := 256 * 1024
  maxWriteBytesPerTick : Nat := 256 * 1024

/-- Which of the callbacks handed to the watcher are non-empty functions. -/
structure ConnectionCallbacks where
  onRecv : Bool
  onClose : Bool := false
  onError : Bool := false
  onSendReady : Bool := false

structure TcpConnectionWatcher where
  backend : Backend
  option : TcpConnectionOption
  callbacks : ConnectionCallbacks

def epollTcpConnectionWatcher (option : TcpConnectionOption)
    (callbacks : ConnectionCallbacks) : TcpConnectionWatcher :=
  ⟨.epoll, option, callbacks⟩

def pollTcpConnectionWatcher (option : TcpConnectionOption)
    (callbacks : ConnectionCallbacks) : TcpConnectionWatcher :=
  ⟨.poll, option, callbacks⟩

structure TrySendResult where
  n : Nat := 0
  wouldBlock : Bool := false
  err : Nat := 0
  deriving DecidableEq, Repr

namespace Connection

structure State where
  fd : Option Nat
  attached : Bool := false
  peerClosed : Bool := false
  wantSendReady : Bool := false
  closed : Bool := false
  armedEvents : Events
  deriving DecidableEq, Repr

inductive Request where
  | start
  | stop
  | trySend (data : List Byte)
  | shutdownWrite
  | close
  deriving DecidableEq, Repr

inductive Point where
  | sendLoop (data : List Byte) (limit total : Nat)
  | sendFailed (err total : Nat)
  | sendReturn (result : TrySendResult)
  | socketError
  | readyFailed
  | readLoop (remaining : Nat)
  | readFailed
  | afterRead (writable : Bool)
  deriving DecidableEq, Repr

/-- The answer a point waits for; `proceed` where it only waits for the frames
above it. -/
inductive Input where
  | recv (result : RecvResult)
  | send (result : SendResult)
  | socketError (answer : SocketError)
  | proceed
  deriving DecidableEq, Repr

/-- Calls of the user, of the event loop and of the kernel, and the returns of
`stop` and `trySend`. -/
inductive Action where
  | onRecv (chunk : List Byte)
  | onError (err : Nat)
  | onClose
  | onSendReady
  | attachSource
  | detachSource
  | setEvents (events : Events)
  | sent (bytes : List Byte)
  | shutdownWrite
  | closeFd (fd : Nat)
  | started
  | stopped
  | returned (result : TrySendResult)
  deriving DecidableEq, Repr

abbrev Turn := Transition.Turn State Point Action

/-- Size of `in_buf_`. -/
def inBufSize : Nat := 64 * 1024

def interest : Backend → Events
  | .epoll =>
      { readable := true, error := true, hangUp := true, readHangUp := true }
  | .poll => { readable := true, error := true, hangUp := true }

/-- The bits `onReady` takes for a close by the peer. -/
def hungUp : Backend → Events → Bool
  | .epoll, events => events.hangUp || events.readHangUp
  | .poll, events => events.hangUp

def start (state : State) : State × List Action :=
  if state.attached then (state, [.started])
  else ({ state with attached := true }, [.attachSource, .started])

def stop (state : State) : State × List Action :=
  if state.attached then
    ({ state with attached := false }, [.detachSource, .stopped])
  else (state, [.stopped])

def closeFd : Option Nat → List Action
  | some fd => [.closeFd fd]
  | none => []

variable (watcher : TcpConnectionWatcher)

def rearm (state : State) (want : Events) : State × List Action :=
  if want = state.armedEvents then (state, [])
  else ({ state with armedEvents := want }, [.setEvents want])

def armWritable (state : State) : State × List Action :=
  rearm state ((state.armedEvents.union { writable := true }).union
    (interest watcher.backend))

def disarmWritable (state : State) : State × List Action :=
  rearm state (Events.union { state.armedEvents with writable := false }
    (interest watcher.backend))

def closeNow (state : State) : Turn :=
  if state.closed then .rest state
  else
    let (stopped, actions) := stop { state with closed := true }
    (Turn.callBack { stopped with fd := none } watcher.callbacks.onClose
      .onClose).preceded (actions ++ closeFd stopped.fd)

/-- What the first `closeNow` does. -/
theorem closeNow_of_open {state : State} (isOpen : state.closed = false) :
    closeNow watcher state =
      ⟨{ state with closed := true, attached := false, fd := none },
        if watcher.callbacks.onClose then [.user] else [],
        (if state.attached then [Action.detachSource] else []) ++ .stopped ::
          closeFd state.fd ++
            if watcher.callbacks.onClose then [Action.onClose] else []⟩ := by
  obtain ⟨fd, attached, peerClosed, wantSendReady, closed, armed⟩ := state
  obtain rfl : closed = false := isOpen
  cases attached <;> cases present : watcher.callbacks.onClose <;>
    simp [closeNow, stop, Turn.callBack, Turn.preceded, Turn.rest, present]

theorem closeNow_of_closed {state : State} (closed : state.closed) :
    closeNow watcher state = .rest state := by
  simp [closeNow, closed]

/-- The head of the loop of `trySend`. -/
def sendWhile (state : State) (data : List Byte) (limit total : Nat) : Turn :=
  if total < limit then .await state (.sendLoop data limit total)
  else (Turn.rest state).preceded [.returned { n := total }]

def trySend (state : State) (data : List Byte) : Turn :=
  match state.fd with
  | none => (Turn.rest state).preceded [.returned { err := Errno.ebadf }]
  | some _ =>
      if data = [] then (Turn.rest state).preceded [.returned {}]
      else sendWhile state data
        (min watcher.option.maxWriteBytesPerTick data.length) 0

def sendError (state : State) (err total : Nat) : Turn :=
  (Turn.callBack state watcher.callbacks.onError (.onError err)).andThen
    [.code (.sendFailed err total)]

/-- The rest of a round of the loop of `trySend`, once `send` has answered. -/
def sendAnswered (state : State) (data : List Byte) (limit total : Nat) :
    SendResult → Option Turn
  | .accepted count =>
      if 0 < count ∧ count ≤ limit - total then
        some ((sendWhile state data limit (total + count)).preceded
          [.sent ((data.drop total).take count)])
      else none
  | .nothing => some (sendError watcher state Errno.eio total)
  | .failed errno =>
      if errno = Errno.eintr then some (sendWhile state data limit total)
      else if errno = Errno.eagain ∨ errno = Errno.ewouldblock then
        let (armed, actions) :=
          armWritable watcher { state with wantSendReady := true }
        some ((Turn.rest armed).preceded
          (actions ++ [.returned { n := total, wouldBlock := true }]))
      else some (sendError watcher state errno total)

/-- The head of the loop of `handleRead`. -/
def handleRead (remaining : Nat) : List (Frame Point) :=
  if 0 < remaining then [.code (.readLoop remaining)] else []

/-- The rest of a round of the loop of `handleRead`, once `recv` has answered.
On the descriptor -1 the kernel has one answer only. -/
def recvAnswered (state : State) (remaining : Nat) :
    RecvResult → Option Turn
  | .received chunk =>
      if state.fd.isSome ∧ 0 < chunk.length ∧
          chunk.length ≤ min remaining inBufSize then
        some ((Turn.callBack state watcher.callbacks.onRecv
          (.onRecv chunk)).andThen (handleRead (remaining - chunk.length)))
      else none
  | .endOfStream =>
      if state.fd.isSome then some (.rest { state with peerClosed := true })
      else none
  | .failed errno =>
      if state.fd.isSome ∨ errno = Errno.ebadf then
        if errno = Errno.eintr then some (.await state (.readLoop remaining))
        else if errno = Errno.eagain ∨ errno = Errno.ewouldblock then
          some (.rest state)
        else
          some ((Turn.callBack state watcher.callbacks.onError
            (.onError errno)).andThen [.code .readFailed])
      else none

def noticeHangUp (state : State) (events : Events) : State :=
  { state with
    peerClosed := hungUp watcher.backend events || state.peerClosed }

def onReady (state : State) (events : Events) : Turn :=
  match state.fd with
  | none => .rest state
  | some _ =>
      if events.error then .await state .socketError
      else
        let noticed := noticeHangUp watcher state events
        (Turn.rest noticed).andThen
          ((if events.readable ∨ noticed.peerClosed then
              handleRead watcher.option.maxReadBytesPerTick
            else []) ++ [.code (.afterRead events.writable)])

/-- What `onReady` does after `handleRead`. -/
def afterRead (state : State) (writable : Bool) : Turn :=
  if state.peerClosed then closeNow watcher state
  else if writable ∧ state.wantSendReady then
    let (disarmed, actions) :=
      disarmWritable watcher { state with wantSendReady := false }
    (Turn.callBack disarmed watcher.callbacks.onSendReady
      .onSendReady).preceded actions
  else .rest state

def call (state : State) : Request → Turn
  | .start => (Turn.rest (start state).1).preceded (start state).2
  | .stop => (Turn.rest (stop state).1).preceded (stop state).2
  | .trySend data => trySend watcher state data
  | .shutdownWrite =>
      match state.fd with
      | none => .rest state
      | some _ => (Turn.rest state).preceded [.shutdownWrite]
  | .close => closeNow watcher state

def resume (state : State) : Point → Input → Option Turn
  | .sendLoop data limit total, .send result =>
      sendAnswered watcher state data limit total result
  | .sendFailed err total, .proceed =>
      some ((closeNow watcher state).andThen
        [.code (.sendReturn { n := total, err := err })])
  | .sendReturn result, .proceed =>
      some ((Turn.rest state).preceded [.returned result])
  | .socketError, .socketError answer =>
      some ((Turn.callBack state watcher.callbacks.onError
        (.onError (if answer.value ≠ 0 then answer.value else Errno.eio))).andThen
          [.code .readyFailed])
  | .readyFailed, .proceed => some (closeNow watcher state)
  | .readLoop remaining, .recv result =>
      recvAnswered watcher state remaining result
  | .readFailed, .proceed => some (closeNow watcher state)
  | .afterRead writable, .proceed => some (afterRead watcher state writable)
  | _, _ => none

def program : Program State Request Events Point Input Action where
  call state request := some (call watcher state request)
  ready state events := some (onReady watcher state events)
  resume := resume watcher

def Fresh (state : State) : Prop :=
  ∃ fd, state = { fd, armedEvents := interest watcher.backend }

def system : System (Config State Point Action)
    (Label Request Events Input) :=
  (program watcher).system (Fresh watcher)

end Connection

end RopHive.Network
