import RopHive.Network.Socket
import RopHive.Transition.Reentrant

namespace RopHive.Network

open Transition

structure TcpAcceptOption where
  maxAcceptPerTick : Nat := 64

structure TcpAcceptWatcher where
  backend : Backend
  option : TcpAcceptOption
  /-- Which of the two callbacks are non-empty functions. -/
  onAccept : Bool
  onError : Bool := false

def epollTcpAcceptWatcher (option : TcpAcceptOption)
    (onAccept onError : Bool) : TcpAcceptWatcher :=
  ⟨.epoll, option, onAccept, onError⟩

def pollTcpAcceptWatcher (option : TcpAcceptOption)
    (onAccept onError : Bool) : TcpAcceptWatcher :=
  ⟨.poll, option, onAccept, onError⟩

namespace Accept

structure State where
  listenFd : Option Nat
  attached : Bool := false
  deriving DecidableEq, Repr

inductive Request where
  | start
  | stop
  deriving DecidableEq, Repr

inductive Point where
  | socketError
  | acceptLoop (accepted : Nat)
  deriving DecidableEq, Repr

inductive Input where
  | socketError (answer : SocketError)
  | accept (result : AcceptResult)
  deriving DecidableEq, Repr

inductive Action where
  | onAccept (fd : Nat)
  | onError (err : Nat)
  | attachSource (events : Events)
  | detachSource
  | closeFd (fd : Nat)
  | started
  | stopped
  deriving DecidableEq, Repr

abbrev Turn := Transition.Turn State Point Action

def interest : Backend → Events
  | .epoll => { readable := true, error := true, hangUp := true }
  | .poll => { readable := true }

variable (watcher : TcpAcceptWatcher)

def start (state : State) : State × List Action :=
  if state.attached then (state, [.started])
  else ({ state with attached := true },
    [.attachSource (interest watcher.backend), .started])

def stop (state : State) : State × List Action :=
  if state.attached then
    ({ state with attached := false }, [.detachSource, .stopped])
  else (state, [.stopped])

/-- The head of the loop of `acceptLoop`. -/
def acceptLoop (accepted : Nat) : List (Frame Point) :=
  if accepted < watcher.option.maxAcceptPerTick then
    [.code (.acceptLoop accepted)]
  else []

/-- `on_accept_` takes the stream; without it the stream closes its
descriptor. -/
def handOver (state : State) (fd : Nat) : Turn :=
  if watcher.onAccept then ⟨state, [.user], [.onAccept fd]⟩
  else ⟨state, [], [.closeFd fd]⟩

/-- The rest of a round of the loop, once `accept4` has answered. -/
def acceptAnswered (state : State) (accepted : Nat) : AcceptResult → Turn
  | .accepted fd =>
      (handOver watcher state fd).andThen (acceptLoop watcher (accepted + 1))
  | .failed errno =>
      if errno = Errno.eagain ∨ errno = Errno.ewouldblock then .rest state
      else if errno = Errno.eintr then .await state (.acceptLoop accepted)
      else .callBack state watcher.onError (.onError errno)

def onReady (state : State) (events : Events) : Turn :=
  match state.listenFd with
  | none => .rest state
  | some _ =>
      if events.error ∨ events.hangUp then .await state .socketError
      else if events.readable then
        (Turn.rest state).andThen (acceptLoop watcher 0)
      else .rest state

def call (state : State) : Request → Turn
  | .start =>
      (Turn.rest (start watcher state).1).preceded (start watcher state).2
  | .stop => (Turn.rest (stop state).1).preceded (stop state).2

def resume (state : State) : Point → Input → Option Turn
  | .socketError, .socketError answer =>
      some (.callBack state watcher.onError
        (.onError (if answer.value ≠ 0 then answer.value else Errno.eio)))
  | .acceptLoop accepted, .accept result =>
      some (acceptAnswered watcher state accepted result)
  | _, _ => none

def program : Program State Request Events Point Input Action where
  call state request := some (call watcher state request)
  ready state events := some (onReady watcher state events)
  resume := resume watcher

end Accept

end RopHive.Network
