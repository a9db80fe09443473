import RopHive.Network.Accept
import RopHive.Network.KqueueConnection

namespace RopHive.Network

open Transition
open RopHive.Schedule (KqueueFilter KqueueRawEvent PendingOp)

structure KqueueTcpAcceptWatcher where
  option : TcpAcceptOption
  /-- Which of the two callbacks are non-empty functions. -/
  onAccept : Bool
  onError : Bool := false

namespace KqueueAccept

open Accept (Request State)

/-- `acceptLoop` is the head of the loop, `accept` its call of the kernel and
`prepare` the configuration of an accepted socket; after `reported` the handler
returns. -/
inductive Point where
  | socketError
  | acceptLoop (accepted : Nat)
  | accept (accepted : Nat)
  | prepare (accepted clientFd : Nat)
  | reported
  deriving DecidableEq, Repr

inductive Input where
  | socketError (answer : SocketError)
  | accept (result : AcceptResult)
  | prepared (result : CallResult)
  | proceed
  deriving DecidableEq, Repr

inductive Action where
  | onAccept (fd : Nat)
  | onError (err : Nat)
  | register (op : PendingOp KqueueFilter)
  | closeFd (fd : Nat)
  deriving DecidableEq, Repr

abbrev Turn := Transition.Turn State Point Action

def start (state : State) : State × List Action :=
  if state.attached then (state, [])
  else ({ state with attached := true }, [.register (.add .read)])

def stop (state : State) : State × List Action :=
  if state.attached then
    ({ state with attached := false }, [.register (.remove .read)])
  else (state, [])

variable (watcher : KqueueTcpAcceptWatcher)

def reportError (state : State) (err : Nat) : Turn :=
  (Turn.callBack state watcher.onError (.onError err)).andThen
    [.code .reported]

def acceptLoop (state : State) (accepted : Nat) : Turn :=
  if accepted < watcher.option.maxAcceptPerTick then
    .await state (.accept accepted)
  else .rest state

def acceptAnswered (state : State) (accepted : Nat) : AcceptResult → Turn
  | .accepted clientFd => .await state (.prepare accepted clientFd)
  | .failed errno =>
      if errno = MacErrno.eagain ∨ errno = MacErrno.ewouldblock then .rest state
      else if errno = MacErrno.eintr then .await state (.acceptLoop accepted)
      else reportError watcher state errno

/-- `on_accept_` takes the stream; without it the stream closes its
descriptor. -/
def handOver (state : State) (fd : Nat) : Turn :=
  if watcher.onAccept then ⟨state, [.user], [.onAccept fd]⟩
  else ⟨state, [], [.closeFd fd]⟩

def prepared (state : State) (accepted clientFd : Nat) : CallResult → Turn
  | .ok =>
      (handOver watcher state clientFd).andThen
        [.code (.acceptLoop (accepted + 1))]
  | .failed errno =>
      (reportError watcher state
        (if errno ≠ 0 then errno else MacErrno.eio)).preceded
          [.closeFd clientFd]

def onReady (state : State) (event : KqueueRawEvent) : Turn :=
  match state.listenFd with
  | none => .rest state
  | some _ =>
      if event.error then
        reportError watcher state
          (if event.data ≠ 0 then event.data else MacErrno.eio)
      else if event.eof then .await state .socketError
      else .await state (.acceptLoop 0)

def call (state : State) : Request → Turn
  | .start => (Turn.rest (start state).1).preceded (start state).2
  | .stop => (Turn.rest (stop state).1).preceded (stop state).2

def resume (state : State) : Point → Input → Option Turn
  | .socketError, .socketError answer =>
      some (reportError watcher state
        (if answer.value ≠ 0 then answer.value else MacErrno.eio))
  | .acceptLoop accepted, .proceed => some (acceptLoop watcher state accepted)
  | .accept accepted, .accept result =>
      some (acceptAnswered watcher state accepted result)
  | .prepare accepted clientFd, .prepared result =>
      some (prepared watcher state accepted clientFd result)
  | .reported, .proceed => some (.rest state)
  | _, _ => none

/-- The listener has one source, for EVFILT_READ. -/
def program : Program State Request KqueueRawEvent Point Input Action where
  call state request := some (call state request)
  ready state event :=
    if event.filter = .read then some (onReady watcher state event) else none
  resume := resume watcher

end KqueueAccept

end RopHive.Network
