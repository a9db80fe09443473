import RopHive.Network.Socket
import RopHive.Transition.Reentrant

namespace RopHive.Network

open Transition

structure TcpConnectOption where
  localBind : Option IpEndpoint := none
  localPort : UInt16 := 0

structure TcpConnectWatcher where
  backend : Backend
  remote : IpEndpoint
  option : TcpConnectOption
  /-- Which of the two callbacks are non-empty functions. -/
  onConnected : Bool
  onError : Bool := false

def epollTcpConnectWatcher (remote : IpEndpoint) (option : TcpConnectOption)
    (onConnected onError : Bool) : TcpConnectWatcher :=
  ⟨.epoll, remote, option, onConnected, onError⟩

def pollTcpConnectWatcher (remote : IpEndpoint) (option : TcpConnectOption)
    (onConnected onError : Bool) : TcpConnectWatcher :=
  ⟨.poll, remote, option, onConnected, onError⟩

namespace Connect

structure State where
  fd : Option Nat := none
  attached : Bool := false
  canceled : Bool := false
  deriving DecidableEq, Repr

inductive Request where
  | start
  | stop
  | cancel
  deriving DecidableEq, Repr

/-- `afterCreate` and `afterConnect` are the tests of `fd_` in `start`; at the
other points a call of the kernel is to answer. -/
inductive Point where
  | socketCall (family : Family)
  | nonBlockingCall (family : Family)
  | bindCall
  | afterCreate
  | connectCall
  | afterConnect
  | socketError
  deriving DecidableEq, Repr

inductive Input where
  | socket (result : SocketResult)
  | nonBlocking (result : CallResult)
  | bind (result : CallResult)
  | connect (result : CallResult)
  | socketError (answer : SocketError)
  | proceed
  deriving DecidableEq, Repr

/-- Calls of the user, of the event loop and of the kernel; `started` opens a
`start` that does anything, `cancelReturned` closes a `cancel`. -/
inductive Action where
  | onConnected (fd : Nat)
  | onError (err : Nat)
  | attachSource (fd : Nat) (events : Events)
  | detachSource
  | connect
  | closeFd (fd : Nat)
  | started
  | cancelReturned
  deriving DecidableEq, Repr

abbrev Turn := Transition.Turn State Point Action

def interest : Backend → Events
  | .epoll => { writable := true, error := true, hangUp := true }
  | .poll => { writable := true }

def closeFd : Option Nat → List Action
  | some fd => [.closeFd fd]
  | none => []

def stop (state : State) : State × List Action :=
  if state.attached then
    ({ state with attached := false, fd := none },
      .detachSource :: closeFd state.fd)
  else (state, [])

@[simp] theorem stop_attached (state : State) :
    (stop state).1.attached = false := by
  cases attached : state.attached <;> simp [stop, attached]

@[simp] theorem stop_canceled (state : State) :
    (stop state).1.canceled = state.canceled := by
  cases attached : state.attached <;> simp [stop, attached]

theorem stop_fd (state : State) :
    (stop state).1.fd = if state.attached then none else state.fd := by
  cases attached : state.attached <;> simp [stop, attached]

theorem of_mem_stop {state : State} {action : Action}
    (member : action ∈ (stop state).2) :
    action = .detachSource ∨ ∃ fd, action = .closeFd fd := by
  cases attached : state.attached with
  | false => simp [stop, attached] at member
  | true =>
      simp only [stop, attached, if_true, List.mem_cons] at member
      refine member.imp id ?_
      intro closes
      cases fd : state.fd with
      | none => simp [closeFd, fd] at closes
      | some fd' => exact ⟨fd', by simpa [closeFd, fd] using closes⟩

def cancel (state : State) : State × List Action :=
  if state.canceled then (state, [.cancelReturned])
  else
    let (stopped, actions) := stop { state with canceled := true }
    (stopped, actions ++ [.cancelReturned])

variable (watcher : TcpConnectWatcher)

def fail (state : State) (err : Nat) : Turn :=
  let (stopped, actions) := stop state
  let turn : Turn :=
    if stopped.canceled then .rest stopped
    else .callBack stopped watcher.onError (.onError err)
  turn.preceded actions

theorem fail_of_attached {state : State} (going : state.canceled = false)
    (attachment : state.attached = state.fd.isSome) (err : Nat) :
    fail watcher state err =
      ⟨{ state with fd := none, attached := false },
        if watcher.onError then [.user] else [],
        (if state.attached then .detachSource :: closeFd state.fd else []) ++
          if watcher.onError then [Action.onError err] else []⟩ := by
  obtain ⟨fd, attached, canceled⟩ := state
  obtain rfl : canceled = false := going
  obtain rfl : attached = fd.isSome := attachment
  cases fd <;> cases present : watcher.onError <;>
    simp [fail, stop, Turn.callBack, Turn.preceded, Turn.rest, present]

def createSocket (state : State) : Turn :=
  match toSockaddr watcher.remote with
  | none => fail watcher state Errno.einval
  | some family => .await state (.socketCall family)

theorem createSocket_eq (state : State) :
    ∃ family, createSocket watcher state =
      .await state (.socketCall family) := by
  unfold createSocket
  cases watcher.remote <;> exact ⟨_, rfl⟩

/-- The endpoint `createSocket` binds to.  The families of endpoints are the
two it knows, so `EAFNOSUPPORT` is never the answer. -/
def bindEndpoint (family : Family) : IpEndpoint :=
  match watcher.option.localBind, family with
  | some endpoint, _ => endpoint
  | none, .inet => .v4 (Vector.replicate 4 0) watcher.option.localPort
  | none, .inet6 => .v6 (Vector.replicate 16 0) watcher.option.localPort 0

def bindLocal (state : State) (family : Family) : Turn :=
  if watcher.option.localBind.isSome ∨ watcher.option.localPort ≠ 0 then
    match toSockaddr (bindEndpoint watcher family) with
    | none => fail watcher state Errno.einval
    | some _ => .await state .bindCall
  else .rest state

theorem bindLocal_eq (state : State) (family : Family) :
    bindLocal watcher state family =
      if watcher.option.localBind.isSome ∨ watcher.option.localPort ≠ 0 then
        .await state .bindCall
      else .rest state := by
  unfold bindLocal
  cases bindEndpoint watcher family <;> rfl

def start (state : State) : Turn :=
  if state.attached ∨ state.canceled then .rest state
  else
    ((createSocket watcher state).andThen [.code .afterCreate]).preceded
      [.started]

def startConnect (state : State) : Turn :=
  match toSockaddr watcher.remote with
  | none => fail watcher state Errno.einval
  | some _ => (Turn.await state .connectCall).preceded [.connect]

theorem startConnect_eq (state : State) :
    startConnect watcher state =
      (Turn.await state .connectCall).preceded [.connect] := by
  unfold startConnect
  cases watcher.remote <;> rfl

def checkConnectResult (state : State) : Turn :=
  if state.canceled ∨ state.fd = none then .rest state
  else .await state .socketError

/-- The end of `checkConnectResult`: the stream takes the descriptor over, and
closes it at once if there is nobody to take the stream. -/
def connected (state : State) (fd : Nat) : Turn :=
  let (stopped, actions) := stop { state with fd := none }
  let turn : Turn :=
    if watcher.onConnected then ⟨stopped, [.user], [.onConnected fd]⟩
    else ⟨stopped, [], [.closeFd fd]⟩
  turn.preceded actions

theorem connected_eq (state : State) (fd : Nat) :
    connected watcher state fd =
      ⟨{ state with fd := none, attached := false },
        if watcher.onConnected then [.user] else [],
        (if state.attached then [Action.detachSource] else []) ++
          if watcher.onConnected then [Action.onConnected fd]
          else [Action.closeFd fd]⟩ := by
  obtain ⟨_, attached, canceled⟩ := state
  cases attached <;> cases present : watcher.onConnected <;>
    simp [connected, stop, closeFd, Turn.preceded, present]

def onReady (state : State) (events : Events) : Turn :=
  if state.canceled then .rest state
  else if events.writable ∨ events.error ∨ events.hangUp then
    checkConnectResult state
  else .rest state

def call (state : State) : Request → Turn
  | .start => start watcher state
  | .stop => (Turn.rest (stop state).1).preceded (stop state).2
  | .cancel => (Turn.rest (cancel state).1).preceded (cancel state).2

def resume (state : State) : Point → Input → Option Turn
  | .socketCall family, .socket (.opened fd) =>
      some (.await { state with fd := some fd } (.nonBlockingCall family))
  | .socketCall _, .socket (.failed errno) =>
      some (fail watcher { state with fd := none } errno)
  | .nonBlockingCall family, .nonBlocking .ok =>
      some (bindLocal watcher state family)
  | .nonBlockingCall _, .nonBlocking (.failed errno) =>
      some (fail watcher state errno)
  | .bindCall, .bind .ok => some (.rest state)
  | .bindCall, .bind (.failed errno) => some (fail watcher state errno)
  | .afterCreate, .proceed =>
      match state.fd with
      | none => some (.rest state)
      | some _ =>
          some ((startConnect watcher state).andThen [.code .afterConnect])
  | .connectCall, .connect .ok => some (checkConnectResult state)
  | .connectCall, .connect (.failed errno) =>
      if errno = Errno.einprogress then some (.rest state)
      else some (fail watcher state errno)
  | .afterConnect, .proceed =>
      match state.fd with
      | none => some (.rest state)
      | some fd =>
          some ((Turn.rest { state with attached := true }).preceded
            [.attachSource fd (interest watcher.backend)])
  | .socketError, .socketError (.failed errno) =>
      some (fail watcher state errno)
  | .socketError, .socketError (.pending err) =>
      -- `fd_` was tested right before the call
      match state.fd with
      | none => none
      | some fd =>
          if err ≠ 0 then some (fail watcher state err)
          else some (connected watcher state fd)
  | _, _ => none

def program : Program State Request Events Point Input Action where
  call state request := some (call watcher state request)
  ready state events := some (onReady state events)
  resume := resume watcher

def system : System (Config State Point Action)
    (Label Request Events Input) :=
  (program watcher).system (· = {})

end Connect

end RopHive.Network
