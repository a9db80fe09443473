import RopHive.Network.Accept
import RopHive.Network.Connect
import RopHive.Network.Connection

namespace RopHive.Network

open Transition

/-! The descriptors of the TCP watchers: the kernel gives them out, and
watchers and streams hold them until they are closed. -/

/-- Where an action sends a descriptor: to `::close`, or to the user in a
`LinuxTcpStream`. -/
inductive Transfer where
  | close (fd : Nat)
  | stream (fd : Nat)
  deriving DecidableEq, Repr

def Transfer.fd : Transfer → Nat
  | .close fd | .stream fd => fd

inductive Origin where
  | unopened
  | listenSocket
  | stream
  deriving DecidableEq, Repr

/-- A watcher as the holder of one descriptor. -/
structure Holder where
  State : Type
  Request : Type
  Point : Type
  Input : Type
  Action : Type
  program : Program State Request Events Point Input Action
  origin : Origin
  made : Option Nat → State
  field : State → Option Nat
  /-- The descriptor that `::socket` or `::accept4` returns. -/
  opens : Point → Input → Option Nat
  transfer : Action → Option Transfer
  /-- The descriptor that a kernel call is made with, in a call of the user or
  at a point. -/
  callUses : State → Request → Option Nat
  pointUses : State → Point → Option Nat
  destroy : State → List Action
  /-- The call does not make the watcher open a second descriptor. -/
  heeds : State → Request → Bool
  /-- Where the answer of the kernel will be stored in the field. -/
  pinned : Point → Prop

namespace Accept

/-- `~EpollTcpAcceptWatcher`. -/
def destroy (state : State) : List Action :=
  (stop state).2 ++ ((stop state).1.listenFd.map .closeFd).toList

def opens : Point → Input → Option Nat
  | .acceptLoop _, .accept (.accepted fd) => some fd
  | _, _ => none

def transfer : Action → Option Transfer
  | .onAccept fd => some (.stream fd)
  | .closeFd fd => some (.close fd)
  | _ => none

/-- `getsockopt` and `accept4`. -/
def pointUses (state : State) : Point → Option Nat
  | .socketError | .acceptLoop _ => state.listenFd

def holder (watcher : TcpAcceptWatcher) : Holder where
  State := State
  Request := Request
  Point := Point
  Input := Input
  Action := Action
  program := program watcher
  origin := .listenSocket
  made := fun fd => { listenFd := fd }
  field := State.listenFd
  opens := opens
  transfer := transfer
  callUses := fun _ _ => none
  pointUses := pointUses
  destroy := destroy
  heeds := fun _ _ => true
  pinned := fun _ => False

end Accept

namespace Connect

/-- `~EpollTcpConnectWatcher`. -/
def destroy (state : State) : List Action :=
  (stop state).2 ++ closeFd (stop state).1.fd

def opens : Point → Input → Option Nat
  | .socketCall _, .socket (.opened fd) => some fd
  | _, _ => none

def transfer : Action → Option Transfer
  | .onConnected fd => some (.stream fd)
  | .closeFd fd => some (.close fd)
  | _ => none

/-- `fcntl` and the socket options, `bind`, `connect` and `getsockopt`. -/
def pointUses (state : State) : Point → Option Nat
  | .nonBlockingCall _ | .bindCall | .connectCall | .socketError => state.fd
  | .socketCall _ | .afterCreate | .afterConnect => none

/-- `start` is not called while the watcher, neither attached nor cancelled,
still holds a descriptor. -/
def heeds (state : State) : Request → Bool
  | .start => state.attached || state.canceled || state.fd.isNone
  | _ => true

def Pinned : Point → Prop
  | .socketCall _ => True
  | _ => False

def holder (watcher : TcpConnectWatcher) : Holder where
  State := State
  Request := Request
  Point := Point
  Input := Input
  Action := Action
  program := program watcher
  origin := .unopened
  made := fun _ => {}
  field := State.fd
  opens := opens
  transfer := transfer
  callUses := fun _ _ => none
  pointUses := pointUses
  destroy := destroy
  heeds := heeds
  pinned := Pinned

end Connect

namespace Connection

/-- `~EpollTcpConnectionWatcher`. -/
def destroy (state : State) : List Action :=
  (stop state).2 ++ closeFd (stop state).1.fd

def transfer : Action → Option Transfer
  | .closeFd fd => some (.close fd)
  | _ => none

/-- `shutdown`. -/
def callUses (state : State) : Request → Option Nat
  | .shutdownWrite => state.fd
  | _ => none

/-- `send`, `getsockopt` and `recv`. -/
def pointUses (state : State) : Point → Option Nat
  | .sendLoop _ _ _ | .socketError | .readLoop _ => state.fd
  | _ => none

def holder (watcher : TcpConnectionWatcher) : Holder where
  State := State
  Request := Request
  Point := Point
  Input := Input
  Action := Action
  program := program watcher
  origin := .stream
  made := fun fd => { fd, armedEvents := interest watcher.backend }
  field := State.fd
  opens := fun _ _ => none
  transfer := transfer
  callUses := callUses
  pointUses := pointUses
  destroy := destroy
  heeds := fun _ _ => true
  pinned := fun _ => False

end Connection

inductive TcpWatcher where
  | accept (watcher : TcpAcceptWatcher)
  | connect (watcher : TcpConnectWatcher)
  | connection (watcher : TcpConnectionWatcher)

def TcpWatcher.holder : TcpWatcher → Holder
  | .accept watcher => Accept.holder watcher
  | .connect watcher => Connect.holder watcher
  | .connection watcher => Connection.holder watcher

/-- What the kernel answers in `createListenSocket`. -/
inductive ListenResult where
  | socketFailed (errno : Nat)
  | bindFailed (fd errno : Nat)
  | listenFailed (fd errno : Nat)
  | listening (fd : Nat)
  deriving DecidableEq, Repr

namespace Descriptors

/-- A name has no watcher before it is made and after it is destroyed.  A
stream that has been consumed or destroyed holds nothing. -/
structure State {Name : Type} (kind : Name → TcpWatcher) where
  watchers : (name : Name) → Option (Config (kind name).holder.State
    (kind name).holder.Point (kind name).holder.Action)
  streams : List (Option Nat)
  isOpen : Nat → Bool
  /-- A descriptor was closed or used that was not open. -/
  stray : Bool

inductive Label {Name : Type} (kind : Name → TcpWatcher) where
  | watcher (name : Name) (label : Transition.Label (kind name).holder.Request
      Events (kind name).holder.Input)
  | make (name : Name)
  | listen (name : Name) (result : ListenResult)
  | adopt (name : Name) (stream : Nat)
  | dropStream (stream : Nat)
  | destroy (name : Name)

inductive Owner (Name : Type) where
  | watcher (name : Name)
  | stream (index : Nat)
  deriving DecidableEq, Repr

section Steps

variable {Name : Type} {kind : Name → TcpWatcher}

def initialState : State kind where
  watchers := fun _ => none
  streams := []
  isOpen := fun _ => false
  stray := false

namespace State

variable (state : State kind)

def field : Owner Name → Option Nat
  | .watcher name => (state.watchers name).bind fun config =>
      (kind name).holder.field config.store
  | .stream index => state.streams[index]?.join

def opened (fd : Nat) : Option (State kind) :=
  if state.isOpen fd then none
  else some { state with
    isOpen := Function.update state.isOpen fd true }

def closed (fd : Nat) : State kind :=
  { state with
    isOpen := Function.update state.isOpen fd false
    stray := state.stray || !state.isOpen fd }

def used (fd : Option Nat) : State kind :=
  { state with
    stray := state.stray || fd.any fun fd => !state.isOpen fd }

def send : Transfer → State kind
  | .close fd => state.closed fd
  | .stream fd => { state with
      streams := state.streams ++ [some fd] }

variable [DecidableEq Name]

def place (name : Name) (config : Option (Config (kind name).holder.State
    (kind name).holder.Point (kind name).holder.Action)) : State kind :=
  { state with
    watchers := Function.update state.watchers name config }

def made (name : Name) (fd : Option Nat) : State kind :=
  state.place name (some ⟨(kind name).holder.made fd, [], []⟩)

def answered (name : Name) (config : Config (kind name).holder.State
    (kind name).holder.Point (kind name).holder.Action) :
    Transition.Label (kind name).holder.Request Events
      (kind name).holder.Input → Option Nat
  | .resume input =>
      match config.stack with
      | .code point :: _ => (kind name).holder.opens point input
      | _ => none
  | _ => none

def uses (name : Name) (config : Config (kind name).holder.State
    (kind name).holder.Point (kind name).holder.Action) :
    Transition.Label (kind name).holder.Request Events
      (kind name).holder.Input → Option Nat
  | .call request => (kind name).holder.callUses config.store request
  | .resume _ =>
      match config.stack with
      | .code point :: _ => (kind name).holder.pointUses config.store point
      | _ => none
  | _ => none

def begun (name : Name) (config : Config (kind name).holder.State
    (kind name).holder.Point (kind name).holder.Action)
    (label : Transition.Label (kind name).holder.Request Events
      (kind name).holder.Input) : Option (State kind) :=
  match answered name config label with
  | some fd => (state.used (uses name config label)).opened fd
  | none => some (state.used (uses name config label))

def sendAll (name : Name) (actions : List (kind name).holder.Action) :
    State kind :=
  (actions.filterMap (kind name).holder.transfer).foldl send state

def step : Label kind → Option (State kind)
  | .watcher name label => do
      let config ← state.watchers name
      let begun ← state.begun name config label
      let after ← (kind name).holder.program.step config label
      return (begun.sendAll name (after.log.drop config.log.length)).place name
        (some after)
  | .make name =>
      if state.watchers name = none ∧
          (kind name).holder.origin = .unopened then
        some (state.made name none)
      else none
  | .listen name result =>
      if state.watchers name = none ∧
          (kind name).holder.origin = .listenSocket then
        match result with
        | .socketFailed _ => some state
        | .bindFailed fd _ | .listenFailed fd _ =>
            (state.opened fd).map fun begun => begun.closed fd
        | .listening fd =>
            (state.opened fd).map fun begun => begun.made name (some fd)
      else none
  | .adopt name index =>
      match state.streams[index]?.join with
      | some fd =>
          if state.watchers name = none ∧
              (kind name).holder.origin = .stream then
            some ({ state with
              streams := state.streams.set index none }.made name (some fd))
          else none
      | none => none
  | .dropStream index =>
      match state.streams[index]?.join with
      | some fd => some ({ state with
          streams := state.streams.set index none }.closed fd)
      | none => none
  | .destroy name =>
      match state.watchers name with
      | some config =>
          -- code of the watcher that is still to run would find it gone
          if config.stack.all Frame.isUser then
            some ((state.sendAll name
              ((kind name).holder.destroy config.store)).place name none)
          else none
      | none => none

end State

def system [DecidableEq Name] (kind : Name → TcpWatcher) :
    System (State kind) (Label kind) where
  initial := fun state => state = initialState
  step := fun state label => state.step label

end Steps

end Descriptors

end RopHive.Network
