import RopHive.Network.Accept
import RopHive.Network.OrderlyClose
import RopHive.Schedule.EventCore
import RopHive.Schedule.WorkerTimer

namespace RopHive.Network

open Transition
open RopHive.Schedule (EventCore WorkerTimerWatcher)

/-- What an action of a watcher is to the event loop and to its user; `delivered`
stands for `on_accept_`, `on_recv_`, `on_send_ready_` and a timer's callback.
`dispatched` is the loop's own: it hands an event to the watcher. -/
inductive Effect where
  | attach
  | detach
  | started
  | stopped
  | delivered
  | dispatched
  deriving DecidableEq, Repr

/-- A watcher as the event loop sees it. -/
structure Component where
  State : Type
  Request : Type
  Point : Type
  Input : Type
  Action : Type
  program : Program State Request Events Point Input Action
  fresh : State → Prop
  attached : State → Bool
  /-- The handler returns at once, its descriptor being closed. -/
  inert : State → Bool
  /-- Points of the handler of events, not of a call of the user. -/
  handling : Point → Bool
  /-- The handler hands something over when it goes on from the point. -/
  handsOver : State → Point → Input → Bool
  effect : Action → Option Effect

namespace Component

variable (component : Component)

abbrev Turn := Transition.Turn component.State component.Point
  component.Action

def effects (turn : component.Turn) : List Effect :=
  turn.emitted.filterMap component.effect

end Component

inductive LinuxWatcher where
  | accept (watcher : TcpAcceptWatcher)
  | connection (watcher : TcpConnectionWatcher)
  | timer (watcher : WorkerTimerWatcher)

namespace Accept

def handsOver (watcher : TcpAcceptWatcher) : Point → Input → Bool
  | .acceptLoop _, .accept (.accepted _) => watcher.onAccept
  | _, _ => false

def effect : Action → Option Effect
  | .onAccept _ => some .delivered
  | .attachSource _ => some .attach
  | .detachSource => some .detach
  | .started => some .started
  | .stopped => some .stopped
  | .onError _ | .closeFd _ => none

def component (watcher : TcpAcceptWatcher) : Component where
  State := State
  Request := Request
  Point := Point
  Input := Input
  Action := Action
  program := program watcher
  fresh state := ∃ fd, state = { listenFd := fd }
  attached := State.attached
  inert state := state.listenFd.isNone
  handling _ := true
  handsOver _ := handsOver watcher
  effect := effect

end Accept

namespace Connection

def handling : Point → Bool
  | .readLoop _ | .readFailed | .readyFailed | .socketError | .afterRead _ =>
      true
  | _ => false

def handsOver (watcher : TcpConnectionWatcher) (state : State) :
    Point → Input → Bool
  | .readLoop _, .recv (.received _) => watcher.callbacks.onRecv
  | .afterRead writable, .proceed =>
      writable && state.wantSendReady && !state.peerClosed &&
        watcher.callbacks.onSendReady
  | _, _ => false

def effect : Action → Option Effect
  | .onRecv _ | .onSendReady => some .delivered
  | .attachSource => some .attach
  | .detachSource => some .detach
  | .started => some .started
  | .stopped => some .stopped
  | _ => none

def component (watcher : TcpConnectionWatcher) : Component where
  State := State
  Request := Request
  Point := Point
  Input := Input
  Action := Action
  program := program watcher
  fresh := Fresh watcher
  attached := State.attached
  inert state := state.fd.isNone
  handling := handling
  handsOver := handsOver watcher
  effect := effect

end Connection

namespace Timer

open RopHive.Schedule.WorkerTimer

def handsOver (watcher : WorkerTimerWatcher) : Point → Input → Bool
  | .callLoop _, .proceed => watcher.callback
  | _, _ => false

def effect : Action → Option Effect
  | .cb => some .delivered
  | .attachSource => some .attach
  | .detachSource => some .detach
  | .started => some .started
  | .stopped => some .stopped

def component (watcher : WorkerTimerWatcher) : Component where
  State := State
  Request := Request
  Point := Point
  Input := Input
  Action := Action
  program := program watcher
  fresh state := ∃ fd, state = { fd := fd }
  attached := State.attached
  inert state := state.fd.isNone
  handling _ := true
  handsOver _ := handsOver watcher
  effect := effect

end Timer

def LinuxWatcher.component : LinuxWatcher → Component
  | .accept watcher => Accept.component watcher
  | .connection watcher => Connection.component watcher
  | .timer watcher => Timer.component watcher

/-! The event loop of one worker with its watchers.  Handlers run inside
`dispatchRawEvents`; a user they call may call any watcher. -/

structure RawEvent where
  fd : Nat
  events : Events
  deriving DecidableEq, Repr

namespace Loop

/-- The watchers of a worker and the descriptors their sources match. -/
structure Setup (Watcher : Type) where
  component : Watcher → Component
  sourceFd : Watcher → Nat

variable {Watcher : Type} (setup : Setup Watcher)

structure Store where
  states : (watcher : Watcher) → (setup.component watcher).State
  core : EventCore Watcher

/-- `dispatch` is the head of the loop of `dispatchRawEvents` over the rest of
the batch. -/
inductive Point where
  | dispatch (batch : List RawEvent) (snapshot : List Watcher)
  | watcher (watcher : Watcher) (point : (setup.component watcher).Point)

inductive Request where
  | mk (watcher : Watcher) (request : (setup.component watcher).Request)

inductive Input where
  | next
  | watcher (watcher : Watcher) (input : (setup.component watcher).Input)

abbrev Action (Watcher : Type) := Watcher × Effect

abbrev Turn := Transition.Turn (Store setup) (Point setup) (Action Watcher)

variable [DecidableEq Watcher]

def register (watcher : Watcher) (core : EventCore Watcher) :
    Effect → EventCore Watcher
  | .attach => core.attachSource watcher
  | .detach => core.detachSource watcher
  | _ => core

def lift (store : Store setup) (watcher : Watcher)
    (turn : (setup.component watcher).Turn) : Turn setup where
  store := {
    states := Function.update store.states watcher turn.store
    core := ((setup.component watcher).effects turn).foldl (register watcher)
      store.core }
  push := turn.push.map fun frame =>
    match frame with
    | .user => .user
    | .code point => .code (.watcher watcher point)
  emitted := ((setup.component watcher).effects turn).map fun effect =>
    (watcher, effect)

def call (store : Store setup) : Request setup → Option (Turn setup)
  | .mk watcher request =>
      ((setup.component watcher).program.call (store.states watcher)
        request).map (lift setup store watcher)

/-- `runOnce` after the wait has returned `batch`. -/
def dispatchRawEvents (store : Store setup) (batch : List RawEvent) :
    Turn setup :=
  .await { store with core := { store.core with inDispatch := true } }
    (.dispatch batch store.core.sources)

/-- `dispatchRawEvents` returns and `runOnce` applies the pending changes. -/
def finishDispatch (store : Store setup) : Turn setup :=
  .rest { store with
    core := { store.core with inDispatch := false }.applyPendingChanges }

def target (event : RawEvent) (snapshot : List Watcher) : Option Watcher :=
  snapshot.find? fun watcher => setup.sourceFd watcher = event.fd

def dispatchNext (store : Store setup) (event : RawEvent)
    (rest : List RawEvent) (snapshot : List Watcher) : Option (Turn setup) :=
  match target setup event snapshot with
  | none => some (.await store (.dispatch rest snapshot))
  | some watcher =>
      ((setup.component watcher).program.ready (store.states watcher)
        event.events).map fun turn =>
          ((lift setup store watcher turn).preceded
            [(watcher, .dispatched)]).andThen [.code (.dispatch rest snapshot)]

def resume (store : Store setup) :
    Point setup → Input setup → Option (Turn setup)
  | .dispatch [] _, .next => some (finishDispatch setup store)
  | .dispatch (event :: rest) snapshot, .next =>
      dispatchNext setup store event rest snapshot
  | .watcher watcher point, .watcher answered input =>
      if same : answered = watcher then
        ((setup.component watcher).program.resume (store.states watcher)
          point (same ▸ input)).map (lift setup store watcher)
      else none
  | _, _ => none

def program : Program (Store setup) (Request setup) (List RawEvent)
    (Point setup) (Input setup) (Action Watcher) where
  call := call setup
  ready store batch := some (dispatchRawEvents setup store batch)
  resume := resume setup

def Initial (store : Store setup) : Prop :=
  (∀ watcher, (setup.component watcher).fresh (store.states watcher)) ∧
    store.core = {}

def system : System (Config (Store setup) (Point setup) (Action Watcher))
    (Label (Request setup) (List RawEvent) (Input setup)) :=
  (program setup).system (Initial setup)

end Loop

end RopHive.Network
