import RopHive.Network.KqueueAccept
import RopHive.Network.StopSilence

namespace RopHive.Network

open Transition
open RopHive.Schedule (EventCore KqueueFilter KqueueLoop KqueueRawEvent
  PendingOp)

/-- A watcher of one descriptor as its event loop and the kernel see it. -/
structure KqueueComponent where
  State : Type
  Request : Type
  Point : Type
  Input : Type
  Action : Type
  Item : Type
  program : Program State Request KqueueRawEvent Point Input Action
  fresh : State → Prop
  valid : State → Prop
  attached : State → Bool
  closed : State → Bool
  /-- Points of the handlers of events, not of a call of the user. -/
  handling : Point → Bool
  /-- The handler returns from the point without an answer of the kernel that
  nothing is left. -/
  returnsEarly : State → Point → Bool
  registration : Action → Option (PendingOp KqueueFilter)
  /-- What an answer leaves in the kernel's queue, where it may be given. -/
  answers : Input → Channel Item → Option (List Item)

namespace KqueueConnection

open Connection (Request Input)

def handling : Point → Bool
  | .sendLoop _ _ _ | .sendFailed _ _ | .sendReturn _ => false
  | _ => true

def returnsEarly (state : State) : Point → Bool
  | .readLoop remaining => remaining = 0 && !state.peerClosed
  | _ => false

def registration : Action → Option (PendingOp KqueueFilter)
  | .register op => some op
  | _ => none

def answers (input : Input) (channel : Channel Byte) : Option (List Byte) :=
  match input with
  | .recv (.received chunk) =>
      if chunk <+: channel.queue then
        some (channel.queue.drop chunk.length)
      else none
  | .recv .endOfStream =>
      if channel.queue = [] ∧ channel.ended then some channel.queue else none
  | .recv (.failed errno) =>
      if errno = MacErrno.eagain → channel.queue = [] ∧ ¬ channel.ended then
        some channel.queue
      else none
  | _ => some channel.queue

def component (watcher : KqueueTcpConnectionWatcher) : KqueueComponent where
  State := State
  Request := Request
  Point := Point
  Input := Input
  Action := Action
  Item := Byte
  program := program watcher
  fresh := Fresh
  valid state := state.fd.isSome = !state.closed
  attached := State.attached
  closed := State.closed
  handling := handling
  returnsEarly := returnsEarly
  registration := registration
  answers := answers

end KqueueConnection

namespace KqueueAccept

open Accept (Request State)

def returnsEarly (watcher : KqueueTcpAcceptWatcher) : Point → Bool
  | .acceptLoop accepted => watcher.option.maxAcceptPerTick ≤ accepted
  | .reported => true
  | _ => false

def registration : Action → Option (PendingOp KqueueFilter)
  | .register op => some op
  | _ => none

/-- A connection waits in the queue under the address of its peer. -/
def answers (input : Input) (channel : Channel IpEndpoint) :
    Option (List IpEndpoint) :=
  match input with
  | .accept (.accepted _) =>
      if channel.queue = [] then none else some channel.queue.tail
  | .accept (.failed errno) =>
      if errno = MacErrno.eagain → channel.queue = [] then some channel.queue
      else none
  | _ => some channel.queue

def component (watcher : KqueueTcpAcceptWatcher) : KqueueComponent where
  State := State
  Request := Request
  Point := Point
  Input := Input
  Action := Action
  Item := IpEndpoint
  program := program watcher
  fresh state := ∃ fd, state = { listenFd := some fd }
  valid state := state.listenFd.isSome
  attached := State.attached
  closed _ := false
  handling _ := true
  returnsEarly _ := returnsEarly watcher
  registration := registration
  answers := answers

end KqueueAccept

inductive KqueueWatcher where
  | accept (watcher : KqueueTcpAcceptWatcher)
  | connection (watcher : KqueueTcpConnectionWatcher)

def KqueueWatcher.component : KqueueWatcher → KqueueComponent
  | .accept watcher => KqueueAccept.component watcher
  | .connection watcher => KqueueConnection.component watcher

namespace KqueueComponent

variable (component : KqueueComponent)

abbrev Turn := Transition.Turn component.State component.Point
  component.Action

structure Store where
  state : component.State
  loop : KqueueLoop component.Item

def ops (turn : component.Turn) : List (PendingOp KqueueFilter) :=
  turn.emitted.filterMap component.registration

def lift (loop : KqueueLoop component.Item) (turn : component.Turn) :
    Transition.Turn component.Store component.Point component.Action where
  store := ⟨turn.store, (component.ops turn).foldl KqueueLoop.register loop⟩
  push := turn.push
  emitted := turn.emitted

def looped : Program component.Store component.Request KqueueRawEvent
    component.Point component.Input component.Action where
  call store request :=
    (component.program.call store.state request).map
      (component.lift store.loop)
  ready store event :=
    (store.loop.dispatch event).bind fun loop =>
      (component.program.ready store.state event).map (component.lift loop)
  resume store point input :=
    (component.answers input store.loop.channel).bind fun queue =>
      (component.program.resume store.state point input).map
        (component.lift { store.loop with
          channel := { store.loop.channel with queue } })

abbrev Scene :=
  Config component.Store component.Point component.Action

/-- Besides the steps of the watcher and its users: items arrive or end, and the
event loop, where no handler runs, waits and finishes the batch. -/
inductive SceneLabel where
  | arrive (items : List component.Item)
  | finish
  | wait (returned : Option KqueueRawEvent)
  | finishDispatch
  | code (label : Label component.Request KqueueRawEvent component.Input)

variable {component}

def withLoop (scene : component.Scene) (loop : KqueueLoop component.Item) :
    component.Scene :=
  { scene with
    store := ⟨scene.store.state, loop⟩ }

def sceneStep (scene : component.Scene) :
    component.SceneLabel → Option component.Scene
  | .arrive items =>
      if scene.store.loop.channel.ended then none
      else some (withLoop scene { scene.store.loop with
        channel := scene.store.loop.channel.arrive items })
  | .finish =>
      some (withLoop scene { scene.store.loop with
        channel := scene.store.loop.channel.finish })
  | .wait returned =>
      if scene.stack.isEmpty ∧ ¬ scene.store.loop.core.inDispatch then
        (scene.store.loop.wait returned).map (withLoop scene)
      else none
  | .finishDispatch =>
      if scene.stack.isEmpty then
        scene.store.loop.finishDispatch.map (withLoop scene)
      else none
  | .code label => component.looped.step scene label

variable (component) in
def scenes : System component.Scene component.SceneLabel where
  initial scene :=
    component.fresh scene.store.state ∧ scene.store.loop = {} ∧
      scene.stack = [] ∧ scene.log = []
  step := sceneStep

/-- The watcher is attached (its source not only queued to be), does not run,
and something waits for it in the kernel of which no event will tell. -/
structure Abandoned (scene : component.Scene) : Prop where
  attached : component.attached scene.store.state
  notClosed : component.closed scene.store.state = false
  outside : ∀ point, .code point ∈ scene.stack →
    component.handling point = false
  left : scene.store.loop.channel.queue ≠ []
  inactive : scene.store.loop.channel.active = false
  noEvent : scene.store.loop.ready = none
  notQueued : .add .read ∉ scene.store.loop.core.pendingOps

/-- A handler that returns without having drained the kernel's queue finds it
empty, or the registration active again. -/
def ReturnsCovered (scene : component.Scene) : component.SceneLabel → Prop
  | .code (.resume _) =>
      match scene.stack with
      | .code point :: _ =>
          component.returnsEarly scene.store.state point →
            scene.store.loop.channel.Covered
      | _ => True
  | _ => True

instance (scene : component.Scene) (label : component.SceneLabel) :
    Decidable (ReturnsCovered scene label) := by
  unfold ReturnsCovered
  split
  · split <;> infer_instance
  · infer_instance

end KqueueComponent

end RopHive.Network
