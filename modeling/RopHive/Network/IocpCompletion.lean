import RopHive.Schedule.IocpBackend
import RopHive.Transition.Reentrant
import RopHive.Transition.History

namespace RopHive.Network

open Transition
open RopHive.Schedule (EventCore IocpLoop PendingOp)

/-- What an action of a watcher does outside it: `reset` zeroes a record,
`touch` changes or closes something else that an operation on it uses. -/
inductive IocpEffect (Op Record : Type) where
  | register (op : PendingOp Unit)
  | post (op : Op)
  | reset (record : Record)
  | touch (record : Record)
  deriving DecidableEq, Repr

/-- A watcher of one handle as its event loop and the kernel see it. -/
structure IocpComponent where
  State : Type
  Request : Type
  Point : Type
  Input : Type
  Action : Type
  Op : Type
  Record : Type
  Result : Type
  decidableOp : DecidableEq Op
  decidableRecord : DecidableEq Record
  /-- A completion comes with its OVERLAPPED and what
  `WSAGetOverlappedResult` says of it. -/
  program : Program State Request (Record × Result) Point Input Action
  fresh : State → Prop
  record : Op → Record
  /-- The results of a zeroed OVERLAPPED and of one that is in use. -/
  zeroed : Result
  incomplete : Result
  effect : Action → Option (IocpEffect Op Record)

namespace IocpComponent

variable (component : IocpComponent)

instance : DecidableEq component.Op := component.decidableOp

instance : DecidableEq component.Record := component.decidableRecord

abbrev Turn := Transition.Turn component.State component.Point
  component.Action

abbrev Loop := IocpLoop component.Op component.Record component.Result

/-- `harmed` collects the records that were touched under a pending
operation. -/
structure Outside where
  loop : component.Loop := {}
  harmed : List component.Record := []

structure Store extends component.Outside where
  state : component.State

variable {component}

namespace Outside

variable (outside : component.Outside)

def disturb (record : component.Record) : component.Outside :=
  if outside.loop.port.busy component.record record then
    { outside with harmed := outside.harmed ++ [record] }
  else outside

def withPort
    (port : CompletionPort component.Op component.Record component.Result) :
    component.Outside :=
  { outside with
    loop := { outside.loop with port } }

def apply : IocpEffect component.Op component.Record → component.Outside
  | .register op => { outside with loop := outside.loop.register op }
  | .post op =>
      outside.withPort (outside.loop.port.post component.record op)
  | .reset record =>
      (outside.disturb record).withPort
        (outside.loop.port.write record component.zeroed)
  | .touch record => outside.disturb record

end Outside

variable (component)

def effects (turn : component.Turn) :
    List (IocpEffect component.Op component.Record) :=
  turn.emitted.filterMap component.effect

def lift (outside : component.Outside) (turn : component.Turn) :
    Transition.Turn component.Store component.Point component.Action where
  store := ⟨(component.effects turn).foldl Outside.apply outside, turn.store⟩
  push := turn.push
  emitted := turn.emitted

def overlappedResult (loop : component.Loop) (record : component.Record) :
    component.Result :=
  (loop.port.result record).getD component.incomplete

def looped : Program component.Store component.Request Unit
    component.Point component.Input component.Action where
  call store request :=
    (component.program.call store.state request).map
      (component.lift store.toOutside)
  ready store _ :=
    store.loop.dispatch.bind fun (op, loop) =>
      (component.program.ready store.state
        (component.record op,
          component.overlappedResult loop (component.record op))).map
        (component.lift { store.toOutside with loop })
  resume store point input :=
    (component.program.resume store.state point input).map
      (component.lift store.toOutside)

abbrev Scene :=
  Config component.Store component.Point component.Action

/-- Besides the steps of the watcher and its users: the kernel completes an
operation, and the event loop, where no handler runs, waits, drops a packet
and finishes the batch. -/
inductive SceneLabel where
  | complete (op : component.Op) (result : component.Result)
  | wait (count : Nat)
  | drop
  | finishDispatch
  | code (label : Label component.Request Unit component.Input)

variable {component}

def withLoop (scene : component.Scene) (loop : component.Loop) :
    component.Scene :=
  { scene with
    store := { scene.store with loop } }

def sceneStep (scene : component.Scene) :
    component.SceneLabel → Option component.Scene
  | .complete op result =>
      let loop := scene.store.loop
      if op ∈ loop.port.pending then
        some (withLoop scene { loop with
          port := loop.port.complete component.record loop.associated op
            result })
      else none
  | .wait count =>
      if scene.stack.isEmpty then
        (scene.store.loop.wait count).map (withLoop scene)
      else none
  | .drop =>
      if scene.stack.isEmpty then scene.store.loop.drop.map (withLoop scene)
      else none
  | .finishDispatch =>
      if scene.stack.isEmpty then
        scene.store.loop.finishDispatch.map (withLoop scene)
      else none
  | .code label => component.looped.step scene label

variable (component) in
def scenes : System component.Scene component.SceneLabel where
  initial scene :=
    component.fresh scene.store.state ∧ scene.store.toOutside = {} ∧
      scene.stack = [] ∧ scene.log = []
  step := sceneStep

variable (component) in
/-- What becomes of a scene in one step. -/
inductive Moves (scene : component.Scene) :
    component.SceneLabel → component.Scene → Prop
  | completed {op : component.Op} {result : component.Result} :
      op ∈ scene.store.loop.port.pending →
      Moves scene (.complete op result)
        (withLoop scene { scene.store.loop with
          port := scene.store.loop.port.complete component.record
            scene.store.loop.associated op result })
  | waited {count : Nat} {loop : component.Loop} :
      scene.store.loop.wait count = some loop →
      Moves scene (.wait count) (withLoop scene loop)
  | dropped {loop : component.Loop} :
      scene.store.loop.drop = some loop →
      Moves scene .drop (withLoop scene loop)
  | finished {loop : component.Loop} :
      scene.store.loop.finishDispatch = some loop →
      Moves scene .finishDispatch (withLoop scene loop)
  | called {request : component.Request} {turn : component.Turn} :
      (∀ frame ∈ scene.stack.head?, frame = .user) →
      component.program.call scene.store.state request = some turn →
      Moves scene (.code (.call request))
        (scene.take (component.lift scene.store.toOutside turn) scene.stack)
  | handled {op : component.Op} {loop : component.Loop}
      {turn : component.Turn} :
      scene.stack = [] → scene.store.loop.dispatch = some (op, loop) →
      component.program.ready scene.store.state
        (component.record op,
          component.overlappedResult loop (component.record op)) = some turn →
      Moves scene (.code (.ready ()))
        (scene.take (component.lift { scene.store.toOutside with loop } turn)
          [])
  | resumed {point : component.Point} {input : component.Input}
      {below : List (Frame component.Point)} {turn : component.Turn} :
      scene.stack = .code point :: below →
      component.program.resume scene.store.state point input = some turn →
      Moves scene (.code (.resume input))
        (scene.take (component.lift scene.store.toOutside turn) below)
  | left {below : List (Frame component.Point)} :
      scene.stack = .user :: below →
      Moves scene (.code .leave) { scene with stack := below }

theorem moves_of_step {scene after : component.Scene}
    {label : component.SceneLabel}
    (stepped : sceneStep scene label = some after) :
    component.Moves scene label after := by
  cases label with
  | complete op result =>
      obtain ⟨member, same⟩ := Option.ite_none_right_eq_some.mp stepped
      cases same
      exact .completed member
  | wait count =>
      obtain ⟨_, mapped⟩ := Option.ite_none_right_eq_some.mp stepped
      obtain ⟨loop, waited, rfl⟩ := Option.map_eq_some_iff.mp mapped
      exact .waited waited
  | drop =>
      obtain ⟨_, mapped⟩ := Option.ite_none_right_eq_some.mp stepped
      obtain ⟨loop, dropped, rfl⟩ := Option.map_eq_some_iff.mp mapped
      exact .dropped dropped
  | finishDispatch =>
      obtain ⟨_, mapped⟩ := Option.ite_none_right_eq_some.mp stepped
      obtain ⟨loop, finished, rfl⟩ := Option.map_eq_some_iff.mp mapped
      exact .finished finished
  | code label =>
      cases Program.step_cases stepped with
      | inl taken =>
          obtain ⟨turn, below, takes, rfl⟩ := taken
          cases takes with
          | call userOnTop called =>
              obtain ⟨turn, isCall, rfl⟩ := Option.map_eq_some_iff.mp called
              exact .called userOnTop isCall
          | ready outside readied =>
              obtain ⟨⟨op, loop⟩, dispatched, mapped⟩ :=
                Option.bind_eq_some_iff.mp readied
              obtain ⟨turn, isReady, rfl⟩ := Option.map_eq_some_iff.mp mapped
              exact .handled outside dispatched isReady
          | resume shape resumed =>
              obtain ⟨turn, isResume, rfl⟩ := Option.map_eq_some_iff.mp resumed
              exact .resumed shape isResume
      | inr left =>
          obtain ⟨rfl, below, shape, rfl⟩ := left
          exact .left shape

section Effects

variable {outside : component.Outside}

theorem disturb_of_idle {record : component.Record}
    (idle : outside.loop.port.busy component.record record = false) :
    outside.disturb record = outside := by
  simp [Outside.disturb, idle]

theorem apply_register (op : PendingOp Unit) :
    (outside.apply (.register op)).harmed = outside.harmed ∧
      (outside.apply (.register op)).loop.port = outside.loop.port :=
  ⟨rfl, IocpLoop.port_register op⟩

theorem apply_reset {record : component.Record}
    (idle : outside.loop.port.busy component.record record = false) :
    (outside.apply (.reset record)).harmed = outside.harmed ∧
      (outside.apply (.reset record)).loop.port =
        outside.loop.port.write record component.zeroed := by
  simp only [Outside.apply, disturb_of_idle idle]
  exact ⟨rfl, rfl⟩

theorem apply_touch {record : component.Record}
    (idle : outside.loop.port.busy component.record record = false) :
    outside.apply (.touch record) = outside :=
  disturb_of_idle idle

end Effects

end IocpComponent

end RopHive.Network
