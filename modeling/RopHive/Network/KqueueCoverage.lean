import RopHive.Network.KqueueReadiness

namespace RopHive.Network

open Transition
open RopHive.Schedule (EventCore KqueueFilter KqueueLoop KqueueRawEvent
  PendingOp)

namespace KqueueComponent

def follow (attached : Bool) : PendingOp KqueueFilter → Bool
  | .add .read => true
  | .remove .read => false
  | .add .write | .remove .write => attached

variable (component : KqueueComponent)

structure Conducts (before : component.State) (turn : component.Turn) :
    Prop where
  valid : component.valid turn.store
  closes : component.closed before → component.closed turn.store
  follows : component.attached turn.store =
    (component.ops turn).foldl follow (component.attached before)

def Handles (turn : component.Turn) : Prop :=
  ∃ point, .code point ∈ turn.push ∧ component.handling point

variable {component} in
theorem handles_andThen (turn : component.Turn) {point : component.Point}
    (handling : component.handling point) :
    component.Handles (turn.andThen [.code point]) :=
  ⟨point, List.mem_append_right _ (List.mem_singleton_self _), handling⟩

variable {component} in
theorem handles_await (state : component.State) {point : component.Point}
    (handling : component.handling point) :
    component.Handles (.await state point) :=
  ⟨point, List.mem_singleton_self _, handling⟩

/-- What the kernel and the event loop rely on. -/
structure Lawful : Prop where
  fresh : ∀ state, component.fresh state →
    component.valid state ∧ component.attached state = false
  call : ∀ state request turn, component.valid state →
    component.program.call state request = some turn →
    component.Conducts state turn
  ready : ∀ state event turn, component.valid state →
    component.program.ready state event = some turn →
    component.Conducts state turn ∧
      (event.filter = .read →
        component.closed turn.store ∨ component.Handles turn)
  answers : ∀ input channel queue,
    component.answers input channel = some queue → queue <:+ channel.queue
  resume : ∀ state point input turn channel queue, component.valid state →
    component.answers input channel = some queue →
    component.program.resume state point input = some turn →
    component.Conducts state turn ∧
      (component.handling point →
        component.closed turn.store ∨ component.Handles turn ∨
          queue = [] ∨ component.returnsEarly state point)

def Attended (scene : component.Scene) : Prop :=
  component.closed scene.store.state ∨
    ∃ point, .code point ∈ scene.stack ∧ component.handling point

structure Inv (scene : component.Scene) : Prop where
  valid : component.valid scene.store.state
  registered : .read ∈ scene.store.loop.core.upcoming ↔
    component.attached scene.store.state
  watched : scene.store.loop.Watched (component.Attended scene)

section Registration

variable {Item : Type} {attended : Prop} {loop : KqueueLoop Item}

theorem upcoming_foldl_register (ops : List (PendingOp KqueueFilter))
    {attached : Bool} (registered : .read ∈ loop.core.upcoming ↔ attached) :
    .read ∈ (ops.foldl KqueueLoop.register loop).core.upcoming ↔
      ops.foldl follow attached := by
  induction ops generalizing loop attached with
  | nil => exact registered
  | cons op ops ih =>
      apply ih
      rw [KqueueLoop.upcoming_register]
      cases op with
      | add filter => cases filter <;> simp [follow, registered]
      | remove filter => cases filter <;> simp [follow, registered]

theorem watched_foldl_register (ops : List (PendingOp KqueueFilter))
    (watched : loop.Watched attended) :
    (ops.foldl KqueueLoop.register loop).Watched attended := by
  induction ops generalizing loop with
  | nil => exact watched
  | cons op ops ih => exact ih (watched.register op)

theorem watched_answered (watched : loop.Watched attended)
    {queue : List Item} (taken : queue <:+ loop.channel.queue) :
    { loop with
      channel := { loop.channel with queue } }.Watched attended := by
  refine ⟨watched.armed, ?_⟩
  intro registered
  refine (watched.noted registered).imp id (Or.imp (Or.imp ?_ id) id)
  intro empty
  rw [empty] at taken
  exact List.suffix_nil.mp taken

end Registration

section Run

variable {component} {scene after : component.Scene}

theorem take_inv {turn : component.Turn} {loop : KqueueLoop component.Item}
    {below : List (Frame component.Point)}
    (conducts : component.Conducts scene.store.state turn)
    (registered : .read ∈ loop.core.upcoming ↔
      component.attached scene.store.state)
    (watched : loop.Watched
      (component.Attended (scene.take (component.lift loop turn) below))) :
    component.Inv (scene.take (component.lift loop turn) below) where
  valid := conducts.valid
  registered := by
    simp only [Config.take, lift, conducts.follows]
    exact upcoming_foldl_register _ registered
  watched := watched_foldl_register _ watched

theorem attended_take {turn : component.Turn}
    {loop : KqueueLoop component.Item} {below : List (Frame component.Point)}
    (handles : component.closed turn.store ∨ component.Handles turn) :
    component.Attended (scene.take (component.lift loop turn) below) := by
  refine handles.imp id ?_
  rintro ⟨point, pushed, handling⟩
  exact ⟨point, List.mem_append_left _ pushed, handling⟩

theorem attended_keep {turn : component.Turn}
    {loop : KqueueLoop component.Item} {below : List (Frame component.Point)}
    (conducts : component.Conducts scene.store.state turn)
    (kept : ∀ point, .code point ∈ scene.stack → component.handling point →
      .code point ∈ below) (attended : component.Attended scene) :
    component.Attended (scene.take (component.lift loop turn) below) := by
  refine attended.imp conducts.closes ?_
  rintro ⟨point, member, handling⟩
  exact ⟨point, List.mem_append_right _ (kept point member handling),
    handling⟩

theorem withLoop_inv {loop : KqueueLoop component.Item}
    (inv : component.Inv scene)
    (same : loop.core.upcoming = scene.store.loop.core.upcoming)
    (watched : loop.Watched (component.Attended scene)) :
    component.Inv (withLoop scene loop) where
  valid := inv.valid
  registered := by
    have registered := inv.registered
    rw [← same] at registered
    exact registered
  watched := watched

theorem ready_inv (lawful : component.Lawful) (inv : component.Inv scene)
    {event : KqueueRawEvent} {turn : component.Turn}
    {loop : KqueueLoop component.Item} (outside : scene.stack = [])
    (dispatched : scene.store.loop.dispatch event = some loop)
    (readied : component.program.ready scene.store.state event = some turn) :
    component.Inv (scene.take (component.lift loop turn) []) := by
  obtain ⟨conducts, handles⟩ := lawful.ready _ _ _ inv.valid readied
  unfold KqueueLoop.dispatch at dispatched
  cases filter : event.filter with
  | read =>
      simp only [filter, Option.ite_none_right_eq_some,
        Option.some.injEq] at dispatched
      obtain ⟨-, rfl⟩ := dispatched
      refine take_inv conducts inv.registered ⟨inv.watched.armed, fun _ => ?_⟩
      exact .inl (attended_take (handles filter))
  | write =>
      simp only [filter, Option.ite_none_right_eq_some,
        Option.some.injEq] at dispatched
      obtain ⟨-, rfl⟩ := dispatched
      apply take_inv conducts inv.registered
      apply inv.watched.imp
      apply attended_keep conducts
      simp [outside]

theorem resume_inv (lawful : component.Lawful) (inv : component.Inv scene)
    {point : component.Point} {input : component.Input}
    {turn : component.Turn} {queue : List component.Item}
    {below : List (Frame component.Point)}
    (shape : scene.stack = .code point :: below)
    (covered : component.returnsEarly scene.store.state point →
      scene.store.loop.channel.Covered)
    (answered : component.answers input scene.store.loop.channel = some queue)
    (resumed : component.program.resume scene.store.state point input =
      some turn) :
    component.Inv (scene.take (component.lift { scene.store.loop with
      channel := { scene.store.loop.channel with queue } } turn) below) := by
  obtain ⟨conducts, returns⟩ :=
    lawful.resume _ _ _ _ _ _ inv.valid answered resumed
  have taken := lawful.answers _ _ _ answered
  refine take_inv conducts inv.registered ?_
  cases handling : component.handling point with
  | false =>
      refine (watched_answered inv.watched taken).imp ?_
      apply attended_keep conducts
      intro other member isHandling
      rw [shape] at member
      cases List.mem_cons.mp member with
      | inl same =>
          cases same
          rw [handling] at isHandling
          cases isHandling
      | inr deeper => exact deeper
  | true =>
      refine ⟨inv.watched.armed, fun _ => ?_⟩
      rcases returns handling with closes | handles | drained | early
      · exact .inl (attended_take (.inl closes))
      · exact .inl (attended_take (.inr handles))
      · exact .inr (.inl (.inl drained))
      · refine .inr (.inl ((covered early).imp ?_ id))
        intro empty
        rw [empty] at taken
        exact List.suffix_nil.mp taken

theorem code_inv (lawful : component.Lawful) (inv : component.Inv scene)
    {label : Label component.Request KqueueRawEvent component.Input}
    (covered : ReturnsCovered scene (.code label))
    (stepped : component.looped.step scene label = some after) :
    component.Inv after := by
  cases Program.step_cases stepped with
  | inl taken =>
      obtain ⟨turn, below, takes, rfl⟩ := taken
      cases takes with
      | call _ called =>
          simp only [looped, Option.map_eq_some_iff] at called
          obtain ⟨turn, called, rfl⟩ := called
          have conducts := lawful.call _ _ _ inv.valid called
          apply take_inv conducts inv.registered
          apply inv.watched.imp
          exact attended_keep conducts fun _ member _ => member
      | ready outside readied =>
          simp only [looped, Option.bind_eq_some_iff,
            Option.map_eq_some_iff] at readied
          obtain ⟨loop, dispatched, turn, readied, rfl⟩ := readied
          exact ready_inv lawful inv outside dispatched readied
      | resume shape resumed =>
          simp only [looped, Option.bind_eq_some_iff,
            Option.map_eq_some_iff] at resumed
          obtain ⟨queue, answered, turn, resumed, rfl⟩ := resumed
          simp only [ReturnsCovered, shape] at covered
          exact resume_inv lawful inv shape covered answered resumed
  | inr left =>
      obtain ⟨-, below, shape, rfl⟩ := left
      refine ⟨inv.valid, inv.registered, inv.watched.imp (Or.imp id ?_)⟩
      rintro ⟨point, member, handling⟩
      rw [shape] at member
      exact ⟨point, by simpa using member, handling⟩

theorem step_inv (lawful : component.Lawful) {label : component.SceneLabel}
    (inv : component.Inv scene) (covered : ReturnsCovered scene label)
    (stepped : sceneStep scene label = some after) : component.Inv after := by
  cases label with
  | arrive items =>
      simp only [sceneStep, Option.ite_none_left_eq_some,
        Option.some.injEq] at stepped
      obtain ⟨-, rfl⟩ := stepped
      exact withLoop_inv inv rfl (inv.watched.arrive items)
  | finish =>
      cases stepped
      exact withLoop_inv inv rfl inv.watched.finish
  | wait returned =>
      simp only [sceneStep, Option.ite_none_right_eq_some,
        Option.map_eq_some_iff] at stepped
      obtain ⟨-, loop, waited, rfl⟩ := stepped
      exact withLoop_inv inv (KqueueLoop.upcoming_wait waited)
        (inv.watched.wait waited)
  | finishDispatch =>
      simp only [sceneStep, Option.ite_none_right_eq_some,
        Option.map_eq_some_iff] at stepped
      obtain ⟨-, loop, finished, rfl⟩ := stepped
      exact withLoop_inv inv (KqueueLoop.upcoming_finishDispatch finished)
        (inv.watched.finishDispatch finished)
  | code label => exact code_inv lawful inv covered stepped

theorem not_abandoned_of_inv (inv : component.Inv scene) :
    ¬ Abandoned scene := by
  intro abandoned
  have upcoming := inv.registered.mpr abandoned.attached
  cases EventCore.mem_sources_or_add_mem_of_mem_upcoming upcoming with
  | inr queued => exact abandoned.notQueued queued
  | inl present =>
      rcases inv.watched.noted (inv.watched.armed.mpr present) with
        (closed | ⟨point, member, handling⟩) | (empty | active) | event
      · simp [abandoned.notClosed] at closed
      · simp [abandoned.outside point member] at handling
      · exact abandoned.left empty
      · simp [abandoned.inactive] at active
      · simp [abandoned.noEvent] at event

theorem inv_of_initial (lawful : component.Lawful)
    (isInitial : component.scenes.initial scene) : component.Inv scene := by
  obtain ⟨fresh, empty, stack, -⟩ := isInitial
  obtain ⟨valid, detached⟩ := lawful.fresh _ fresh
  refine ⟨valid, ?_, ?_, ?_⟩
  · simp [empty, detached, EventCore.upcoming]
  · simp [empty]
  · simp [empty]

end Run

end KqueueComponent

namespace KqueueAccept

open Accept (Request State)

variable (watcher : KqueueTcpAcceptWatcher)

/-- A turn of the handler leaves the registration alone and either goes on,
returns early or has drained the queue. -/
structure Handled (state : State) (point : Point) (turn : Turn)
    (queue : List IpEndpoint) : Prop where
  conducts : (component watcher).Conducts state turn
  returns : (component watcher).Handles turn ∨ queue = [] ∨
    returnsEarly watcher point

theorem conducts_reportError {state : State} (valid : state.listenFd.isSome)
    (err : Nat) :
    (component watcher).Conducts state (reportError watcher state err) := by
  unfold reportError
  cases watcher.onError with
  | true => exact ⟨valid, id, rfl⟩
  | false => exact ⟨valid, id, rfl⟩

theorem handles_reportError (state : State) (err : Nat) :
    (component watcher).Handles (reportError watcher state err) :=
  KqueueComponent.handles_andThen _ rfl

theorem handled_reportError {state : State} (valid : state.listenFd.isSome)
    (err : Nat) (point : Point) (queue : List IpEndpoint) :
    Handled watcher state point (reportError watcher state err) queue :=
  ⟨conducts_reportError watcher valid err, .inl (handles_reportError watcher _ _)⟩

theorem handled_await {state : State} (valid : state.listenFd.isSome)
    (point next : Point) (queue : List IpEndpoint) :
    Handled watcher state point (.await state next) queue :=
  ⟨⟨valid, id, rfl⟩, .inl (KqueueComponent.handles_await _ rfl)⟩

theorem handled_acceptAnswered {state : State}
    (valid : state.listenFd.isSome) (accepted : Nat) {result : AcceptResult}
    {channel : Channel IpEndpoint} {queue : List IpEndpoint}
    (answered : answers (.accept result) channel = some queue) :
    Handled watcher state (.accept accepted)
      (acceptAnswered watcher state accepted result) queue := by
  cases result with
  | accepted clientFd => exact handled_await watcher valid _ _ _
  | failed errno =>
      simp only [acceptAnswered]
      split
      · next drained =>
          obtain rfl : errno = MacErrno.eagain := drained.elim id id
          simp only [answers, Option.ite_none_right_eq_some,
            Option.some.injEq] at answered
          obtain ⟨empty, rfl⟩ := answered
          exact ⟨⟨valid, id, rfl⟩, .inr (.inl (empty trivial))⟩
      · split
        · exact handled_await watcher valid _ _ _
        · exact handled_reportError watcher valid _ _ _

theorem handled_prepared {state : State} (valid : state.listenFd.isSome)
    (accepted clientFd : Nat) (result : CallResult)
    (queue : List IpEndpoint) :
    Handled watcher state (.prepare accepted clientFd)
      (prepared watcher state accepted clientFd result) queue := by
  cases result with
  | ok =>
      refine ⟨?_, .inl (KqueueComponent.handles_andThen _ rfl)⟩
      unfold prepared handOver
      cases watcher.onAccept with
      | true => exact ⟨valid, id, rfl⟩
      | false => exact ⟨valid, id, rfl⟩
  | failed errno =>
      have conducts := conducts_reportError watcher valid
        (if errno ≠ 0 then errno else MacErrno.eio)
      exact ⟨⟨conducts.valid, conducts.closes, conducts.follows⟩,
        .inl (handles_reportError watcher _ _)⟩

theorem handled_resume {state : State} {point : Point} {input : Input}
    {turn : Turn} {channel : Channel IpEndpoint} {queue : List IpEndpoint}
    (valid : state.listenFd.isSome)
    (answered : answers input channel = some queue)
    (resumed : resume watcher state point input = some turn) :
    Handled watcher state point turn queue := by
  cases point <;> cases input <;> cases resumed
  case socketError.socketError answer =>
      exact handled_reportError watcher valid _ _ _
  case acceptLoop.proceed accepted =>
      unfold acceptLoop
      split
      · exact handled_await watcher valid _ _ _
      · next reached =>
          refine ⟨⟨valid, id, rfl⟩, .inr (.inr ?_)⟩
          simpa [returnsEarly] using reached
  case accept.accept accepted result =>
      exact handled_acceptAnswered watcher valid accepted answered
  case prepare.prepared accepted clientFd result =>
      exact handled_prepared watcher valid accepted clientFd result queue
  case reported.proceed => exact ⟨⟨valid, id, rfl⟩, .inr (.inr rfl)⟩

theorem conducts_onReady {state : State} (valid : state.listenFd.isSome)
    (event : KqueueRawEvent) :
    (component watcher).Conducts state (onReady watcher state event) ∧
      (component watcher).Handles (onReady watcher state event) := by
  obtain ⟨fd, opened⟩ := Option.isSome_iff_exists.mp valid
  simp only [onReady, opened]
  split
  · exact ⟨conducts_reportError watcher valid _,
      handles_reportError watcher _ _⟩
  · split
    · exact ⟨⟨valid, id, rfl⟩, KqueueComponent.handles_await _ rfl⟩
    · exact ⟨⟨valid, id, rfl⟩, KqueueComponent.handles_await _ rfl⟩

theorem conducts_call {state : State} (valid : state.listenFd.isSome)
    (request : Request) :
    (component watcher).Conducts state (call state request) := by
  obtain ⟨fd, attached⟩ := state
  cases request with
  | start => cases attached <;> exact ⟨valid, id, rfl⟩
  | stop => cases attached <;> exact ⟨valid, id, rfl⟩

theorem answers_suffix {input : Input} {channel : Channel IpEndpoint}
    {queue : List IpEndpoint}
    (answered : answers input channel = some queue) :
    queue <:+ channel.queue := by
  unfold answers at answered
  split at answered
  · obtain ⟨-, answered⟩ := Option.ite_none_left_eq_some.mp answered
    cases answered
    exact List.tail_suffix _
  · obtain ⟨-, answered⟩ := Option.ite_none_right_eq_some.mp answered
    cases answered
    exact List.suffix_refl _
  · cases answered
    exact List.suffix_refl _

theorem lawful : (component watcher).Lawful where
  fresh := by
    rintro _ ⟨fd, rfl⟩
    exact ⟨rfl, rfl⟩
  call := by
    intro state request turn valid called
    cases called
    exact conducts_call watcher valid request
  ready := by
    intro state event turn valid readied
    obtain ⟨-, readied⟩ := Option.ite_none_right_eq_some.mp readied
    cases readied
    exact (conducts_onReady watcher valid event).imp id
      fun handles _ => .inr handles
  answers _ _ _ := answers_suffix
  resume := by
    intro state point input turn channel queue valid answered resumed
    have handled := handled_resume watcher valid answered resumed
    exact ⟨handled.conducts, fun _ => .inr handled.returns⟩

end KqueueAccept

namespace KqueueConnection

open Connection (Request Input)

variable (watcher : KqueueTcpConnectionWatcher)

/-- `closed_` is set together with `fd_`. -/
abbrev Valid (state : State) : Prop := state.fd.isSome = !state.closed

/-- A turn of the code at `point` leaves the registration as `attached_` has it;
a handler goes on, closes the watcher, returns early or has drained the queue. -/
structure Handled (state : State) (point : Point) (turn : Turn)
    (queue : List Byte) : Prop where
  conducts : (component watcher).Conducts state turn
  returns : handling point → turn.store.closed ∨
    (component watcher).Handles turn ∨ queue = [] ∨ returnsEarly state point

theorem conducts_closeNow {state : State} (valid : Valid state) :
    (component watcher).Conducts state (closeNow watcher state) := by
  obtain ⟨fd, attached, peerClosed, wantSendReady, closed, writeAttached⟩ :=
    state
  cases closed with
  | true => exact ⟨valid, id, rfl⟩
  | false =>
      obtain ⟨descriptor, rfl⟩ := Option.isSome_iff_exists.mp valid
      cases attached <;> cases writeAttached <;>
        cases present : watcher.callbacks.onClose <;>
        simp only [closeNow, present] <;> exact ⟨rfl, fun _ => rfl, rfl⟩

theorem closed_closeNow (state : State) :
    (closeNow watcher state).store.closed := by
  cases closed : state.closed with
  | true => simp [closeNow, closed]
  | false => cases attached : state.attached <;>
      simp [closeNow, stop, closed, attached]

theorem handled_closeNow {state : State} (valid : Valid state)
    (point : Point) (queue : List Byte) :
    Handled watcher state point (closeNow watcher state) queue :=
  ⟨conducts_closeNow watcher valid,
    fun _ => .inl (closed_closeNow watcher state)⟩

theorem conducts_callBack {state : State} (valid : Valid state)
    {action : Action} (unregistering : registration action = none)
    (present : Bool) (frames : List (Frame Point)) :
    (component watcher).Conducts state
      ((Turn.callBack state present action).andThen frames) := by
  cases present with
  | false => exact ⟨valid, id, rfl⟩
  | true =>
      have quiet : [action].filterMap registration = [] := by
        simp [unregistering]
      exact ⟨valid, id, (congrArg (List.foldl _ _) quiet).symm⟩

theorem conducts_sendWhile {state : State} (valid : Valid state)
    (data : List Byte) (limit total : Nat) :
    (component watcher).Conducts state (sendWhile state data limit total) := by
  unfold sendWhile
  split <;> exact ⟨valid, id, rfl⟩

theorem conducts_sendAnswered {state : State} (valid : Valid state)
    {data : List Byte} {limit total : Nat} {result : SendResult} {turn : Turn}
    (answered : sendAnswered watcher state data limit total result =
      some turn) : (component watcher).Conducts state turn := by
  cases result with
  | accepted count =>
      simp only [sendAnswered, Option.ite_none_right_eq_some,
        Option.some.injEq] at answered
      obtain ⟨-, rfl⟩ := answered
      have conducts := conducts_sendWhile watcher valid data limit
        (total + count)
      exact ⟨conducts.valid, conducts.closes, conducts.follows⟩
  | nothing =>
      cases answered
      exact conducts_callBack watcher valid rfl _ _
  | failed errno =>
      simp only [sendAnswered, armWritable] at answered
      split at answered
      · cases answered
        exact conducts_sendWhile watcher valid data _ _
      · split at answered
        · split at answered <;> cases answered <;> exact ⟨valid, id, rfl⟩
        · cases answered
          exact conducts_callBack watcher valid rfl _ _

theorem conducts_call {state : State} (valid : Valid state)
    (request : Request) :
    (component watcher).Conducts state (call watcher state request) := by
  cases request with
  | start =>
      simp only [call, start]
      split <;> exact ⟨valid, id, rfl⟩
  | stop =>
      obtain ⟨fd, attached, peerClosed, wantSendReady, closed, writeAttached⟩ :=
        state
      cases attached <;> cases writeAttached <;> exact ⟨valid, id, rfl⟩
  | trySend data =>
      simp only [call, trySend]
      split
      · exact ⟨valid, id, rfl⟩
      · split
        · exact ⟨valid, id, rfl⟩
        · exact conducts_sendWhile watcher valid data _ _
  | shutdownWrite =>
      simp only [call]
      split <;> exact ⟨valid, id, rfl⟩
  | close => exact conducts_closeNow watcher valid

theorem conducts_eventError {state : State} (valid : Valid state)
    (event : KqueueRawEvent) :
    (component watcher).Conducts state (eventError watcher state event) ∧
      (component watcher).Handles (eventError watcher state event) := by
  unfold eventError
  split
  · exact ⟨conducts_callBack watcher valid rfl _ _,
      KqueueComponent.handles_andThen _ rfl⟩
  · exact ⟨⟨valid, id, rfl⟩, KqueueComponent.handles_await _ rfl⟩

theorem conducts_onReadReady {state : State} (valid : Valid state)
    (event : KqueueRawEvent) :
    (component watcher).Conducts state (onReadReady watcher state event) ∧
      ((onReadReady watcher state event).store.closed ∨
        (component watcher).Handles (onReadReady watcher state event)) := by
  obtain ⟨fd, attached, peerClosed, wantSendReady, closed, writeAttached⟩ :=
    state
  cases fd with
  | none =>
      have isClosed : closed = true := by simpa [Valid] using valid
      exact ⟨⟨valid, id, rfl⟩, .inl isClosed⟩
  | some descriptor =>
      simp only [onReadReady]
      split
      · exact (conducts_eventError watcher valid event).imp id .inr
      · exact ⟨⟨valid, id, rfl⟩, .inr (KqueueComponent.handles_await _ rfl)⟩

theorem conducts_onWriteReady {state : State} (valid : Valid state)
    (event : KqueueRawEvent) :
    (component watcher).Conducts state (onWriteReady watcher state event) := by
  unfold onWriteReady
  split
  · exact ⟨valid, id, rfl⟩
  · split
    · exact (conducts_eventError watcher valid event).1
    · split
      · have noticed : Valid { state with peerClosed := true } := valid
        have conducts := conducts_closeNow watcher noticed
        exact ⟨conducts.valid, conducts.closes, conducts.follows⟩
      · split
        · obtain ⟨fd, attached, peerClosed, wantSendReady, closed, armed⟩ :=
            state
          cases armed <;> cases watcher.callbacks.onSendReady <;>
            exact ⟨valid, id, rfl⟩
        · exact ⟨valid, id, rfl⟩

theorem handled_recvAnswered {state : State} (valid : Valid state)
    (remaining : Nat) {result : RecvResult} {turn : Turn}
    {channel : Channel Byte} {queue : List Byte}
    (answered : answers (.recv result) channel = some queue)
    (resumed : recvAnswered watcher state remaining result = some turn) :
    Handled watcher state (.recv remaining) turn queue := by
  cases result with
  | received chunk =>
      simp only [recvAnswered, Option.ite_none_right_eq_some,
        Option.some.injEq] at resumed
      obtain ⟨-, rfl⟩ := resumed
      exact ⟨conducts_callBack watcher valid rfl _ _,
        fun _ => .inr (.inl (KqueueComponent.handles_andThen _ rfl))⟩
  | endOfStream =>
      simp only [recvAnswered, Option.ite_none_right_eq_some,
        Option.some.injEq] at resumed
      obtain ⟨-, rfl⟩ := resumed
      have noticed : Valid { state with peerClosed := true } := valid
      have conducts := conducts_closeNow watcher noticed
      exact ⟨⟨conducts.valid, conducts.closes, conducts.follows⟩,
        fun _ => .inl (closed_closeNow watcher _)⟩
  | failed errno =>
      simp only [recvAnswered, Option.ite_none_right_eq_some] at resumed
      obtain ⟨-, resumed⟩ := resumed
      split at resumed
      · cases resumed
        exact ⟨⟨valid, id, rfl⟩,
          fun _ => .inr (.inl (KqueueComponent.handles_await _ rfl))⟩
      · split at resumed
        · next drained =>
            cases resumed
            obtain rfl : errno = MacErrno.eagain := drained.elim id id
            simp only [answers, Option.ite_none_right_eq_some,
              Option.some.injEq] at answered
            obtain ⟨empty, rfl⟩ := answered
            unfold afterRead
            split
            · exact handled_closeNow watcher valid _ _
            · exact ⟨⟨valid, id, rfl⟩,
                fun _ => .inr (.inr (.inl (empty trivial).1))⟩
        · cases resumed
          exact ⟨conducts_callBack watcher valid rfl _ _,
            fun _ => .inr (.inl (KqueueComponent.handles_andThen _ rfl))⟩

theorem handled_handleRead {state : State} (valid : Valid state)
    (remaining : Nat) (queue : List Byte) :
    Handled watcher state (.readLoop remaining)
      (handleRead watcher state remaining) queue := by
  unfold handleRead afterRead
  split
  · exact ⟨⟨valid, id, rfl⟩,
      fun _ => .inr (.inl (KqueueComponent.handles_await _ rfl))⟩
  · next reached =>
      split
      · exact handled_closeNow watcher valid _ _
      · next peerOpen =>
          refine ⟨⟨valid, id, rfl⟩, fun _ => .inr (.inr (.inr ?_))⟩
          simp only [returnsEarly, Bool.and_eq_true, decide_eq_true_eq]
          exact ⟨by omega, by simpa using peerOpen⟩

theorem handled_resume {state : State} {point : Point} {input : Input}
    {turn : Turn} {channel : Channel Byte} {queue : List Byte}
    (valid : Valid state) (answered : answers input channel = some queue)
    (resumed : resume watcher state point input = some turn) :
    Handled watcher state point turn queue := by
  unfold resume at resumed
  split at resumed
  case h_1 =>
      exact ⟨conducts_sendAnswered watcher valid resumed, nofun⟩
  case h_2 =>
      cases resumed
      have conducts := conducts_closeNow watcher valid
      exact ⟨⟨conducts.valid, conducts.closes, conducts.follows⟩, nofun⟩
  case h_3 =>
      cases resumed
      exact ⟨⟨valid, id, rfl⟩, nofun⟩
  case h_4 =>
      cases resumed
      exact ⟨conducts_callBack watcher valid rfl _ _,
        fun _ => .inr (.inl (KqueueComponent.handles_andThen _ rfl))⟩
  case h_5 | h_8 =>
      cases resumed
      exact handled_closeNow watcher valid _ _
  case h_6 =>
      cases resumed
      exact handled_handleRead watcher valid _ _
  case h_7 => exact handled_recvAnswered watcher valid _ answered resumed
  case h_9 => cases resumed

theorem answers_suffix {input : Input} {channel : Channel Byte}
    {queue : List Byte} (answered : answers input channel = some queue) :
    queue <:+ channel.queue := by
  unfold answers at answered
  split at answered
  · obtain ⟨-, answered⟩ := Option.ite_none_right_eq_some.mp answered
    cases answered
    exact List.drop_suffix _ _
  · obtain ⟨-, answered⟩ := Option.ite_none_right_eq_some.mp answered
    cases answered
    exact List.suffix_refl _
  · obtain ⟨-, answered⟩ := Option.ite_none_right_eq_some.mp answered
    cases answered
    exact List.suffix_refl _
  · cases answered
    exact List.suffix_refl _

theorem lawful : (component watcher).Lawful where
  fresh := by
    rintro _ ⟨fd, rfl⟩
    exact ⟨rfl, rfl⟩
  call := by
    intro state request turn valid called
    cases called
    exact conducts_call watcher valid request
  ready := by
    intro state event turn valid readied
    cases readied
    obtain ⟨filter, error, eof, data⟩ := event
    cases filter with
    | read =>
        exact (conducts_onReadReady watcher valid _).imp id fun returns _ =>
          returns
    | write => exact ⟨conducts_onWriteReady watcher valid _, nofun⟩
  answers _ _ _ := answers_suffix
  resume := by
    intro state point input turn channel queue valid answered resumed
    have handled := handled_resume watcher valid answered resumed
    exact ⟨handled.conducts, handled.returns⟩

end KqueueConnection

theorem KqueueWatcher.lawful : (watcher : KqueueWatcher) →
    watcher.component.Lawful
  | .accept watcher => KqueueAccept.lawful watcher
  | .connection watcher => KqueueConnection.lawful watcher

namespace KqueueComponent

theorem not_abandoned_of_returnsCovered (watcher : KqueueWatcher)
    {scene : watcher.component.Scene}
    (reached : watcher.component.scenes.ReachableUnder ReturnsCovered scene) :
    ¬ Abandoned scene := by
  have inv : watcher.component.Inv scene :=
    reached.invariant _ (fun _ => inv_of_initial watcher.lawful)
      fun _ _ _ inv covered stepped =>
        step_inv watcher.lawful inv covered stepped
  exact not_abandoned_of_inv inv

def sampleWatcher : KqueueTcpConnectionWatcher where
  option := { maxReadBytesPerTick := 2 }
  callbacks := { onRecv := true }

abbrev SampleScene := (KqueueWatcher.connection sampleWatcher).component.Scene

def sampleScene : SampleScene where
  store := ⟨({ fd := some 5 } : KqueueConnection.State), {}⟩
  stack := []
  log := []

abbrev SampleLabel :=
  (KqueueWatcher.connection sampleWatcher).component.SceneLabel

def sampleScenes : System SampleScene SampleLabel :=
  (KqueueWatcher.connection sampleWatcher).component.scenes

theorem sampleScene_initial : sampleScenes.initial sampleScene :=
  ⟨⟨5, rfl⟩, rfl, rfl, rfl⟩

def observe (scene : SampleScene) :
    KqueueConnection.State × KqueueLoop Byte × Bool :=
  (scene.store.state, scene.store.loop, scene.stack.isEmpty)

def asked (request : Connection.Request) : SampleLabel :=
  .code (.call request)

def answered (input : Connection.Input) : SampleLabel :=
  .code (.resume input)

/-- The third byte arrives while the first two are handed over. -/
def thirdByteMeanwhile : List SampleLabel :=
  [asked .start, .arrive [(1 : Byte), (2 : Byte)],
    .wait (some { filter := .read }), .code (.ready { filter := .read }),
    answered .proceed, answered (.recv (.received [1, 2])),
    .arrive [(3 : Byte)], .code .leave, answered .proceed, .finishDispatch]

theorem not_abandoned_of_returnsCovered_thirdByteMeanwhile :
    ∃ scene : SampleScene, scene.store.loop.channel.queue = [(3 : Byte)] ∧
      scene.stack = [] ∧ ¬ Abandoned scene := by
  have run : ((sampleScenes.replay sampleScene thirdByteMeanwhile).map
      observe).map (fun seen => (seen.2.1.channel.queue, seen.2.2)) =
        some ([(3 : Byte)], true) := by
    decide +kernel
  have covered : sampleScenes.Follows ReturnsCovered sampleScene
      thirdByteMeanwhile := by decide +kernel
  rw [Option.map_map] at run
  obtain ⟨scene, ends, found⟩ := Option.map_eq_some_iff.mp run
  obtain ⟨left, returned⟩ := Prod.mk.inj found
  refine ⟨scene, left, List.isEmpty_iff.mp returned, ?_⟩
  exact not_abandoned_of_returnsCovered (.connection sampleWatcher)
    (System.ReachableUnder.replay thirdByteMeanwhile
      (.start sampleScene_initial) covered ends)

/-- Three bytes are there when the event is collected. -/
def thirdByteBefore : List SampleLabel :=
  [asked .start, .arrive [(1 : Byte), (2 : Byte), (3 : Byte)],
    .wait (some { filter := .read }), .code (.ready { filter := .read }),
    answered .proceed, answered (.recv (.received [1, 2])), .code .leave,
    answered .proceed, .finishDispatch]

theorem thirdByteBefore_abandons :
    ¬ ∀ scene, sampleScenes.Reachable scene → ¬ Abandoned scene := by
  have run : (sampleScenes.replay sampleScene thirdByteBefore).map observe =
      some ({ fd := some 5, attached := true },
        { channel := { queue := [3], registered := true }
          core := { sources := [.read] } }, true) := by
    decide +kernel
  obtain ⟨scene, ends, found⟩ := Option.map_eq_some_iff.mp run
  obtain ⟨state, rest⟩ := Prod.mk.inj found
  obtain ⟨loop, returned⟩ := Prod.mk.inj rest
  intro claimed
  apply claimed scene (System.Reachable.replay thirdByteBefore
    (.start sampleScene_initial) ends)
  constructor
  · rw [state]
    rfl
  · rw [state]
    rfl
  · simp [List.isEmpty_iff.mp returned]
  · rw [loop]
    exact List.cons_ne_nil _ _
  · rw [loop]
  · rw [loop]
  · rw [loop]
    exact List.not_mem_nil

end KqueueComponent

end RopHive.Network
