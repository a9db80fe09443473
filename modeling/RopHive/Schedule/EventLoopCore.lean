import RopHive.Schedule.EventCore
import RopHive.Schedule.InterestBackend
import RopHive.Transition.History

namespace RopHive.Schedule

open Transition

/-! An `IEventLoopCore` with its backend and the sources that are added to it.
`addSource` and `removeSource` may come from any thread at any time; the rest
runs on the thread of the core, dispatch handlers included. -/

/-- What the constructor of a source fixes. -/
structure Profile (Source : Type) where
  fd : Source → Int
  type : Source → BackendType

structure SourceState (Events : Type) where
  events : Events
  armed : Bool := false
  /-- `backend_` is set, and it is the backend of the core. -/
  backend : Bool := false

/-- `EpollRawEvent` and `PollRawEvent`, which both begin with the
descriptor. -/
structure RawEvent (Events : Type) where
  fd : Int
  events : Events
  deriving DecidableEq, Repr

def Profile.matches {Source Events : Type} (profile : Profile Source)
    (event : RawEvent Events) (source : Source) : Bool :=
  event.fd = profile.fd source

structure EventLoopCore {Events : Type} (backend : InterestBackend Events)
    (Source : Type) extends EventCore Source where
  table : backend.Table
  state : Source → SourceState Events

namespace EventLoopCore

variable {Events : Type} {backend : InterestBackend Events} {Source : Type}
  [DecidableEq Source] (profile : Profile Source)
  (core : EventLoopCore backend Source)

def isSourceMatchBackend (backend : InterestBackend Events)
    (source : Source) : Bool :=
  profile.type source = backend.type

def setState (source : Source) (fields : SourceState Events) :
    EventLoopCore backend Source :=
  { core with
    state := Function.update core.state source fields }

def arm (source : Source) : EventLoopCore backend Source :=
  if !isSourceMatchBackend profile backend source then core
  else if (core.state source).armed then core
  else
    { core with
      table := backend.registerFd core.table (profile.fd source)
        (core.state source).events }.setState source
          { core.state source with
            armed := true
            backend := true }

def disarm (source : Source) : EventLoopCore backend Source :=
  if !isSourceMatchBackend profile backend source then core
  else if !(core.state source).armed then core
  else
    { core with
      table := backend.unregisterFd core.table (profile.fd source) }.setState
        source { core.state source with
          armed := false
          backend := false }

def setEvents (source : Source) (events : Events) :
    EventLoopCore backend Source :=
  let fields := core.state source
  let changed := core.setState source { fields with events }
  if fields.armed && fields.backend &&
      isSourceMatchBackend profile backend source then
    { changed with
      table := backend.registerFd core.table (profile.fd source) events }
  else changed

/-- One round of the loop of `applyPendingChanges`. -/
def applyOp : PendingOp Source → EventLoopCore backend Source
  | .add source =>
      { core.arm profile source with
        sources := EventCore.applyOp core.sources (.add source) }
  | .remove source =>
      { core.disarm profile source with
        sources := EventCore.applyOp core.sources (.remove source) }

def push (op : PendingOp Source) : EventLoopCore backend Source :=
  { core with
    pendingOps := core.pendingOps ++ [op] }

/-- `applyPendingChanges` as a whole. -/
def applyPendingChanges : EventLoopCore backend Source :=
  if core.inDispatch then core
  else
    core.pendingOps.foldl (applyOp profile) { core with
      pendingOps := [] }

section Fields

variable {profile core} {source : Source}

@[simp] theorem toEventCore_setEvents (events : Events) :
    (core.setEvents profile source events).toEventCore = core.toEventCore := by
  unfold setEvents
  simp only
  split <;> rfl

theorem state_setEvents (events : Events) (other : Source) :
    (core.setEvents profile source events).state other =
      if other = source then { core.state source with events }
      else core.state other := by
  have changed : (core.setEvents profile source events).state =
      Function.update core.state source
        { core.state source with events } := by
    unfold setEvents
    simp only
    split <;> rfl
  rw [changed, Function.update_apply]

@[simp] theorem toEventCore_arm :
    (core.arm profile source).toEventCore = core.toEventCore := by
  unfold arm
  split
  · rfl
  · split <;> rfl

@[simp] theorem toEventCore_disarm :
    (core.disarm profile source).toEventCore = core.toEventCore := by
  unfold disarm
  split
  · rfl
  · split <;> rfl

@[simp] theorem pendingOps_applyOp (op : PendingOp Source) :
    (core.applyOp profile op).pendingOps = core.pendingOps := by
  cases op with
  | add source => simp [applyOp]
  | remove source => simp [applyOp]

@[simp] theorem inDispatch_applyOp (op : PendingOp Source) :
    (core.applyOp profile op).inDispatch = core.inDispatch := by
  cases op with
  | add source => simp [applyOp]
  | remove source => simp [applyOp]

@[simp] theorem sources_applyOp (op : PendingOp Source) :
    (core.applyOp profile op).sources = EventCore.applyOp core.sources op := by
  cases op <;> rfl

section Others

/-! An operation on one source leaves the other descriptors alone. -/

variable {other : Source} {fd : Int}

theorem state_arm_of_ne (apart : other ≠ source) :
    (core.arm profile source).state other = core.state other := by
  unfold arm
  split
  · rfl
  · split
    · rfl
    · exact Function.update_of_ne apart ..

theorem state_disarm_of_ne (apart : other ≠ source) :
    (core.disarm profile source).state other = core.state other := by
  unfold disarm
  split
  · rfl
  · split
    · rfl
    · exact Function.update_of_ne apart ..

theorem interest_arm_of_ne (apart : fd ≠ profile.fd source) :
    backend.interest (core.arm profile source).table fd =
      backend.interest core.table fd := by
  unfold arm
  split
  · rfl
  · split
    · rfl
    · exact (backend.interest_registerFd ..).trans (if_neg apart)

theorem interest_disarm_of_ne (apart : fd ≠ profile.fd source) :
    backend.interest (core.disarm profile source).table fd =
      backend.interest core.table fd := by
  unfold disarm
  split
  · rfl
  · split
    · rfl
    · exact (backend.interest_unregisterFd ..).trans (if_neg apart)

theorem interest_setEvents_of_ne (apart : fd ≠ profile.fd source)
    (events : Events) :
    backend.interest (core.setEvents profile source events).table fd =
      backend.interest core.table fd := by
  unfold setEvents
  simp only
  split
  · exact (backend.interest_registerFd ..).trans (if_neg apart)
  · rfl

end Others

theorem toEventCore_foldl_applyOp (ops : List (PendingOp Source)) :
    (ops.foldl (applyOp profile) core).toEventCore =
      { core.toEventCore with
        sources := ops.foldl EventCore.applyOp core.sources } := by
  induction ops generalizing core with
  | nil => rfl
  | cons op ops ih =>
      rw [List.foldl_cons, ih, List.foldl_cons, sources_applyOp]
      simp only [pendingOps_applyOp, inDispatch_applyOp]

@[simp] theorem toEventCore_applyPendingChanges :
    (core.applyPendingChanges profile).toEventCore =
      core.toEventCore.applyPendingChanges := by
  unfold applyPendingChanges EventCore.applyPendingChanges
  split
  · rfl
  · rw [toEventCore_foldl_applyOp]
    rfl

end Fields

end EventLoopCore

namespace CoreRun

/-- Where the thread of the core stands in `runOnce` or in
`applyPendingChanges`. -/
inductive Point (Source Events : Type) where
  | idle
  | waiting
  | dispatching (snapshot : List Source) (rest : List (RawEvent Events))
  | handling (snapshot : List Source) (rest : List (RawEvent Events))
  | applying (ops : List (PendingOp Source))
  deriving DecidableEq, Repr

/-- The operations that `applyPendingChanges` has taken and not applied. -/
def Point.ops {Source Events : Type} :
    Point Source Events → List (PendingOp Source)
  | .applying ops => ops
  | _ => []

structure State {Events : Type} (backend : InterestBackend Events)
    (Source : Type) where
  core : EventLoopCore backend Source
  point : Point Source Events

/-- `enterWait` calls `runOnce`, and `returned` gives the raw events of its
wait; `next` is the next step of the dispatch, of the handler that it is in or
of `applyPendingChanges`. -/
inductive Label (Source Events : Type) where
  | addSource (source : Source)
  | removeSource (source : Source)
  | setEvents (source : Source) (events : Events)
  | applyInitialChanges
  | enterWait
  | returned (events : List (RawEvent Events))
  | next
  deriving DecidableEq, Repr

section Steps

variable {Events : Type} {backend : InterestBackend Events} {Source : Type}
  [DecidableEq Source] (profile : Profile Source)

def initialState (events : Source → Events) : State backend Source where
  core :=
    { table := backend.empty
      state := fun source => { events := events source } }
  point := .idle

namespace State

variable (state : State backend Source)

/-- `applyPendingChanges` up to its loop. -/
def swapPending : State backend Source :=
  if state.core.inDispatch then state
  else
    { core := { state.core with
        pendingOps := [] }
      point := .applying state.core.pendingOps }

def next : Option (State backend Source) :=
  match state.point with
  | .idle | .waiting => none
  | .dispatching snapshot (event :: rest) =>
      match snapshot.find? (profile.matches event) with
      | some _ => some { state with
          point := .handling snapshot rest }
      | none => some { state with
          point := .dispatching snapshot rest }
  | .dispatching _ [] =>
      some { state with
        core := { state.core with
          inDispatch := false } }.swapPending
  | .handling snapshot rest =>
      some { state with
        point := .dispatching snapshot rest }
  | .applying (op :: ops) =>
      some {
        core := state.core.applyOp profile op
        point := .applying ops }
  | .applying [] => some { state with
      point := .idle }

def step : Label Source Events → Option (State backend Source)
  | .addSource source => some { state with
      core := state.core.push (.add source) }
  | .removeSource source => some { state with
      core := state.core.push (.remove source) }
  | .setEvents source events => some { state with
      core := state.core.setEvents profile source events }
  | .applyInitialChanges =>
      match state.point with
      | .idle | .handling _ _ => some state.swapPending
      | _ => none
  | .enterWait =>
      match state.point with
      | .idle => some { state with
          point := .waiting }
      | _ => none
  | .returned events =>
      match state.point with
      | .waiting => some {
          core := { state.core with
            inDispatch := true }
          point := .dispatching state.core.sources events }
      | _ => none
  | .next => state.next profile

end State

/-- The copy of `sources_` that the batch is matched against. -/
def Point.snapshot : Point Source Events → List Source
  | .dispatching snapshot _ | .handling snapshot _ => snapshot
  | _ => []

def State.Mentions (state : State backend Source) (source : Source) : Prop :=
  source ∈ state.core.sources ∨
    .add source ∈ state.point.ops ++ state.core.pendingOps

def machine (backend : InterestBackend Events) (events : Source → Events) :
    System (State backend Source) (Label Source Events) where
  initial := fun state => state = initialState events
  step := fun state label => state.step profile label

section Mentions

variable {profile} {state after : State backend Source} {source : Source}

omit [DecidableEq Source] in
theorem mentions_swapPending (none : state.point.ops = [])
    (mentioned : state.swapPending.Mentions source) :
    state.Mentions source := by
  unfold State.swapPending at mentioned
  split at mentioned
  · exact mentioned
  · simp only [State.Mentions, Point.ops, List.append_nil] at mentioned
    rw [State.Mentions, none]
    exact mentioned

theorem mentions_applyOp {core : EventLoopCore backend Source}
    {op : PendingOp Source} {ops : List (PendingOp Source)}
    (mentioned : State.Mentions ⟨core.applyOp profile op, .applying ops⟩
      source) :
    State.Mentions ⟨core, .applying (op :: ops)⟩ source := by
  obtain member | queued := mentioned
  · cases op with
    | add added =>
        obtain rfl | member := EventCore.mem_applyOp_add .. |>.mp member
        · exact .inr (List.mem_cons_self ..)
        · exact .inl member
    | remove removed =>
        exact .inl (EventCore.mem_applyOp_remove .. |>.mp member).2
  · rw [EventLoopCore.pendingOps_applyOp] at queued
    exact .inr (List.mem_cons_of_mem _ queued)

/-- A source gets into the registry through `addSource` only. -/
theorem mentions_of_step {label : Label Source Events}
    (stepped : state.step profile label = some after)
    (mentioned : after.Mentions source) :
    state.Mentions source ∨ label = .addSource source := by
  obtain ⟨core, point⟩ := state
  cases label with
  | addSource added =>
      cases stepped
      simp only [State.Mentions, EventLoopCore.push, List.mem_append,
        List.mem_singleton, PendingOp.add.injEq] at mentioned ⊢
      grind
  | removeSource removed =>
      cases stepped
      left
      simpa [State.Mentions, EventLoopCore.push] using mentioned
  | setEvents changed events =>
      cases stepped
      left
      simpa [State.Mentions] using mentioned
  | applyInitialChanges =>
      cases point with
      | idle | handling =>
          cases stepped
          exact .inl (mentions_swapPending rfl mentioned)
      | _ => cases stepped
  | enterWait =>
      cases point with
      | idle =>
          cases stepped
          exact .inl mentioned
      | _ => cases stepped
  | returned events =>
      cases point with
      | waiting =>
          cases stepped
          exact .inl mentioned
      | _ => cases stepped
  | next =>
      left
      cases point with
      | idle | waiting => cases stepped
      | dispatching snapshot rest =>
          cases rest with
          | nil =>
              cases stepped
              have swapped : (State.swapPending ⟨{ core with
                  inDispatch := false }, .dispatching snapshot []⟩).Mentions
                    source := mentioned
              have before := mentions_swapPending (by rfl) swapped
              exact before
          | cons event rest =>
              simp only [State.step, State.next] at stepped
              split at stepped <;> cases stepped <;> exact mentioned
      | handling snapshot rest =>
          cases stepped
          exact mentioned
      | applying ops =>
          cases ops with
          | nil =>
              cases stepped
              exact mentioned
          | cons op ops =>
              cases stepped
              exact mentions_applyOp mentioned

end Mentions

end Steps

end CoreRun

end RopHive.Schedule
