import RopHive.Network.WriteInterest

namespace RopHive.Network.Connection

open Transition
open RopHive.Schedule (EventCore EventLoopCore InterestBackend PendingOp
  Profile)

/-! A connection watcher in an event core, next to any other sources. -/

section Core

variable {backend : InterestBackend Events} {Source : Type}
  [DecidableEq Source] (profile : Profile Source) (own : Source)

def perform (core : EventLoopCore backend Source) :
    Action → EventLoopCore backend Source
  | .attachSource => (core.push (.add own)).applyPendingChanges profile
  | .detachSource => (core.push (.remove own)).applyPendingChanges profile
  | .setEvents events => core.setEvents profile own events
  | _ => core

/-- The source is armed just while it is in `sources_`, and the table has its
events just while it is armed. -/
structure Enrolled (core : EventLoopCore backend Source)
    (asked : Events) : Prop where
  cached : (core.state own).events = asked
  bound : (core.state own).armed = true → (core.state own).backend = true
  interest : backend.interest core.table (profile.fd own) =
    if (core.state own).armed then some asked else none
  armed_iff : (core.state own).armed = true ↔ own ∈ core.sources

/-- The core does what it was told last, once the queue is applied. -/
structure Heard (core : EventLoopCore backend Source) (told : Told) : Prop
    extends Enrolled profile own core told.events where
  attached_iff : told.attached = true ↔ own ∈ core.upcoming
  spared : ∀ op ∈ core.pendingOps,
    op.source = own ∨ profile.fd own ≠ profile.fd op.source

/-- Outside of the dispatch the queue holds nothing of the watcher's. -/
structure Placed (core : EventLoopCore backend Source) (told : Told) : Prop
    extends Heard profile own core told where
  outside : core.inDispatch = false →
    (told.attached = true ↔ own ∈ core.sources)

variable {profile own} {core : EventLoopCore backend Source}
  {asked : Events} {told : Told}

theorem Enrolled.setEvents (enrolled : Enrolled profile own core asked)
    (type : profile.type own = backend.type) (asked : Events) :
    Enrolled profile own (core.setEvents profile own asked) asked := by
  have state : (core.setEvents profile own asked).state own =
      { core.state own with events := asked } :=
    (EventLoopCore.state_setEvents asked own).trans (if_pos rfl)
  refine ⟨by rw [state], ?_, ?_, ?_⟩
  · rw [state]
    exact enrolled.bound
  · rw [state]
    cases armed : (core.state own).armed with
    | true =>
        have bound := enrolled.bound armed
        simp [EventLoopCore.setEvents, armed, bound,
          EventLoopCore.isSourceMatchBackend, type,
          backend.interest_registerFd]
    | false =>
        have interest := enrolled.interest
        rw [armed] at interest
        simpa [EventLoopCore.setEvents, armed, EventLoopCore.setState]
          using interest
  · rw [state, EventLoopCore.toEventCore_setEvents]
    exact enrolled.armed_iff

theorem Enrolled.setEvents_of_ne (enrolled : Enrolled profile own core asked)
    {source : Source} (apart : profile.fd own ≠ profile.fd source)
    (events : Events) :
    Enrolled profile own (core.setEvents profile source events) asked := by
  have different : own ≠ source := by
    rintro rfl
    exact apart rfl
  have state : (core.setEvents profile source events).state own =
      core.state own :=
    (EventLoopCore.state_setEvents events own).trans (if_neg different)
  refine ⟨by rw [state, enrolled.cached], ?_, ?_, ?_⟩
  · rw [state]
    exact enrolled.bound
  · rw [state, EventLoopCore.interest_setEvents_of_ne apart]
    exact enrolled.interest
  · rw [state, EventLoopCore.toEventCore_setEvents]
    exact enrolled.armed_iff

theorem Enrolled.add (enrolled : Enrolled profile own core asked)
    (type : profile.type own = backend.type) :
    Enrolled profile own (core.applyOp profile (.add own)) asked := by
  have matching : EventLoopCore.isSourceMatchBackend profile backend own =
      true := by
    simp [EventLoopCore.isSourceMatchBackend, type]
  cases armed : (core.state own).armed with
  | true =>
      have same : core.arm profile own = core := by
        simp [EventLoopCore.arm, armed]
      refine ⟨?_, ?_, ?_, ?_⟩
      · simpa [EventLoopCore.applyOp, same] using enrolled.cached
      · simpa [EventLoopCore.applyOp, same] using enrolled.bound
      · simpa [EventLoopCore.applyOp, same] using enrolled.interest
      · simp [EventLoopCore.applyOp, same, armed]
  | false =>
      have state : (core.applyOp profile (.add own)).state own =
          { core.state own with armed := true, backend := true } := by
        simp [EventLoopCore.applyOp, EventLoopCore.arm, armed, matching,
          EventLoopCore.setState]
      have table : (core.applyOp profile (.add own)).table =
          backend.registerFd core.table (profile.fd own)
            (core.state own).events := by
        simp [EventLoopCore.applyOp, EventLoopCore.arm, armed, matching,
          EventLoopCore.setState]
      refine ⟨by rw [state, enrolled.cached], ?_, ?_, ?_⟩
      · simp [state]
      · simp [state, table, backend.interest_registerFd, enrolled.cached]
      · rw [EventLoopCore.sources_applyOp, EventCore.mem_applyOp_add, state]
        simp

theorem Enrolled.remove (enrolled : Enrolled profile own core asked)
    (type : profile.type own = backend.type) :
    Enrolled profile own (core.applyOp profile (.remove own)) asked := by
  have matching : EventLoopCore.isSourceMatchBackend profile backend own =
      true := by
    simp [EventLoopCore.isSourceMatchBackend, type]
  cases armed : (core.state own).armed with
  | true =>
      have state : (core.applyOp profile (.remove own)).state own =
          { core.state own with armed := false, backend := false } := by
        simp [EventLoopCore.applyOp, EventLoopCore.disarm, armed, matching,
          EventLoopCore.setState]
      have table : (core.applyOp profile (.remove own)).table =
          backend.unregisterFd core.table (profile.fd own) := by
        simp [EventLoopCore.applyOp, EventLoopCore.disarm, armed, matching,
          EventLoopCore.setState]
      refine ⟨by rw [state, enrolled.cached], ?_, ?_, ?_⟩
      · simp [state]
      · simp [state, table, backend.interest_unregisterFd]
      · rw [EventLoopCore.sources_applyOp, EventCore.mem_applyOp_remove, state]
        simp
  | false =>
      have same : core.disarm profile own = core := by
        simp [EventLoopCore.disarm, armed]
      refine ⟨?_, ?_, ?_, ?_⟩
      · simpa [EventLoopCore.applyOp, same] using enrolled.cached
      · simpa [EventLoopCore.applyOp, same] using enrolled.bound
      · simpa [EventLoopCore.applyOp, same] using enrolled.interest
      · simp [EventLoopCore.applyOp, same, armed]

theorem Enrolled.applyOp_of_ne (enrolled : Enrolled profile own core asked)
    {op : PendingOp Source}
    (apart : profile.fd own ≠ profile.fd op.source) :
    Enrolled profile own (core.applyOp profile op) asked := by
  have different : own ≠ op.source := by
    intro same
    exact apart (congrArg profile.fd same)
  cases op with
  | add source =>
      have state : (core.applyOp profile (.add source)).state own =
          core.state own := EventLoopCore.state_arm_of_ne different
      refine ⟨by rw [state, enrolled.cached], ?_, ?_, ?_⟩
      · rw [state]
        exact enrolled.bound
      · rw [state, ← enrolled.interest]
        exact EventLoopCore.interest_arm_of_ne apart
      · rw [state, EventLoopCore.sources_applyOp, EventCore.mem_applyOp_add,
          enrolled.armed_iff]
        exact ⟨.inr, fun either => either.resolve_left different⟩
  | remove source =>
      have state : (core.applyOp profile (.remove source)).state own =
          core.state own := EventLoopCore.state_disarm_of_ne different
      refine ⟨by rw [state, enrolled.cached], ?_, ?_, ?_⟩
      · rw [state]
        exact enrolled.bound
      · rw [state, ← enrolled.interest]
        exact EventLoopCore.interest_disarm_of_ne apart
      · rw [state, EventLoopCore.sources_applyOp, EventCore.mem_applyOp_remove,
          enrolled.armed_iff]
        exact ⟨fun member => ⟨different, member⟩, And.right⟩

theorem Enrolled.applyOp (enrolled : Enrolled profile own core asked)
    (type : profile.type own = backend.type) {op : PendingOp Source}
    (spared : op.source = own ∨ profile.fd own ≠ profile.fd op.source) :
    Enrolled profile own (core.applyOp profile op) asked := by
  obtain same | apart := spared
  · cases op with
    | add source =>
        obtain rfl : source = own := same
        exact enrolled.add type
    | remove source =>
        obtain rfl : source = own := same
        exact enrolled.remove type
  · exact enrolled.applyOp_of_ne apart

theorem Enrolled.foldl_applyOp (enrolled : Enrolled profile own core asked)
    (type : profile.type own = backend.type) (ops : List (PendingOp Source))
    (spared : ∀ op ∈ ops,
      op.source = own ∨ profile.fd own ≠ profile.fd op.source) :
    Enrolled profile own (ops.foldl (EventLoopCore.applyOp profile) core)
      asked := by
  induction ops generalizing core with
  | nil => exact enrolled
  | cons op ops ih =>
      exact ih (enrolled.applyOp type (spared op (by simp)))
        fun other member => spared other (by simp [member])

theorem Heard.applyPendingChanges (heard : Heard profile own core told)
    (type : profile.type own = backend.type) :
    Placed profile own (core.applyPendingChanges profile) told := by
  have upcoming : (core.applyPendingChanges profile).upcoming =
      core.upcoming := by
    rw [EventLoopCore.toEventCore_applyPendingChanges,
      EventCore.upcoming_applyPendingChanges]
  cases dispatching : core.inDispatch with
  | true =>
      have same : core.applyPendingChanges profile = core :=
        if_pos dispatching
      rw [same]
      refine { heard with outside := ?_ }
      rw [dispatching]
      nofun
  | false =>
      have applied : core.applyPendingChanges profile =
          core.pendingOps.foldl (EventLoopCore.applyOp profile) { core with
            pendingOps := [] } := if_neg (by simp [dispatching])
      have emptied : Enrolled profile own
          { core with
            pendingOps := [] } told.events :=
        ⟨heard.cached, heard.bound, heard.interest, heard.armed_iff⟩
      have sources : (core.applyPendingChanges profile).sources =
          core.upcoming := by
        rw [applied, EventLoopCore.toEventCore_foldl_applyOp]
        rfl
      refine
        { toEnrolled := ?_
          attached_iff := by rw [upcoming, heard.attached_iff]
          spared := ?_
          outside := fun _ => by rw [sources, heard.attached_iff] }
      · rw [applied]
        exact emptied.foldl_applyOp type _ heard.spared
      · rw [applied, EventLoopCore.toEventCore_foldl_applyOp]
        nofun

theorem Heard.pushOther (heard : Heard profile own core told)
    {op : PendingOp Source}
    (apart : profile.fd own ≠ profile.fd op.source) :
    Heard profile own (core.push op) told where
  cached := heard.cached
  bound := heard.bound
  interest := heard.interest
  armed_iff := heard.armed_iff
  attached_iff := by
    have upcoming : (core.push op).upcoming =
        EventCore.applyOp core.upcoming op := by
      simp [EventLoopCore.push, EventCore.upcoming]
    have different : own ≠ op.source := by
      intro same
      exact apart (congrArg profile.fd same)
    rw [heard.attached_iff, upcoming]
    cases op with
    | add source =>
        rw [EventCore.mem_applyOp_add]
        exact ⟨.inr, fun either => either.resolve_left different⟩
    | remove source =>
        rw [EventCore.mem_applyOp_remove]
        exact ⟨fun member => ⟨different, member⟩, And.right⟩
  spared := by
    intro other member
    obtain before | isNew := List.mem_append.mp member
    · exact heard.spared other before
    · rw [List.mem_singleton.mp isNew]
      exact .inr apart

theorem Heard.attach (heard : Heard profile own core told) :
    Heard profile own (core.push (.add own)) { told with attached := true }
    where
  cached := heard.cached
  bound := heard.bound
  interest := heard.interest
  armed_iff := heard.armed_iff
  attached_iff := by
    simp [EventLoopCore.push, EventCore.upcoming]
  spared := by
    intro other member
    obtain before | isNew := List.mem_append.mp member
    · exact heard.spared other before
    · rw [List.mem_singleton.mp isNew]
      exact .inl rfl

theorem Heard.detach (heard : Heard profile own core told) :
    Heard profile own (core.push (.remove own)) { told with attached := false }
    where
  cached := heard.cached
  bound := heard.bound
  interest := heard.interest
  armed_iff := heard.armed_iff
  attached_iff := by
    simp [EventLoopCore.push, EventCore.upcoming]
  spared := by
    intro other member
    obtain before | isNew := List.mem_append.mp member
    · exact heard.spared other before
    · rw [List.mem_singleton.mp isNew]
      exact .inl rfl

theorem Placed.of_same (placed : Placed profile own core told)
    {after : EventLoopCore backend Source} {later : Told}
    (enrolled : Enrolled profile own after later.events)
    (attached : later.attached = told.attached)
    (same : after.toEventCore = core.toEventCore) :
    Placed profile own after later where
  toEnrolled := enrolled
  attached_iff := by
    rw [attached, same]
    exact placed.attached_iff
  spared := by
    rw [same]
    exact placed.spared
  outside := by
    rw [attached, same]
    exact placed.outside

theorem Placed.perform (placed : Placed profile own core told)
    (type : profile.type own = backend.type) (action : Action) :
    Placed profile own (Connection.perform profile own core action)
      (told.hear action) := by
  cases action with
  | attachSource => exact placed.attach.applyPendingChanges type
  | detachSource => exact placed.detach.applyPendingChanges type
  | setEvents events =>
      exact placed.of_same (placed.toEnrolled.setEvents type events) rfl
        (EventLoopCore.toEventCore_setEvents events)
  | _ => exact placed

theorem Placed.foldl_perform (placed : Placed profile own core told)
    (type : profile.type own = backend.type) (actions : List Action) :
    Placed profile own (actions.foldl (Connection.perform profile own) core)
      (actions.foldl Told.hear told) := by
  induction actions generalizing core told with
  | nil => exact placed
  | cons action actions ih => exact ih (placed.perform type action)

theorem Placed.pushOther (placed : Placed profile own core told)
    {op : PendingOp Source}
    (apart : profile.fd own ≠ profile.fd op.source) :
    Placed profile own (core.push op) told :=
  { placed.toHeard.pushOther apart with
    outside := placed.outside }

theorem Placed.setEventsOther (placed : Placed profile own core told)
    {source : Source} (apart : profile.fd own ≠ profile.fd source)
    (events : Events) :
    Placed profile own (core.setEvents profile source events) told :=
  placed.of_same (placed.toEnrolled.setEvents_of_ne apart events) rfl
    (EventLoopCore.toEventCore_setEvents events)

end Core

namespace InCore

/-- The watcher with the calls under way, and the core of its worker. -/
structure State (backend : InterestBackend Events) (Source : Type) where
  watcher : Config Connection.State Point Action
  core : EventLoopCore backend Source

/-- `dispatch` and `dispatched` are the ends of `dispatchRawEvents`; events
reach the watcher in between. -/
inductive Label (Source : Type) where
  | watcher (label : Transition.Label Request Events Input)
  | addSource (source : Source)
  | removeSource (source : Source)
  | setEvents (source : Source) (events : Events)
  | applyInitialChanges
  | dispatch
  | dispatched

section Steps

variable {backend : InterestBackend Events} {Source : Type}
  [DecidableEq Source] (watcher : TcpConnectionWatcher)
  (profile : Profile Source) (own : Source)

def initialState (fd : Option Nat) (events : Source → Events) :
    State backend Source where
  watcher := ⟨{ fd, armedEvents := interest watcher.backend }, [], []⟩
  core :=
    { table := backend.empty
      state := fun source =>
        { events :=
            if source = own then interest watcher.backend
            else events source } }

/-- Whether the event loop may hand the watcher an event. -/
def State.admits (state : State backend Source) :
    Transition.Label Request Events Input → Bool
  | .ready _ => state.core.inDispatch
  | _ => true

def State.step (state : State backend Source) :
    Label Source → Option (State backend Source)
  | .watcher label =>
      if state.admits label then
        ((program watcher).step state.watcher label).map fun config =>
          { watcher := config
            core := (config.log.drop state.watcher.log.length).foldl
              (perform profile own) state.core }
      else none
  | .addSource source => some { state with
      core := state.core.push (.add source) }
  | .removeSource source => some { state with
      core := state.core.push (.remove source) }
  | .setEvents source events => some { state with
      core := state.core.setEvents profile source events }
  | .applyInitialChanges => some { state with
      core := state.core.applyPendingChanges profile }
  | .dispatch =>
      if state.core.inDispatch then none
      else some { state with
        core := { state.core with
          inDispatch := true } }
  | .dispatched =>
      if state.core.inDispatch ∧ state.watcher.stack = [] then
        some { state with
          core := { state.core with
            inDispatch := false }.applyPendingChanges profile }
      else none

def Spares (_ : State backend Source) : Label Source → Prop
  | .addSource source | .removeSource source | .setEvents source _ =>
      profile.fd own ≠ profile.fd source
  | _ => True

instance (state : State backend Source) (label : Label Source) :
    Decidable (Spares profile own state label) :=
  match label with
  | .addSource source | .removeSource source | .setEvents source _ =>
      inferInstanceAs (Decidable (profile.fd own ≠ profile.fd source))
  | .watcher _ | .applyInitialChanges | .dispatch | .dispatched =>
      .isTrue trivial

def system (backend : InterestBackend Events) :
    System (State backend Source) (Label Source) where
  initial := fun state =>
    ∃ fd events, state = initialState watcher own fd events
  step := fun state label => state.step watcher profile own label

end Steps

section Run

variable {backend : InterestBackend Events} {Source : Type}
  [DecidableEq Source] {watcher : TcpConnectionWatcher}
  {profile : Profile Source} {own : Source}

/-- A `would_block` was returned that no `on_send_ready_` has answered. -/
def Outstanding (log : List Action) : Prop :=
  log.foldl unanswered false = true

instance (log : List Action) : Decidable (Outstanding log) :=
  inferInstanceAs (Decidable (_ = _))

/-- Every call of `on_send_ready_` answers a `would_block`. -/
def Answers (log : List Action) : Prop :=
  ∀ front rest, log = front ++ Action.onSendReady :: rest → Outstanding front

structure Inv (watcher : TcpConnectionWatcher) (profile : Profile Source)
    (own : Source) (state : State backend Source) : Prop where
  armed : state.watcher.store.armedEvents =
    wanted watcher state.watcher.store.wantSendReady
  placed : Placed profile own state.core state.watcher.store.told
  due : state.watcher.store.wantSendReady = true →
    Outstanding state.watcher.log
  answers : Answers state.watcher.log
  kept : watcher.callbacks.onSendReady = true →
    state.watcher.log.foldl unanswered false =
      state.watcher.store.wantSendReady
  points : ∀ point, .code point ∈ state.watcher.stack →
    point.settled = true

theorem Answers.append {log emitted : List Action} (answers : Answers log)
    (more : ∀ front rest, emitted = front ++ Action.onSendReady :: rest →
      front.foldl unanswered (log.foldl unanswered false) = true) :
    Answers (log ++ emitted) := by
  intro front rest shape
  obtain ⟨middle, isFront, isEmitted⟩ | ⟨middle, isLog, isRest⟩ :=
    List.append_eq_append_iff.mp shape
  · rw [Outstanding, isFront, List.foldl_append]
    exact more middle rest isEmitted
  · cases middle with
    | nil =>
        have answered := more [] rest (by simpa using isRest.symm)
        rw [isLog, List.append_nil] at answered
        exact answered
    | cons first middle =>
        obtain ⟨rfl, _⟩ := List.cons.inj isRest
        exact answers front middle isLog

variable {state after : State backend Source}

theorem Inv.initial (fd : Option Nat) (events : Source → Events) :
    Inv watcher profile own
      (initialState watcher own fd events : State backend Source) where
  armed := by
    unfold initialState wanted
    cases watcher.backend <;> rfl
  placed :=
    { cached := by simp [initialState, Connection.State.told]
      bound := by simp [initialState]
      interest := by simp [initialState, backend.interest_empty]
      armed_iff := by simp [initialState]
      attached_iff := by
        simp [initialState, Connection.State.told, EventCore.upcoming]
      spared := nofun
      outside := by simp [initialState, Connection.State.told] }
  due := nofun
  answers := by
    intro front rest shape
    simp [initialState] at shape
  kept := fun _ => rfl
  points := nofun

theorem Inv.watcherStep (inv : Inv watcher profile own state)
    (type : profile.type own = backend.type)
    {label : Transition.Label Request Events Input}
    {config : Config Connection.State Point Action}
    (stepped : (program watcher).step state.watcher label = some config) :
    Inv watcher profile own
      { watcher := config
        core := (config.log.drop state.watcher.log.length).foldl
          (perform profile own) state.core } := by
  obtain ⟨turn, below, takes, rfl⟩ | ⟨_, below, shape, rfl⟩ :=
    Program.step_cases stepped
  · have tells := tells_takes inv.points takes
    have emitted : (state.watcher.log ++ turn.emitted).drop
        state.watcher.log.length = turn.emitted := List.drop_left
    have placed := inv.placed.foldl_perform type turn.emitted
    rw [tells.told] at placed
    refine
      { armed := tells.armed inv.armed
        placed := ?_
        due := ?_
        answers := ?_
        kept := ?_
        points := settled_takes inv.points takes }
    · simp only [Config.take, emitted]
      exact placed
    · simp only [Config.take, Outstanding, List.foldl_append]
      exact tells.due _ inv.due
    · apply inv.answers.append
      intro front rest shape
      exact tells.answers front rest shape _ inv.due
    · intro present
      simp only [Config.take, List.foldl_append]
      rw [inv.kept present]
      exact tells.kept present
  · simp only [List.drop_length, List.foldl_nil]
    refine { inv with points := ?_ }
    intro point member
    exact inv.points point (by simp [shape, member])

theorem Inv.coreStep (inv : Inv watcher profile own state)
    {core : EventLoopCore backend Source}
    (placed : Placed profile own core state.watcher.store.told) :
    Inv watcher profile own { state with core } :=
  { inv with placed := placed }

theorem Inv.step (inv : Inv watcher profile own state)
    (type : profile.type own = backend.type) {label : Label Source}
    (spares : Spares profile own state label)
    (stepped : state.step watcher profile own label = some after) :
    Inv watcher profile own after := by
  cases label with
  | watcher label =>
      simp only [State.step] at stepped
      split at stepped
      · obtain ⟨config, moved, rfl⟩ := Option.map_eq_some_iff.mp stepped
        exact inv.watcherStep type moved
      · cases stepped
  | addSource source | removeSource source =>
      cases stepped
      exact inv.coreStep (inv.placed.pushOther spares)
  | setEvents source events =>
      cases stepped
      exact inv.coreStep (inv.placed.setEventsOther spares events)
  | applyInitialChanges =>
      cases stepped
      exact inv.coreStep (inv.placed.toHeard.applyPendingChanges type)
  | dispatch =>
      simp only [State.step] at stepped
      split at stepped
      · cases stepped
      · cases stepped
        exact inv.coreStep { inv.placed with outside := nofun }
  | dispatched =>
      simp only [State.step] at stepped
      split at stepped
      · cases stepped
        have finished : Heard profile own { state.core with
            inDispatch := false } state.watcher.store.told :=
          { inv.placed.toHeard with }
        exact inv.coreStep (finished.applyPendingChanges type)
      · cases stepped

/-- The three caches of the write interest agree, and it is wanted from a
`would_block` to the call of `on_send_ready_`. -/
structure SendReadyKept (watcher : TcpConnectionWatcher)
    (profile : Profile Source) (own : Source)
    (state : State backend Source) : Prop where
  wants_iff : state.watcher.store.wantSendReady = true ↔
    state.watcher.store.armedEvents.writable = true
  source : (state.core.state own).events = state.watcher.store.armedEvents
  table : (state.core.state own).armed = true →
    backend.interest state.core.table (profile.fd own) =
      some state.watcher.store.armedEvents
  registered : watcher.callbacks.onSendReady = true →
    Outstanding state.watcher.log → own ∈ state.core.sources →
      ∃ events, backend.interest state.core.table (profile.fd own) =
        some events ∧ events.writable = true
  attached_iff : state.core.inDispatch = false →
    (state.watcher.store.attached = true ↔ own ∈ state.core.sources)
  answers : Answers state.watcher.log
  idle : ¬ Outstanding state.watcher.log → ∀ events,
    backend.interest state.core.table (profile.fd own) = some events →
      events.writable = false

theorem sendReady_kept (type : profile.type own = backend.type)
    (reached : (system watcher profile own backend).ReachableUnder
      (Spares profile own) state) :
    SendReadyKept watcher profile own state := by
  have inv : Inv watcher profile own state := by
    apply reached.invariant (Inv watcher profile own)
    · rintro _ ⟨fd, events, rfl⟩
      exact .initial fd events
    · intro state label after inv spares stepped
      exact inv.step type spares stepped
  have wants_iff : state.watcher.store.wantSendReady = true ↔
      state.watcher.store.armedEvents.writable = true := by
    rw [inv.armed]
    unfold wanted
    cases watcher.backend <;> simp [Events.union, interest]
  refine
    { wants_iff := wants_iff
      source := inv.placed.cached
      table := ?_
      registered := ?_
      attached_iff := inv.placed.outside
      answers := inv.answers
      idle := ?_ }
  · intro armed
    exact inv.placed.interest.trans (if_pos armed)
  · intro present outstanding member
    have armed := inv.placed.armed_iff.mpr member
    refine ⟨_, inv.placed.interest.trans (if_pos armed), wants_iff.mp ?_⟩
    rw [← inv.kept present]
    exact outstanding
  · intro answered events found
    rw [inv.placed.interest] at found
    split at found
    · cases found
      by_contra writable
      apply answered
      apply inv.due
      exact wants_iff.mpr (by simpa [Connection.State.told] using writable)
    · cases found

end Run

section Runs

def aloneInEpoll : Profile Unit where
  fd := fun _ => 5
  type := fun _ => .linuxEpoll

abbrev EpollState :=
  State (Schedule.LinuxBackend.epoll.backend : InterestBackend Events) Unit

abbrev alone (callbacks : ConnectionCallbacks) :
    System EpollState (Label Unit) :=
  system (epollTcpConnectionWatcher {} callbacks) aloneInEpoll ()
    Schedule.LinuxBackend.epoll.backend

/-- `trySend` fails with `EAGAIN` before `start`; then the socket becomes
writable. -/
def blockThenWritable : List (Label Unit) :=
  [.watcher (.call (.trySend [1])),
    .watcher (.resume (.send (.failed Errno.eagain))),
    .watcher (.call .start), .dispatch,
    .watcher (.ready { writable := true }), .watcher (.resume .proceed)]

/-- In `on_send_ready_` another `trySend` would block. -/
def blockAgain : List (Label Unit) :=
  blockThenWritable ++
    [Label.watcher (.call (.trySend [2])),
      .watcher (.resume (.send (.failed Errno.eagain))),
      .watcher .leave, .dispatched]

theorem alone_initial (callbacks : ConnectionCallbacks) :
    (alone callbacks).initial
      (initialState (epollTcpConnectionWatcher {} callbacks) () (some 5)
        fun _ => {}) :=
  ⟨some 5, fun _ => {}, rfl⟩

def outcome (state : EpollState) : List Bool :=
  [state.watcher.store.closed, state.watcher.store.attached,
    decide (() ∈ state.core.sources),
    decide (Outstanding state.watcher.log),
    decide (.onSendReady ∈ state.watcher.log),
    ((Schedule.LinuxBackend.epoll.backend : InterestBackend Events).interest
      state.core.table 5).any Events.writable]

/-- Without `on_send_ready_` the first event takes the write interest away,
though nothing has answered the `would_block`. -/
theorem blockThenWritable_unregistered :
    ∃ state : EpollState, (alone { onRecv := true }).Reachable state ∧
      state.watcher.store.closed = false ∧
      state.watcher.store.attached = true ∧ () ∈ state.core.sources ∧
      Outstanding state.watcher.log ∧
      .onSendReady ∉ state.watcher.log ∧
      ¬ ∃ events, (Schedule.LinuxBackend.epoll.backend :
        InterestBackend Events).interest state.core.table 5 = some events ∧
          events.writable = true := by
  have run : ((alone { onRecv := true }).replay
      (initialState (epollTcpConnectionWatcher {} { onRecv := true }) ()
        (some 5) fun _ => {}) (blockThenWritable ++ [Label.dispatched])).map
          outcome =
      some [false, true, true, true, false, false] := by
    decide +kernel
  obtain ⟨state, ends, found⟩ := Option.map_eq_some_iff.mp run
  simp only [outcome, List.cons.injEq, and_true, decide_eq_true_eq,
    decide_eq_false_iff_not, Option.any_eq_false] at found
  obtain ⟨isOpen, attached, member, outstanding, unanswered, dropped⟩ := found
  refine ⟨state, System.Reachable.replay _ (.start (alone_initial _)) ends,
    isOpen, attached, member, outstanding, unanswered, ?_⟩
  rintro ⟨events, registered, writable⟩
  simp [dropped events registered] at writable

theorem sendReady_kept_blockAgain :
    ∃ state : EpollState, Outstanding state.watcher.log ∧
      .onSendReady ∈ state.watcher.log ∧ () ∈ state.core.sources ∧
      SendReadyKept
        (epollTcpConnectionWatcher {} { onRecv := true, onSendReady := true })
        aloneInEpoll () state := by
  have run : ((alone { onRecv := true, onSendReady := true }).replay
      (initialState
        (epollTcpConnectionWatcher {} { onRecv := true, onSendReady := true })
          () (some 5) fun _ => {}) blockAgain).map outcome =
      some [false, true, true, true, true, true] := by
    decide +kernel
  obtain ⟨state, ends, found⟩ := Option.map_eq_some_iff.mp run
  simp only [outcome, List.cons.injEq, and_true, decide_eq_true_eq] at found
  obtain ⟨_, _, member, outstanding, answered, _⟩ := found
  refine ⟨state, outstanding, answered, member, sendReady_kept rfl ?_⟩
  exact System.ReachableUnder.replay blockAgain
    (.start (alone_initial _)) (by decide +kernel) ends

end Runs

end InCore

end RopHive.Network.Connection
