import Mathlib.Data.List.Induction
import RopHive.Network.StopSilence

namespace RopHive.Network

open Transition
open RopHive.Schedule (EventCore)

/-! When a call of `stop` breaks the silence that is promised after it. -/

/-- Only the handler of events hands anything over, and then it calls the
user. -/
structure Component.Prompt (component : Component) : Prop where
  handling : ∀ state point input, component.handsOver state point input →
    component.handling point
  delivers : ∀ state point input turn,
    component.program.resume state point input = some turn →
    component.handsOver state point input →
    component.effects turn = [.delivered]

theorem Accept.prompt (watcher : TcpAcceptWatcher) :
    (Accept.component watcher).Prompt where
  handling _ _ _ _ := rfl
  delivers := by
    intro state point input turn resumed hands
    cases point <;> cases input <;> cases resumed
    case socketError.socketError => cases hands
    case acceptLoop.accept accepted result =>
      cases result with
      | failed errno => cases hands
      | accepted fd =>
          have present : watcher.onAccept = true := hands
          simp only [acceptAnswered, handOver, present, if_true]
          rfl

theorem Timer.prompt (watcher : RopHive.Schedule.WorkerTimerWatcher) :
    (Timer.component watcher).Prompt where
  handling _ _ _ _ := rfl
  delivers := by
    intro state point input turn resumed hands
    cases point <;> cases input <;> cases resumed
    case readLoop.read => cases hands
    case callLoop.proceed left =>
      have present : watcher.callback = true := hands
      rw [present]
      rfl

namespace Connection

variable {watcher : TcpConnectionWatcher} {state : State} {turn : Turn}

theorem received_delivers {remaining : Nat} {chunk : List Byte}
    (present : watcher.callbacks.onRecv = true)
    (answered : recvAnswered watcher state remaining (.received chunk) =
      some turn) : turn.emitted.filterMap effect = [.delivered] := by
  simp only [recvAnswered, Option.ite_none_right_eq_some,
    Option.some.injEq] at answered
  obtain ⟨-, rfl⟩ := answered
  simp [present, effect]

theorem afterRead_delivers {writable : Bool}
    (hands : (writable && state.wantSendReady && !state.peerClosed &&
      watcher.callbacks.onSendReady) = true) :
    (afterRead watcher state writable).emitted.filterMap effect =
      [.delivered] := by
  simp only [Bool.and_eq_true, Bool.not_eq_true'] at hands
  obtain ⟨⟨⟨isWritable, wants⟩, peerOpen⟩, present⟩ := hands
  rw [afterRead, if_neg (by simp [peerOpen]), if_pos ⟨isWritable, wants⟩]
  rw [present]
  simp only [disarmWritable, rearm]
  split <;> rfl

theorem prompt (watcher : TcpConnectionWatcher) :
    (component watcher).Prompt where
  handling state point input hands := by
    cases point <;> cases input <;> first | rfl | cases hands
  delivers := by
    intro state point input turn resumed hands
    cases point <;> cases input <;> try cases hands
    case readLoop.recv remaining result =>
      cases result with
      | endOfStream | failed => cases hands
      | received chunk => exact received_delivers hands resumed
    case afterRead.proceed writable =>
      cases resumed
      exact afterRead_delivers hands

end Connection

theorem LinuxWatcher.prompt : (watcher : LinuxWatcher) →
    watcher.component.Prompt
  | .accept watcher => Accept.prompt watcher
  | .connection watcher => Connection.prompt watcher
  | .timer watcher => Timer.prompt watcher

namespace Loop

section Stopped

variable {Watcher : Type} [DecidableEq Watcher] {watcher : Watcher}

theorem stands_of_stopped {log : List (Action Watcher)}
    (isStopped : stopped watcher log = true) :
    ∃ before between,
      log = before ++ (watcher, Effect.stopped) :: between ∧
      (watcher, .started) ∉ between := by
  induction log using List.reverseRecOn with
  | nil => cases isStopped
  | append_singleton log action ih =>
      rw [stopped_append, List.foldl_cons, List.foldl_nil] at isStopped
      split at isStopped
      · next isStop => exact ⟨log, [], by rw [isStop], by simp⟩
      · split at isStopped
        · cases isStopped
        · next notStart =>
            obtain ⟨before, between, rfl, unstarted⟩ := ih isStopped
            exact ⟨before, between ++ [action], by simp,
              by simp [unstarted, Ne.symm notStart]⟩

theorem not_silent_of_delivered {log more : List (Action Watcher)}
    (isStopped : stopped watcher log = true)
    (delivered : (watcher, .delivered) ∈ more)
    (unstarted : (watcher, .started) ∉ more) :
    ¬ SilentWhileStopped (log ++ more) := by
  obtain ⟨before, between, rfl, stands⟩ := stands_of_stopped isStopped
  obtain ⟨first, last, rfl⟩ := List.append_of_mem delivered
  intro silent
  have started := silent watcher before (between ++ first) last (by simp)
  cases List.mem_append.mp started with
  | inl inBetween => exact stands inBetween
  | inr inFirst => exact unstarted (by simp [inFirst])

end Stopped

variable {Watcher : Type} {setup : Setup Watcher} [DecidableEq Watcher]
  {loop after : State setup} {watcher : Watcher}

section Remembered

variable (setup) in
def Remembered (loop : State setup) : Prop :=
  ∀ watcher, (watcher, .stopped) ∈ loop.log →
    (setup.component watcher).attached (loop.store.states watcher) = false →
    stopped watcher loop.log = true

theorem stopped_of_conduct {log : List (Action Watcher)}
    {before attached : Bool} {effects : List Effect}
    (conduct : Conduct before attached effects)
    (remembered : (watcher, .stopped) ∈ log → before = false →
      stopped watcher log = true)
    (was : (watcher, .stopped) ∈
      log ++ effects.map fun effect => (watcher, effect))
    (detached : attached = false) :
    stopped watcher (log ++ effects.map fun effect => (watcher, effect)) =
      true := by
  cases conduct with
  | quiet => simpa using remembered (by simpa using was) detached
  | starts | startsAgain => cases detached
  | stops | stopsAgain => simp [stopped_append]

theorem Remembered.take {turn : (setup.component watcher).Turn}
    {below : List (Frame (Point setup))} (remembered : Remembered setup loop)
    (outcome : (setup.component watcher).Conducts
        (loop.store.states watcher) turn ∨
      (setup.component watcher).Delivers (loop.store.states watcher) turn) :
    Remembered setup
      (loop.take (lift setup loop.store watcher turn) below) := by
  intro other was detached
  by_cases same : other = watcher
  · subst same
    simp only [Config.take, lift, Function.update_self] at was detached ⊢
    cases outcome with
    | inl conducts =>
        exact stopped_of_conduct conducts (remembered other) was detached
    | inr delivers =>
        obtain ⟨sameAttached, isDelivery⟩ := delivers
        rw [isDelivery] at was ⊢
        have before := remembered other (by simpa using was)
          (sameAttached.symm.trans detached)
        simpa [stopped_append] using before
  · simp only [Config.take, lift, Function.update_of_ne same] at was detached ⊢
    have others : ∀ action ∈ ((setup.component watcher).effects turn).map
        (fun effect => (watcher, effect)), action.1 ≠ other := by
      intro action member
      obtain ⟨effect, -, rfl⟩ := List.mem_map.mp member
      exact Ne.symm same
    rw [stopped_other _ others]
    apply remembered other _ detached
    cases List.mem_append.mp was with
    | inl old => exact old
    | inr new => exact absurd rfl (others _ new)

theorem remembered_dispatchNext {event : RawEvent} {rest : List RawEvent}
    {snapshot : List Watcher} {turn : Turn setup}
    {below : List (Frame (Point setup))}
    (lawful : ∀ watcher, (setup.component watcher).Lawful)
    (remembered : Remembered setup loop)
    (dispatched : dispatchNext setup loop.store event rest snapshot =
      some turn) : Remembered setup (loop.take turn below) := by
  unfold dispatchNext at dispatched
  split at dispatched
  · cases dispatched
    simpa [Remembered, Config.take] using remembered
  · next watcher isTarget =>
      simp only [Option.map_eq_some_iff] at dispatched
      obtain ⟨turn, readied, rfl⟩ := dispatched
      obtain ⟨silent, same, -⟩ := (lawful watcher).ready _ _ _ readied
      intro other was detached
      simp only [Config.take, lift, silent, Turn.andThen_emitted,
        Turn.preceded_emitted, List.map_nil, List.append_nil,
        List.mem_append] at was ⊢
      rw [stopped_append, List.foldl_cons, List.foldl_nil, if_neg (by simp),
        if_neg (by simp)]
      apply remembered other (was.elim id (by simp))
      by_cases isWatcher : other = watcher
      · subst isWatcher
        simpa [Config.take, lift, same] using detached
      · simpa [Config.take, lift, Function.update_of_ne isWatcher]
          using detached

variable (lawful : ∀ watcher, (setup.component watcher).Lawful)

include lawful

theorem remembered_code {point : Point setup} {input : Input setup}
    {turn : Turn setup} {below : List (Frame (Point setup))}
    (remembered : Remembered setup loop)
    (resumed : resume setup loop.store point input = some turn) :
    Remembered setup (loop.take turn below) := by
  cases point with
  | dispatch batch snapshot =>
      cases input with
      | watcher answered input => cases batch <;> cases resumed
      | next =>
          cases batch with
          | nil =>
              cases resumed
              simpa [Remembered, Config.take, finishDispatch] using remembered
          | cons event rest =>
              exact remembered_dispatchNext lawful remembered resumed
  | watcher watcher point =>
      cases input with
      | next => cases resumed
      | watcher answered input =>
          simp only [resume] at resumed
          split at resumed
          · next same =>
              subst same
              simp only [Option.map_eq_some_iff] at resumed
              obtain ⟨turn, resumed, rfl⟩ := resumed
              have outcome := ((lawful _).resume _ _ _ _ resumed).1
              exact remembered.take (outcome.imp id And.left)
          · cases resumed

theorem remembered_step
    {label : Label (Request setup) (List RawEvent) (Input setup)}
    (remembered : Remembered setup loop)
    (stepped : (program setup).step loop label = some after) :
    Remembered setup after := by
  obtain ⟨turn, below, takes, rfl⟩ | ⟨-, below, -, rfl⟩ :=
    Program.step_cases stepped
  · cases takes with
    | @call request _ _ called =>
        obtain ⟨watcher, request⟩ := request
        simp only [program, call, Option.map_eq_some_iff] at called
        obtain ⟨turn, called, rfl⟩ := called
        exact remembered.take (.inl ((lawful watcher).call _ _ _ called).1)
    | ready _ readied =>
        cases readied
        simpa [Remembered, Config.take, dispatchRawEvents] using remembered
    | resume _ resumed => exact remembered_code lawful remembered resumed
  · exact remembered

theorem remembered_of_reachable (reached : (system setup).Reachable loop) :
    Remembered setup loop := by
  apply reached.invariant (Remembered setup)
  · rintro config ⟨-, -, noLog⟩ watcher was
    simp [noLog] at was
  · intro config label after remembered stepped
    exact remembered_step lawful remembered stepped

end Remembered

section Breaks

omit [DecidableEq Watcher] in
theorem mem_of_mem_sinceDispatch {log : List (Action Watcher)}
    {action : Action Watcher} (member : action ∈ sinceDispatch log) :
    action ∈ log := by
  rw [sinceDispatch, since, List.mem_reverse] at member
  exact List.mem_reverse.mp ((List.takeWhile_sublist _).subset member)

/-- What `StopHeeded` leaves out of the handlers' steps breaks the silence at
once. -/
theorem not_silent_of_not_stopHeeded (kind : Watcher → LinuxWatcher)
    (sourceFd : Watcher → Nat) {loop after : State (linuxSetup kind sourceFd)}
    {watcher : Watcher} {input : ((kind watcher).component).Input}
    (reached : (system (linuxSetup kind sourceFd)).Reachable loop)
    (unheeded : ¬ StopHeeded (linuxSetup kind sourceFd) loop
      (.resume (.watcher watcher input)))
    (stepped : (program (linuxSetup kind sourceFd)).step loop
      (.resume (.watcher watcher input)) = some after) :
    ¬ SilentWhileStopped after.log := by
  obtain ⟨turn, below, takes, rfl⟩ | ⟨noReturn, -⟩ :=
    Program.step_cases stepped
  case inr => cases noReturn
  cases takes with
  | @resume point _ _ _ shape resumed =>
      cases point with
      | dispatch batch snapshot => cases batch <;> cases resumed
      | watcher current point =>
          simp only [program, resume] at resumed
          split at resumed
          case isFalse => cases resumed
          next same =>
            subst same
            simp only [Option.map_eq_some_iff] at resumed
            obtain ⟨turn, resumed, rfl⟩ := resumed
            simp only [StopHeeded, shape, Classical.not_imp] at unheeded
            obtain ⟨was, same, hands, detached⟩ := unheeded
            have isDelivery := (kind _).prompt.delivers _ _ _ _ resumed hands
            have remembered := remembered_of_reachable
              (fun watcher => (kind watcher).lawful) reached
            have isStopped := remembered _ (mem_of_mem_sinceDispatch was)
              (by simpa using detached)
            have emitted : (lift (linuxSetup kind sourceFd) loop.store _
                turn).emitted = [(_, .delivered)] :=
              congrArg (List.map _) isDelivery
            rw [Config.take, emitted]
            exact not_silent_of_delivered isStopped (by simp) (by simp)

end Breaks

section Idle

variable (setup) in
/-- An event of the watcher was collected and its handler has not ended. -/
def UnderWay (loop : State setup) (watcher : Watcher) : Prop :=
  (∃ batch snapshot event, .code (.dispatch batch snapshot) ∈ loop.stack ∧
    event ∈ batch ∧ target setup event snapshot = some watcher) ∨
  ∃ point, .code (.watcher watcher point) ∈ loop.stack ∧
    (setup.component watcher).handling point

variable (setup) in
/-- No call of `stop` concerns a watcher whose event is under way. -/
def StopsIdle (loop : State setup)
    (label : Label (Request setup) (List RawEvent) (Input setup)) : Prop :=
  ∀ after, (program setup).step loop label = some after →
    ∀ watcher, (watcher, .stopped) ∈ after.log.drop loop.log.length →
      ¬ UnderWay setup after watcher

variable (setup) in
structure Undisturbed (loop : State setup) : Prop where
  attached : ∀ watcher, UnderWay setup loop watcher →
    (setup.component watcher).attached (loop.store.states watcher)
  applied : loop.store.core.inDispatch = false →
    loop.store.core.pendingOps = []

theorem stopHeeded_of_undisturbed
    {label : Label (Request setup) (List RawEvent) (Input setup)}
    (prompt : ∀ watcher, (setup.component watcher).Prompt)
    (inv : Inv setup loop) (undisturbed : Undisturbed setup loop) :
    StopHeeded setup loop label := by
  unfold StopHeeded
  split
  · split
    · next event rest snapshot below shape =>
        intro watcher isTarget _
        left
        apply (inv.registered watcher).mpr
        apply undisturbed.attached
        exact .inl ⟨event :: rest, snapshot, event, by simp [shape], by simp,
          isTarget⟩
    · trivial
  · split
    · next watcher point below shape =>
        rintro - rfl hands
        apply undisturbed.attached
        exact .inr ⟨point, by simp [shape],
          (prompt _).handling _ _ _ hands⟩
    · trivial
  · trivial

theorem pendingOps_applyPendingChanges (core : EventCore Watcher)
    (outside : core.applyPendingChanges.inDispatch = false) :
    core.applyPendingChanges.pendingOps = [] := by
  rw [EventCore.inDispatch_applyPendingChanges] at outside
  simp [EventCore.applyPendingChanges, outside]

theorem applied_register (effects : List Effect) {core : EventCore Watcher}
    (applied : core.inDispatch = false → core.pendingOps = []) :
    (effects.foldl (register watcher) core).inDispatch = false →
      (effects.foldl (register watcher) core).pendingOps = [] := by
  induction effects generalizing core with
  | nil => exact applied
  | cons effect rest ih =>
      apply ih
      cases effect with
      | attach | detach => exact pendingOps_applyPendingChanges _
      | _ => exact applied

theorem Undisturbed.take {turn : (setup.component watcher).Turn}
    {below : List (Frame (Point setup))}
    (undisturbed : Undisturbed setup loop)
    (keeps : (setup.component watcher).attached (loop.store.states watcher) →
      (setup.component watcher).attached turn.store ∨
        .stopped ∈ (setup.component watcher).effects turn)
    (idle : .stopped ∈ (setup.component watcher).effects turn →
      ¬ UnderWay setup
        (loop.take (lift setup loop.store watcher turn) below) watcher)
    (frames : ∀ frame ∈ below, frame ∈ loop.stack)
    (pushes : ∀ point, .code point ∈ turn.push →
      (setup.component watcher).handling point →
      UnderWay setup loop watcher) :
    Undisturbed setup
      (loop.take (lift setup loop.store watcher turn) below) := by
  have earlier (other : Watcher) (underWay : UnderWay setup
      (loop.take (lift setup loop.store watcher turn) below) other) :
      UnderWay setup loop other := by
    obtain ⟨batch, snapshot, event, member, waits, isTarget⟩ |
      ⟨point, member, isHandling⟩ := underWay
    · obtain pushed | old := List.mem_append.mp member
      · obtain isUser | ⟨_, isPoint, -⟩ := lift_push_watcher loop.store pushed
        · cases isUser
        · cases isPoint
      · exact .inl ⟨batch, snapshot, event, frames _ old, waits, isTarget⟩
    · obtain pushed | old := List.mem_append.mp member
      · obtain isUser | ⟨inner, isPoint, isPushed⟩ :=
          lift_push_watcher loop.store pushed
        · cases isUser
        · cases isPoint
          exact pushes inner isPushed isHandling
      · exact .inr ⟨point, frames _ old, isHandling⟩
  constructor
  · intro other underWay
    have attached := undisturbed.attached other (earlier other underWay)
    by_cases same : other = watcher
    · subst same
      simp only [Config.take, lift, Function.update_self]
      exact (keeps attached).resolve_right fun stops => idle stops underWay
    · simpa only [Config.take, lift, Function.update_of_ne same] using attached
  · exact applied_register _ undisturbed.applied

variable (lawful : ∀ watcher, (setup.component watcher).Lawful)

theorem keeps_of_outcome {turn : (setup.component watcher).Turn}
    (outcome : (setup.component watcher).Conducts
        (loop.store.states watcher) turn ∨
      (setup.component watcher).Delivers (loop.store.states watcher) turn)
    (attached : (setup.component watcher).attached
      (loop.store.states watcher)) :
    (setup.component watcher).attached turn.store ∨
      .stopped ∈ (setup.component watcher).effects turn := by
  cases outcome with
  | inl conducts =>
      have tracked : Tracked loop.log watcher _ _ _ :=
        tracked_of_conduct conducts
      exact tracked.keeps attached
  | inr delivers => exact .inl (delivers.1.trans attached)

theorem idle_of_stopsIdle {turn : (setup.component watcher).Turn}
    {below : List (Frame (Point setup))}
    {label : Label (Request setup) (List RawEvent) (Input setup)}
    (idle : StopsIdle setup loop label)
    (stepped : (program setup).step loop label =
      some (loop.take (lift setup loop.store watcher turn) below))
    (stops : .stopped ∈ (setup.component watcher).effects turn) :
    ¬ UnderWay setup
      (loop.take (lift setup loop.store watcher turn) below) watcher := by
  apply idle _ stepped
  simpa [Config.take, lift] using stops

theorem undisturbed_dispatchNext {event : RawEvent} {rest : List RawEvent}
    {snapshot : List Watcher} {turn : Turn setup}
    (lawful : ∀ watcher, (setup.component watcher).Lawful)
    (undisturbed : Undisturbed setup loop)
    (shape : loop.stack = [.code (.dispatch (event :: rest) snapshot)])
    (dispatched : dispatchNext setup loop.store event rest snapshot =
      some turn) : Undisturbed setup (loop.take turn []) := by
  have waited {other : Watcher} {later : RawEvent} (waits : later ∈ rest)
      (isTarget : target setup later snapshot = some other) :
      UnderWay setup loop other :=
    .inl ⟨event :: rest, snapshot, later, by simp [shape],
      List.mem_cons_of_mem _ waits, isTarget⟩
  unfold dispatchNext at dispatched
  split at dispatched
  · cases dispatched
    refine ⟨?_, undisturbed.applied⟩
    rintro other (⟨_, _, _, member, waits, isTarget⟩ | ⟨_, member, _⟩)
    · simp only [Config.take, Turn.await_push, List.append_nil,
        List.mem_singleton, Frame.code.injEq, Point.dispatch.injEq] at member
      obtain ⟨rfl, rfl⟩ := member
      exact undisturbed.attached other (waited waits isTarget)
    · simp [Config.take] at member
  · next watcher isTarget =>
      simp only [Option.map_eq_some_iff] at dispatched
      obtain ⟨turn, readied, rfl⟩ := dispatched
      obtain ⟨silent, same, -⟩ := (lawful watcher).ready _ _ _ readied
      have attached (other : Watcher) (underWay : UnderWay setup loop other) :
          (setup.component other).attached (Function.update loop.store.states
            watcher turn.store other) := by
        have attached := undisturbed.attached other underWay
        by_cases isWatcher : other = watcher
        · subst isWatcher
          rwa [Function.update_self, same]
        · rwa [Function.update_of_ne isWatcher]
      constructor
      · rintro other (⟨_, _, _, member, waits, isLater⟩ | ⟨point, member, _⟩)
        · obtain pushed | last := List.mem_append.mp member
          · obtain lifted | isLast := List.mem_append.mp pushed
            · obtain isUser | ⟨_, isPoint, -⟩ :=
                lift_push_watcher loop.store lifted
              · cases isUser
              · cases isPoint
            · cases List.mem_singleton.mp isLast
              exact attached other (waited waits isLater)
          · cases last
        · apply attached
          obtain pushed | last := List.mem_append.mp member
          · obtain lifted | isLast := List.mem_append.mp pushed
            · obtain isUser | ⟨_, isPoint, -⟩ :=
                lift_push_watcher loop.store lifted
              · cases isUser
              · cases isPoint
                exact .inl ⟨event :: rest, snapshot, event, by simp [shape],
                  by simp, isTarget⟩
            · cases List.mem_singleton.mp isLast
          · cases last
      · simpa [Config.take, lift, silent] using undisturbed.applied

include lawful

theorem undisturbed_code {point : Point setup} {input : Input setup}
    {turn : Turn setup} {below : List (Frame (Point setup))}
    (inv : Inv setup loop) (undisturbed : Undisturbed setup loop)
    (idle : StopsIdle setup loop (.resume input))
    (shape : loop.stack = .code point :: below)
    (stepped : (program setup).step loop (.resume input) =
      some (loop.take turn below))
    (resumed : resume setup loop.store point input = some turn) :
    Undisturbed setup (loop.take turn below) := by
  have framed := inv.framed
  rw [shape] at framed
  cases point with
  | dispatch batch snapshot =>
      obtain ⟨rfl, -, -⟩ := framed
      cases input with
      | watcher answered input => cases batch <;> cases resumed
      | next =>
          cases batch with
          | cons event rest =>
              exact undisturbed_dispatchNext lawful undisturbed shape resumed
          | nil =>
              cases resumed
              constructor
              · rintro other (⟨_, _, _, member, _⟩ | ⟨_, member, _⟩)
                · simp [Config.take, finishDispatch] at member
                · simp [Config.take, finishDispatch] at member
              · exact pendingOps_applyPendingChanges _
  | watcher watcher point =>
      cases input with
      | next => cases resumed
      | watcher answered input =>
          simp only [resume] at resumed
          split at resumed
          · next same =>
              subst same
              simp only [Option.map_eq_some_iff] at resumed
              obtain ⟨turn, resumed, rfl⟩ := resumed
              obtain ⟨outcome, pushes⟩ := (lawful _).resume _ _ _ _ resumed
              apply undisturbed.take
                (keeps_of_outcome (outcome.imp id And.left))
                (idle_of_stopsIdle idle stepped)
              · intro frame member
                rw [shape]
                exact List.mem_cons_of_mem _ member
              · intro next member isHandling
                exact .inr ⟨point, by simp [shape],
                  pushes next member isHandling⟩
          · cases resumed

theorem undisturbed_step
    {label : Label (Request setup) (List RawEvent) (Input setup)}
    (inv : Inv setup loop) (undisturbed : Undisturbed setup loop)
    (idle : StopsIdle setup loop label)
    (stepped : (program setup).step loop label = some after) :
    Undisturbed setup after := by
  obtain ⟨turn, below, takes, rfl⟩ | ⟨-, below, shape, rfl⟩ :=
    Program.step_cases stepped
  · cases takes with
    | @call request _ _ called =>
        obtain ⟨watcher, request⟩ := request
        simp only [program, call, Option.map_eq_some_iff] at called
        obtain ⟨turn, called, rfl⟩ := called
        obtain ⟨conducts, pushes⟩ := (lawful watcher).call _ _ _ called
        apply undisturbed.take (keeps_of_outcome (.inl conducts))
          (idle_of_stopsIdle idle stepped)
        · exact fun _ => id
        · intro point member isHandling
          rw [pushes point member] at isHandling
          cases isHandling
    | ready outside readied =>
        cases readied
        have notDispatching : loop.store.core.inDispatch = false := by
          have framed := inv.framed
          rwa [outside] at framed
        constructor
        · rintro other (⟨_, _, _, member, _, isTarget⟩ | ⟨_, member, _⟩)
          · simp only [Config.take, dispatchRawEvents, Turn.await_push,
              List.append_nil, List.mem_singleton, Frame.code.injEq,
              Point.dispatch.injEq] at member
            obtain ⟨rfl, rfl⟩ := member
            apply (inv.registered other).mp
            apply EventCore.mem_upcoming_of_mem_sources
              (List.mem_of_find?_eq_some isTarget)
            rw [undisturbed.applied notDispatching]
            exact List.not_mem_nil
          · simp [Config.take, dispatchRawEvents] at member
        · simp [Config.take, dispatchRawEvents]
    | resume shape resumed =>
        exact undisturbed_code lawful inv undisturbed idle shape stepped resumed
  · refine ⟨?_, undisturbed.applied⟩
    rintro other (⟨batch, snapshot, event, member, waits⟩ | ⟨point, member, on⟩)
    · exact undisturbed.attached other (.inl ⟨batch, snapshot, event,
        by simp [shape, member], waits⟩)
    · exact undisturbed.attached other (.inr ⟨point, by simp [shape, member],
        on⟩)

omit lawful

/-- No callback follows a `stop` as long as nobody stops a watcher whose event
is under way. -/
theorem silent_of_stopsIdle (kind : Watcher → LinuxWatcher)
    (sourceFd : Watcher → Nat) {loop : State (linuxSetup kind sourceFd)}
    (reached : (system (linuxSetup kind sourceFd)).ReachableUnder
      (StopsIdle (linuxSetup kind sourceFd)) loop) :
    SilentWhileStopped loop.log := by
  have lawful (watcher : Watcher) :
      ((linuxSetup kind sourceFd).component watcher).Lawful :=
    (kind watcher).lawful
  have prompt (watcher : Watcher) :
      ((linuxSetup kind sourceFd).component watcher).Prompt :=
    (kind watcher).prompt
  have both : Inv (linuxSetup kind sourceFd) loop ∧
      Undisturbed (linuxSetup kind sourceFd) loop := by
    apply reached.invariant fun loop =>
      Inv (linuxSetup kind sourceFd) loop ∧
        Undisturbed (linuxSetup kind sourceFd) loop
    · intro loop isInitial
      refine ⟨inv_of_initial _ lawful isInitial, ?_⟩
      obtain ⟨⟨-, core⟩, stack, -⟩ := isInitial
      constructor
      · rintro other (⟨_, _, _, member, _⟩ | ⟨_, member, _⟩)
        · simp [stack] at member
        · simp [stack] at member
      · simp [core]
    · rintro loop label after ⟨inv, undisturbed⟩ idle stepped
      have heeded : StopHeeded (linuxSetup kind sourceFd) loop label :=
        stopHeeded_of_undisturbed prompt inv undisturbed
      exact ⟨step_inv lawful inv heeded stepped,
        undisturbed_step lawful inv undisturbed idle stepped⟩
  exact silent_of_heeded both.1.heeded

end Idle

end Loop

end RopHive.Network
