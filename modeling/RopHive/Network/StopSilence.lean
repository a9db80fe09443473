import RopHive.Network.WatcherLoop

namespace RopHive.Network

open Transition
open RopHive.Schedule (EventCore)

/-- What a turn that hands nothing over makes of `attached_`, and the effects it
has. -/
inductive Conduct : Bool → Bool → List Effect → Prop
  | quiet (attached : Bool) : Conduct attached attached []
  | starts : Conduct false true [.attach, .started]
  | startsAgain : Conduct true true [.started]
  | stops : Conduct true false [.detach, .stopped]
  | stopsAgain : Conduct false false [.stopped]

namespace Component

variable (component : Component)

def Conducts (before : component.State) (turn : component.Turn) : Prop :=
  Conduct (component.attached before) (component.attached turn.store)
    (component.effects turn)

def Delivers (before : component.State) (turn : component.Turn) : Prop :=
  component.attached turn.store = component.attached before ∧
    component.effects turn = [.delivered]

/-- What the event loop relies on: registrations follow `attached_`, and only
the handler of events hands anything over. -/
structure Lawful : Prop where
  fresh : ∀ state, component.fresh state → component.attached state = false
  call : ∀ state request turn,
    component.program.call state request = some turn →
    component.Conducts state turn ∧
      ∀ point, .code point ∈ turn.push → component.handling point = false
  ready : ∀ state events turn,
    component.program.ready state events = some turn →
    component.effects turn = [] ∧
      component.attached turn.store = component.attached state ∧
      (component.inert state → turn.push = [])
  resume : ∀ state point input turn,
    component.program.resume state point input = some turn →
    (component.Conducts state turn ∨ component.Delivers state turn ∧
      component.handling point ∧ component.handsOver state point input) ∧
      ∀ next, .code next ∈ turn.push → component.handling next →
        component.handling point

end Component

theorem Accept.lawful (watcher : TcpAcceptWatcher) :
    (Accept.component watcher).Lawful where
  fresh := by
    rintro _ ⟨fd, rfl⟩
    rfl
  call := by
    rintro ⟨fd, attached⟩ request turn called
    cases called
    cases request with
    | start =>
        cases attached with
        | false => exact ⟨Conduct.starts, by rintro _ ⟨⟩⟩
        | true => exact ⟨Conduct.startsAgain, by rintro _ ⟨⟩⟩
    | stop =>
        cases attached with
        | false => exact ⟨Conduct.stopsAgain, by rintro _ ⟨⟩⟩
        | true => exact ⟨Conduct.stops, by rintro _ ⟨⟩⟩
  ready := by
    intro state events turn readied
    cases readied
    cases fd : state.listenFd with
    | none =>
        simp only [onReady, fd]
        exact ⟨rfl, rfl, fun _ => rfl⟩
    | some listenFd =>
        have notInert : (component watcher).inert state → False := by
          simp [component, fd]
        simp only [onReady, fd]
        split
        · exact ⟨rfl, rfl, fun inert => (notInert inert).elim⟩
        · split
          · exact ⟨rfl, rfl, fun inert => (notInert inert).elim⟩
          · exact ⟨rfl, rfl, fun inert => (notInert inert).elim⟩
  resume := by
    intro state point input turn resumed
    refine ⟨?_, fun _ _ _ => rfl⟩
    cases point <;> cases input <;> cases resumed
    case socketError.socketError answer =>
      left
      cases present : watcher.onError <;> exact Conduct.quiet _
    case acceptLoop.accept accepted result =>
      cases result with
      | accepted fd =>
          cases present : watcher.onAccept with
          | true =>
              simp only [acceptAnswered, handOver, present, if_true]
              exact .inr ⟨⟨rfl, rfl⟩, rfl, present⟩
          | false =>
              simp only [acceptAnswered, handOver, present,
                Bool.false_eq_true, if_false]
              exact .inl (Conduct.quiet _)
      | failed errno =>
          left
          simp only [acceptAnswered]
          split
          · exact Conduct.quiet _
          · split
            · exact Conduct.quiet _
            · cases present : watcher.onError <;> exact Conduct.quiet _

namespace Timer

open RopHive.Schedule RopHive.Schedule.WorkerTimer

theorem lawful (watcher : WorkerTimerWatcher) :
    (component watcher).Lawful where
  fresh := by
    rintro _ ⟨fd, rfl⟩
    rfl
  call := by
    rintro ⟨fd, attached⟩ request turn called
    cases called
    cases request with
    | start =>
        cases attached with
        | false => exact ⟨Conduct.starts, by rintro _ ⟨⟩⟩
        | true => exact ⟨Conduct.startsAgain, by rintro _ ⟨⟩⟩
    | stop =>
        cases attached with
        | false => exact ⟨Conduct.stopsAgain, by rintro _ ⟨⟩⟩
        | true => exact ⟨Conduct.stops, by rintro _ ⟨⟩⟩
  ready := by
    intro state events turn readied
    cases readied
    unfold onReady
    split
    · exact ⟨rfl, rfl, fun _ => rfl⟩
    · cases fd : state.fd with
      | none => exact ⟨rfl, rfl, fun _ => rfl⟩
      | some descriptor =>
          refine ⟨rfl, rfl, ?_⟩
          simp [component, fd]
  resume := by
    intro state point input turn resumed
    refine ⟨?_, fun _ _ _ => rfl⟩
    cases point <;> cases input <;> cases resumed
    case readLoop.read result =>
      left
      cases result with
      | expired expirations => exact Conduct.quiet _
      | short => exact Conduct.quiet _
      | failed errno =>
          simp only [readAnswered]
          split <;> exact Conduct.quiet _
    case callLoop.proceed left =>
      cases present : watcher.callback with
      | true => exact .inr ⟨⟨rfl, rfl⟩, rfl, present⟩
      | false => exact .inl (Conduct.quiet _)

end Timer

namespace Connection

variable (watcher : TcpConnectionWatcher)

/-- A turn that keeps the registration in step and is not the handler's. -/
structure Orderly (before : State) (turn : Turn) : Prop where
  conducts : (component watcher).Conducts before turn
  pushes : ∀ point, .code point ∈ turn.push → handling point = false

theorem closeNow_orderly (state : State) :
    Orderly watcher state (closeNow watcher state) := by
  cases closed : state.closed with
  | true =>
      rw [closeNow_of_closed watcher closed]
      exact ⟨Conduct.quiet _, by simp⟩
  | false =>
      rw [closeNow_of_open watcher closed]
      constructor
      · cases attached : state.attached <;>
          cases fd : state.fd <;>
          cases watcher.callbacks.onClose <;>
          simp [Component.Conducts, Component.effects, component, effect, closeFd, attached]
        all_goals constructor
      · cases watcher.callbacks.onClose <;> simp

theorem sendWhile_orderly (state : State) (data : List Byte)
    (limit total : Nat) (actions : List Action)
    (silent : actions.filterMap effect = []) :
    Orderly watcher state
      ((sendWhile state data limit total).preceded actions) := by
  have conducts (turn : Turn) (same : turn.store = state)
      (emitted : (component watcher).effects turn = []) :
      (component watcher).Conducts state turn := by
    unfold Component.Conducts
    rw [emitted, same]
    exact Conduct.quiet _
  unfold sendWhile
  split
  · refine ⟨conducts _ rfl ?_, by simp [handling]⟩
    simpa [Component.effects, component] using silent
  · refine ⟨conducts _ rfl ?_, by simp⟩
    simpa [Component.effects, component, effect] using silent

theorem sendError_orderly (state : State) (err total : Nat) :
    Orderly watcher state (sendError watcher state err total) := by
  unfold sendError
  cases watcher.callbacks.onError with
  | true => exact ⟨Conduct.quiet _, by simp [handling]⟩
  | false => exact ⟨Conduct.quiet _, by simp [handling]⟩

theorem sendAnswered_orderly {state : State} {data : List Byte}
    {limit total : Nat} {result : SendResult} {turn : Turn}
    (answered : sendAnswered watcher state data limit total result =
      some turn) : Orderly watcher state turn := by
  cases result with
  | accepted count =>
      simp only [sendAnswered, Option.ite_none_right_eq_some,
        Option.some.injEq] at answered
      obtain ⟨-, rfl⟩ := answered
      exact sendWhile_orderly watcher state data _ _ _ rfl
  | nothing =>
      cases answered
      exact sendError_orderly watcher state _ _
  | failed errno =>
      simp only [sendAnswered, armWritable, rearm] at answered
      split at answered
      · cases answered
        exact sendWhile_orderly watcher state data _ _ [] rfl
      · split at answered
        · split at answered <;> cases answered <;>
            exact ⟨Conduct.quiet _, by simp⟩
        · cases answered
          exact sendError_orderly watcher state _ _

theorem call_orderly (state : State) (request : Request) :
    Orderly watcher state (call watcher state request) := by
  obtain ⟨fd, attached, peerClosed, wantSendReady, closed, armed⟩ := state
  cases request with
  | start =>
      cases attached with
      | false => exact ⟨Conduct.starts, by rintro _ ⟨⟩⟩
      | true => exact ⟨Conduct.startsAgain, by rintro _ ⟨⟩⟩
  | stop =>
      cases attached with
      | false => exact ⟨Conduct.stopsAgain, by rintro _ ⟨⟩⟩
      | true => exact ⟨Conduct.stops, by rintro _ ⟨⟩⟩
  | trySend data =>
      simp only [call, trySend]
      split
      · exact ⟨Conduct.quiet _, by simp⟩
      · split
        · exact ⟨Conduct.quiet _, by simp⟩
        · exact sendWhile_orderly watcher _ data _ _ [] rfl
  | shutdownWrite =>
      cases fd with
      | none => exact ⟨Conduct.quiet _, by rintro _ ⟨⟩⟩
      | some descriptor => exact ⟨Conduct.quiet _, by rintro _ ⟨⟩⟩
  | close => exact closeNow_orderly watcher _

def Handles (state : State) (point : Point) (input : Input) (turn : Turn) :
    Prop :=
  (component watcher).Conducts state turn ∨
    (component watcher).Delivers state turn ∧
      handsOver watcher state point input

theorem recvAnswered_handles {state : State} {remaining : Nat}
    {result : RecvResult} {turn : Turn}
    (answered : recvAnswered watcher state remaining result = some turn) :
    Handles watcher state (.readLoop remaining) (.recv result) turn := by
  cases result with
  | received chunk =>
      simp only [recvAnswered, Option.ite_none_right_eq_some,
        Option.some.injEq] at answered
      obtain ⟨-, rfl⟩ := answered
      cases present : watcher.callbacks.onRecv with
      | true => exact .inr ⟨⟨rfl, rfl⟩, present⟩
      | false => exact .inl (Conduct.quiet _)
  | endOfStream =>
      simp only [recvAnswered, Option.ite_none_right_eq_some,
        Option.some.injEq] at answered
      obtain ⟨-, rfl⟩ := answered
      exact .inl (Conduct.quiet _)
  | failed errno =>
      left
      simp only [recvAnswered, Option.ite_none_right_eq_some] at answered
      obtain ⟨-, answered⟩ := answered
      split at answered
      · cases answered
        exact Conduct.quiet _
      · split at answered
        · cases answered
          exact Conduct.quiet _
        · cases answered
          cases watcher.callbacks.onError <;> exact Conduct.quiet _

theorem afterRead_handles (state : State) (writable : Bool) :
    Handles watcher state (.afterRead writable) .proceed
      (afterRead watcher state writable) := by
  unfold afterRead
  split
  · exact .inl (closeNow_orderly watcher state).conducts
  · next peerOpen =>
      split
      · next wanted =>
          cases present : watcher.callbacks.onSendReady with
          | true =>
              right
              refine ⟨?_, by simp_all [handsOver]⟩
              simp only [disarmWritable, rearm]
              split <;> exact ⟨rfl, rfl⟩
          | false =>
              left
              simp only [disarmWritable, rearm]
              split <;> exact Conduct.quiet _
      · exact .inl (Conduct.quiet _)

theorem resume_handles {state : State} {point : Point} {input : Input}
    {turn : Turn} (resumed : resume watcher state point input = some turn) :
    ((component watcher).Conducts state turn ∨
      (component watcher).Delivers state turn ∧
        handling point ∧ handsOver watcher state point input) ∧
      ∀ next, .code next ∈ turn.push → handling next → handling point := by
  have ofOrderly (orderly : Orderly watcher state turn) :
      ((component watcher).Conducts state turn ∨
        (component watcher).Delivers state turn ∧
          handling point ∧ handsOver watcher state point input) ∧
        ∀ next, .code next ∈ turn.push → handling next → handling point :=
    ⟨.inl orderly.conducts, fun next member isHandling => by
      simp [orderly.pushes next member] at isHandling⟩
  unfold resume at resumed
  split at resumed
  case h_1 => exact ofOrderly (sendAnswered_orderly watcher resumed)
  case h_2 =>
      cases resumed
      have closes := closeNow_orderly watcher state
      refine ofOrderly ⟨closes.conducts, ?_⟩
      intro next member
      cases List.mem_append.mp member with
      | inl pushed => exact closes.pushes next pushed
      | inr last =>
          obtain rfl : next = _ := by simpa using last
          rfl
  case h_3 =>
      cases resumed
      exact ofOrderly ⟨Conduct.quiet _, by simp⟩
  case h_4 =>
      cases resumed
      refine ⟨.inl ?_, fun _ _ _ => rfl⟩
      cases watcher.callbacks.onError <;> exact Conduct.quiet _
  case h_5 | h_7 =>
      cases resumed
      exact ofOrderly (closeNow_orderly watcher state)
  case h_6 =>
      refine ⟨?_, fun _ _ _ => rfl⟩
      exact (recvAnswered_handles watcher resumed).imp id
        fun delivers => ⟨delivers.1, rfl, delivers.2⟩
  case h_8 =>
      cases resumed
      refine ⟨?_, fun _ _ _ => rfl⟩
      exact (afterRead_handles watcher state _).imp id
        fun delivers => ⟨delivers.1, rfl, delivers.2⟩
  case h_9 => cases resumed

theorem lawful : (component watcher).Lawful where
  fresh := by
    rintro _ ⟨fd, rfl⟩
    rfl
  call := by
    intro state request turn called
    cases called
    have orderly := call_orderly watcher state request
    exact ⟨orderly.conducts, orderly.pushes⟩
  ready := by
    intro state events turn readied
    cases readied
    cases fd : state.fd with
    | none =>
        simp only [onReady, fd]
        exact ⟨rfl, rfl, fun _ => rfl⟩
    | some descriptor =>
        have notInert : (component watcher).inert state → False := by
          simp [component, fd]
        simp only [onReady, fd]
        split <;> exact ⟨rfl, rfl, fun inert => (notInert inert).elim⟩
  resume state point input turn := resume_handles watcher

end Connection

theorem LinuxWatcher.lawful : (watcher : LinuxWatcher) →
    watcher.component.Lawful
  | .accept watcher => Accept.lawful watcher
  | .connection watcher => Connection.lawful watcher
  | .timer watcher => Timer.lawful watcher

namespace Loop

section Log

variable {Watcher : Type} [DecidableEq Watcher]

/-- No callback between a return of `stop` and the next `start`. -/
def SilentWhileStopped (log : List (Action Watcher)) : Prop :=
  ∀ watcher before between after,
    log = before ++ (watcher, Effect.stopped) :: between ++
      (watcher, Effect.delivered) :: after →
    (watcher, Effect.started) ∈ between

/-- Whether `stop` has returned and `start` was not called since. -/
def stopped (watcher : Watcher) (log : List (Action Watcher)) : Bool :=
  log.foldl (fun standing action =>
    if action = (watcher, .stopped) then true
    else if action = (watcher, .started) then false
    else standing) false

theorem stopped_append (watcher : Watcher) (log more : List (Action Watcher)) :
    stopped watcher (log ++ more) = more.foldl (fun standing action =>
      if action = (watcher, .stopped) then true
      else if action = (watcher, .started) then false
      else standing) (stopped watcher log) :=
  List.foldl_append

theorem stopped_of_stands {watcher : Watcher}
    {before between : List (Action Watcher)}
    (unstarted : (watcher, .started) ∉ between) :
    stopped watcher (before ++ (watcher, .stopped) :: between) = true := by
  have kept : ∀ standing, standing = true →
      between.foldl (fun standing action =>
        if action = (watcher, .stopped) then true
        else if action = (watcher, .started) then false
        else standing) standing = true := by
    induction between with
    | nil => exact fun _ => id
    | cons action others ih =>
        intro standing isTrue
        simp only [List.mem_cons, not_or] at unstarted
        apply ih unstarted.2
        simp [isTrue, Ne.symm unstarted.1]
  rw [stopped_append]
  exact kept _ (by simp)

/-- Every delivery finds its watcher not stopped. -/
def Heeded (log : List (Action Watcher)) : Prop :=
  ∀ watcher before after,
    log = before ++ (watcher, Effect.delivered) :: after →
    stopped watcher before = false

theorem silent_of_heeded {log : List (Action Watcher)}
    (heeded : Heeded log) : SilentWhileStopped log := by
  intro watcher before between after shape
  by_contra unstarted
  have standing := heeded watcher _ after shape
  rw [stopped_of_stands unstarted] at standing
  cases standing

theorem Heeded.append {log more : List (Action Watcher)}
    (heeded : Heeded log) (silent : ∀ watcher, (watcher, .delivered) ∉ more) :
    Heeded (log ++ more) := by
  intro watcher before after shape
  rcases List.append_eq_append_iff.mp shape with
    ⟨rest, rfl, later⟩ | ⟨rest, rfl, later⟩
  · exact (silent watcher (by simp [later])).elim
  · cases rest with
    | nil => exact (silent watcher (by simp at later; simp [← later])).elim
    | cons first rest =>
        obtain ⟨rfl, -⟩ := List.cons.inj later
        exact heeded watcher before rest rfl

theorem Heeded.deliver {log : List (Action Watcher)} {watcher : Watcher}
    (heeded : Heeded log) (standing : stopped watcher log = false) :
    Heeded (log ++ [(watcher, .delivered)]) := by
  intro other before after shape
  rcases List.append_eq_append_iff.mp shape with
    ⟨rest, rfl, later⟩ | ⟨rest, rfl, later⟩
  · cases rest with
    | nil =>
        obtain ⟨same, -⟩ := List.cons.inj later
        obtain rfl : watcher = other := congrArg Prod.fst same
        simpa using standing
    | cons first rest => simp at later
  · cases rest with
    | nil =>
        obtain ⟨same, -⟩ := List.cons.inj later
        obtain rfl : other = watcher := congrArg Prod.fst same
        simpa using standing
    | cons first rest =>
        obtain ⟨rfl, -⟩ := List.cons.inj later
        exact heeded other before rest rfl

theorem stopped_other {watcher : Watcher} (log : List (Action Watcher))
    {more : List (Action Watcher)}
    (others : ∀ action ∈ more, action.1 ≠ watcher) :
    stopped watcher (log ++ more) = stopped watcher log := by
  rw [stopped_append]
  induction more generalizing log with
  | nil => rfl
  | cons action rest ih =>
      simp only [List.forall_mem_cons] at others
      have notStopped : action ≠ (watcher, .stopped) := fun same =>
        others.1 (congrArg Prod.fst same)
      have notStarted : action ≠ (watcher, .started) := fun same =>
        others.1 (congrArg Prod.fst same)
      simp only [List.foldl_cons, notStopped, notStarted, if_false]
      exact ih log others.2

theorem stopped_conduct {watcher : Watcher} {log : List (Action Watcher)}
    {before after : Bool} {effects : List Effect}
    (conduct : Conduct before after effects)
    (standing : stopped watcher log → before = false)
    (isStopped : stopped watcher
      (log ++ effects.map fun effect => (watcher, effect))) :
    after = false := by
  rw [stopped_append] at isStopped
  cases conduct with
  | quiet => exact standing isStopped
  | stops | stopsAgain => rfl
  | starts | startsAgain => simp at isStopped

end Log

section Registration

variable {Watcher : Type} [DecidableEq Watcher]

theorem upcoming_register_other {watcher other : Watcher}
    (different : other ≠ watcher) (effects : List Effect)
    (core : EventCore Watcher) :
    other ∈ (effects.foldl (register watcher) core).upcoming ↔
      other ∈ core.upcoming := by
  induction effects generalizing core with
  | nil => rfl
  | cons effect rest ih =>
      rw [List.foldl_cons, ih]
      cases effect <;> simp [register, EventCore.mem_upcoming_attachSource,
        EventCore.mem_upcoming_detachSource, different]

theorem upcoming_register {watcher : Watcher} {before after : Bool}
    {effects : List Effect} (conduct : Conduct before after effects)
    {core : EventCore Watcher}
    (registered : watcher ∈ core.upcoming ↔ before = true) :
    watcher ∈ (effects.foldl (register watcher) core).upcoming ↔
      after = true := by
  cases conduct <;> simp_all [register, EventCore.mem_upcoming_attachSource,
    EventCore.mem_upcoming_detachSource]

theorem inDispatch_register (watcher : Watcher) (effects : List Effect)
    (core : EventCore Watcher) :
    (effects.foldl (register watcher) core).inDispatch = core.inDispatch := by
  induction effects generalizing core with
  | nil => rfl
  | cons effect rest ih =>
      rw [List.foldl_cons, ih]
      cases effect <;> simp [register, EventCore.attachSource,
        EventCore.detachSource, EventCore.addSource, EventCore.removeSource]

theorem sources_register {watcher : Watcher} (effects : List Effect)
    {core : EventCore Watcher} (dispatching : core.inDispatch = true) :
    (effects.foldl (register watcher) core).sources = core.sources := by
  induction effects generalizing core with
  | nil => rfl
  | cons effect rest ih =>
      have still := inDispatch_register watcher [effect] core
      rw [List.foldl_cons, List.foldl_nil, dispatching] at still
      rw [List.foldl_cons, ih still]
      cases effect <;> simp [register, dispatching,
        EventCore.sources_attachSource, EventCore.sources_detachSource]

/-- What the effects of a turn, on a watcher attached `before` and `after` it or
not, do to the registration and to the log. -/
structure Tracked (log : List (Action Watcher)) (watcher : Watcher)
    (before after : Bool) (effects : List Effect) : Prop where
  undispatched : .dispatched ∉ effects
  keeps : before = true → after = true ∨ .stopped ∈ effects
  registers : ∀ core : EventCore Watcher,
    (watcher ∈ core.upcoming ↔ before = true) →
    (watcher ∈ (effects.foldl (register watcher) core).upcoming ↔
      after = true)
  standing : (stopped watcher log → before = false) →
    stopped watcher (log ++ effects.map fun effect => (watcher, effect)) →
    after = false
  heeded : Heeded log → (stopped watcher log → before = false) →
    Heeded (log ++ effects.map fun effect => (watcher, effect))

theorem tracked_of_conduct {log : List (Action Watcher)} {watcher : Watcher}
    {before after : Bool} {effects : List Effect}
    (conduct : Conduct before after effects) :
    Tracked log watcher before after effects where
  undispatched := by cases conduct <;> simp
  keeps := by cases conduct <;> simp
  registers _ registered := upcoming_register conduct registered
  standing := stopped_conduct conduct
  heeded heeded _ := heeded.append (by cases conduct <;> simp)

theorem tracked_of_delivery {log : List (Action Watcher)}
    {watcher : Watcher} : Tracked log watcher true true [.delivered] where
  undispatched := by simp
  keeps := by simp
  registers _ registered := registered
  standing standing isStopped := by
    apply standing
    simpa [stopped_append] using isStopped
  heeded heeded standing := by
    apply heeded.deliver
    simpa using standing

end Registration

variable {Watcher : Type} (setup : Setup Watcher) [DecidableEq Watcher]

abbrev State := Config (Store setup) (Point setup) (Action Watcher)

/-- Since the event being handled was dispatched. -/
def sinceDispatch (log : List (Action Watcher)) : List (Action Watcher) :=
  since (fun action => action.2 = .dispatched) log

/-- An event is dispatched only to a watcher without a queued removal, unless
its source was queued again or its descriptor is closed; and a handler whose
watcher is stopped meanwhile hands nothing over any more. -/
def StopHeeded (loop : State setup) :
    Label (Request setup) (List RawEvent) (Input setup) → Prop
  | .resume .next =>
      match loop.stack with
      | .code (.dispatch (event :: _) snapshot) :: _ =>
          ∀ watcher ∈ target setup event snapshot,
            .remove watcher ∈ loop.store.core.pendingOps →
            watcher ∈ loop.store.core.upcoming ∨
              (setup.component watcher).inert (loop.store.states watcher)
      | _ => True
  | .resume (.watcher answered input) =>
      match loop.stack with
      | .code (.watcher watcher point) :: _ =>
          (watcher, .stopped) ∈ sinceDispatch loop.log →
          ∀ same : answered = watcher,
            (setup.component watcher).handsOver (loop.store.states watcher)
              point (same ▸ input) →
            (setup.component watcher).attached (loop.store.states watcher)
      | _ => True
  | _ => True

/-- The snapshot of a batch is `sources_`, and nothing runs below the
dispatching of the batch. -/
def Framed (core : EventCore Watcher) : List (Frame (Point setup)) → Prop
  | [] => core.inDispatch = false
  | .code (.dispatch _ snapshot) :: below =>
      below = [] ∧ core.inDispatch = true ∧ snapshot = core.sources
  | _ :: below => Framed core below

def Current (loop : State setup) (watcher : Watcher) : Prop :=
  (setup.component watcher).attached (loop.store.states watcher) ∨
    (watcher, .stopped) ∈ sinceDispatch loop.log

structure Inv (loop : State setup) : Prop where
  registered : ∀ watcher, watcher ∈ loop.store.core.upcoming ↔
    (setup.component watcher).attached (loop.store.states watcher)
  framed : Framed setup loop.store.core loop.stack
  handled : ∀ watcher point, .code (.watcher watcher point) ∈ loop.stack →
    (setup.component watcher).handling point → Current setup loop watcher
  standing : ∀ watcher, stopped watcher loop.log →
    (setup.component watcher).attached (loop.store.states watcher) = false
  heeded : Heeded loop.log

section Take

variable {setup} {loop : State setup} {watcher : Watcher}
  {turn : (setup.component watcher).Turn} {below : List (Frame (Point setup))}

omit [DecidableEq Watcher] in
theorem framed_append {core : EventCore Watcher}
    {push : List (Frame (Point setup))}
    (plain : ∀ batch snapshot, .code (.dispatch batch snapshot) ∉ push) :
    Framed setup core (push ++ below) ↔ Framed setup core below := by
  induction push with
  | nil => rfl
  | cons frame rest ih =>
      simp only [List.mem_cons, not_or] at plain
      have ih := ih fun batch snapshot => (plain batch snapshot).2
      cases frame with
      | user => exact ih
      | code point =>
          cases point with
          | dispatch batch snapshot =>
              exact absurd rfl (plain batch snapshot).1
          | watcher watcher point => exact ih

theorem Framed.register {core : EventCore Watcher}
    {stack : List (Frame (Point setup))} (framed : Framed setup core stack)
    (watcher : Watcher) (effects : List Effect) :
    Framed setup (effects.foldl (register watcher) core) stack := by
  induction stack with
  | nil => exact (inDispatch_register watcher effects core).trans framed
  | cons frame rest ih =>
      cases frame with
      | user => exact ih framed
      | code point =>
          cases point with
          | watcher watcher point => exact ih framed
          | dispatch batch snapshot =>
              obtain ⟨last, dispatching, same⟩ := framed
              exact ⟨last,
                (inDispatch_register watcher effects core).trans dispatching,
                same.trans (sources_register effects dispatching).symm⟩

theorem lift_push_watcher (store : Store setup)
    {frame : Frame (Point setup)}
    (member : frame ∈ (lift setup store watcher turn).push) :
    frame = .user ∨ ∃ point, frame = .code (.watcher watcher point) ∧
      .code point ∈ turn.push := by
  simp only [lift, List.mem_map] at member
  obtain ⟨inner, member, rfl⟩ := member
  cases inner with
  | user => exact .inl rfl
  | code point => exact .inr ⟨point, rfl, member⟩

theorem take_inv (inv : Inv setup loop)
    (tracked : Tracked loop.log watcher
      ((setup.component watcher).attached (loop.store.states watcher))
      ((setup.component watcher).attached turn.store)
      ((setup.component watcher).effects turn))
    (framed : Framed setup loop.store.core below)
    (handled : ∀ frame ∈ below, frame ∈ loop.stack)
    (pushes : ∀ point, .code point ∈ turn.push →
      (setup.component watcher).handling point → Current setup loop watcher) :
    Inv setup (loop.take (lift setup loop.store watcher turn) below) := by
  have recent : sinceDispatch (loop.take (lift setup loop.store watcher turn)
      below).log = sinceDispatch loop.log ++
        ((setup.component watcher).effects turn).map
          fun effect => (watcher, effect) := by
    apply since_append
    intro action member
    simp only [lift, List.mem_map] at member
    obtain ⟨effect, member, rfl⟩ := member
    have notDispatched : effect ≠ .dispatched := fun same =>
      tracked.undispatched (same ▸ member)
    simpa using notDispatched
  have current (other : Watcher) (isCurrent : Current setup loop other) :
      Current setup (loop.take (lift setup loop.store watcher turn) below)
        other := by
    unfold Current
    rw [recent]
    by_cases same : other = watcher
    · subst same
      simp only [Config.take, lift, Function.update_self]
      cases isCurrent with
      | inl attached =>
          refine (tracked.keeps attached).imp id ?_
          intro stops
          exact List.mem_append_right _ (List.mem_map.mpr ⟨_, stops, rfl⟩)
      | inr stopped => exact .inr (List.mem_append_left _ stopped)
    · simp only [Config.take, lift, Function.update_of_ne same]
      exact isCurrent.imp id (List.mem_append_left _)
  constructor
  · intro other
    by_cases same : other = watcher
    · subst same
      simpa [Config.take, lift] using
        tracked.registers _ (inv.registered other)
    · simpa [Config.take, lift, Function.update_of_ne same,
        upcoming_register_other same] using inv.registered other
  · refine (framed_append ?_).mpr (framed.register watcher _)
    intro batch snapshot member
    rcases lift_push_watcher loop.store member with isUser | ⟨point, isPoint, -⟩
    · cases isUser
    · cases isPoint
  · intro other point member isHandling
    apply current
    cases List.mem_append.mp member with
    | inl lifted =>
        rcases lift_push_watcher loop.store lifted with
          isUser | ⟨inner, isPoint, pushed⟩
        · cases isUser
        · cases isPoint
          exact pushes inner pushed isHandling
    | inr old =>
        exact inv.handled other point (handled _ old) isHandling
  · intro other isStopped
    by_cases same : other = watcher
    · subst same
      simpa [Config.take, lift] using
        tracked.standing (inv.standing other) isStopped
    · simp only [Config.take, lift, Function.update_of_ne same]
      apply inv.standing
      rw [← isStopped]
      refine (stopped_other _ ?_).symm
      intro action member
      simp only [lift, List.mem_map] at member
      obtain ⟨effect, -, rfl⟩ := member
      exact Ne.symm same
  · exact tracked.heeded inv.heeded (inv.standing watcher)

end Take

section Run

variable {setup} (lawful : ∀ watcher, (setup.component watcher).Lawful)
  {loop after : State setup}

include lawful in
theorem call_inv {request : Request setup} {turn : Turn setup}
    (inv : Inv setup loop)
    (called : call setup loop.store request = some turn) :
    Inv setup (loop.take turn loop.stack) := by
  obtain ⟨watcher, request⟩ := request
  simp only [call, Option.map_eq_some_iff] at called
  obtain ⟨turn, called, rfl⟩ := called
  obtain ⟨conducts, pushes⟩ := (lawful watcher).call _ _ _ called
  apply take_inv inv (tracked_of_conduct conducts) inv.framed
  · exact fun _ => id
  · intro point member isHandling
    rw [pushes point member] at isHandling
    cases isHandling

include lawful in
theorem resume_inv {watcher : Watcher}
    {point : (setup.component watcher).Point}
    {input : (setup.component watcher).Input}
    {turn : (setup.component watcher).Turn}
    {below : List (Frame (Point setup))} (inv : Inv setup loop)
    (shape : loop.stack = .code (.watcher watcher point) :: below)
    (heeds : (watcher, .stopped) ∈ sinceDispatch loop.log →
      (setup.component watcher).handsOver (loop.store.states watcher) point
        input →
      (setup.component watcher).attached (loop.store.states watcher))
    (resumed : (setup.component watcher).program.resume
      (loop.store.states watcher) point input = some turn) :
    Inv setup (loop.take (lift setup loop.store watcher turn) below) := by
  obtain ⟨outcome, pushes⟩ := (lawful watcher).resume _ _ _ _ resumed
  have framed : Framed setup loop.store.core below := by
    have framed := inv.framed
    rw [shape] at framed
    exact framed
  have current (isHandling : (setup.component watcher).handling point) :
      Current setup loop watcher :=
    inv.handled watcher point (by simp [shape]) isHandling
  apply take_inv inv ?_ framed
  · intro frame member
    rw [shape]
    exact List.mem_cons_of_mem _ member
  · intro next member isHandling
    exact current (pushes next member isHandling)
  · cases outcome with
    | inl conducts => exact tracked_of_conduct conducts
    | inr delivery =>
        obtain ⟨⟨same, delivers⟩, isHandling, handsOver⟩ := delivery
        have attached : (setup.component watcher).attached
            (loop.store.states watcher) = true :=
          (current isHandling).elim id fun stopped => heeds stopped handsOver
        rw [same, attached, delivers]
        exact tracked_of_delivery

theorem attached_of_target {event : RawEvent} {watcher : Watcher}
    (inv : Inv setup loop)
    (isTarget : target setup event loop.store.core.sources = some watcher)
    (heeds : .remove watcher ∈ loop.store.core.pendingOps →
      watcher ∈ loop.store.core.upcoming ∨
        (setup.component watcher).inert (loop.store.states watcher)) :
    (setup.component watcher).attached (loop.store.states watcher) ∨
      (setup.component watcher).inert (loop.store.states watcher) := by
  by_cases removed : .remove watcher ∈ loop.store.core.pendingOps
  · exact (heeds removed).imp (inv.registered watcher).mp id
  · left
    apply (inv.registered watcher).mp
    exact EventCore.mem_upcoming_of_mem_sources
      (List.mem_of_find?_eq_some isTarget) removed

include lawful

theorem dispatchNext_inv {event : RawEvent} {rest : List RawEvent}
    {snapshot : List Watcher} {turn : Turn setup}
    {below : List (Frame (Point setup))} (inv : Inv setup loop)
    (shape : loop.stack = .code (.dispatch (event :: rest) snapshot) :: below)
    (heeds : ∀ watcher ∈ target setup event snapshot,
      .remove watcher ∈ loop.store.core.pendingOps →
      watcher ∈ loop.store.core.upcoming ∨
        (setup.component watcher).inert (loop.store.states watcher))
    (dispatched : dispatchNext setup loop.store event rest snapshot =
      some turn) :
    Inv setup (loop.take turn below) := by
  have framed := inv.framed
  rw [shape] at framed
  obtain ⟨rfl, dispatching, rfl⟩ := framed
  unfold dispatchNext at dispatched
  split at dispatched
  · cases dispatched
    refine ⟨inv.registered, ⟨rfl, dispatching, rfl⟩, ?_, ?_, ?_⟩
    · simp [Config.take]
    · simpa [Config.take] using inv.standing
    · simpa [Config.take] using inv.heeded
  · next watcher isTarget =>
      simp only [Option.map_eq_some_iff] at dispatched
      obtain ⟨turn, readied, rfl⟩ := dispatched
      obtain ⟨silent, same, inert⟩ := (lawful watcher).ready _ _ _ readied
      have attached := attached_of_target inv isTarget
        (heeds watcher isTarget)
      have states (other : Watcher) : (setup.component other).attached
          (Function.update loop.store.states watcher turn.store other) =
          (setup.component other).attached (loop.store.states other) := by
        by_cases isWatcher : other = watcher
        · subst isWatcher
          rw [Function.update_self, same]
        · rw [Function.update_of_ne isWatcher]
      constructor
      · simpa [Config.take, lift, silent, states] using inv.registered
      · simp only [Config.take, Turn.andThen_store, Turn.andThen_push,
          Turn.preceded_store, Turn.preceded_push, List.append_nil]
        refine (framed_append ?_).mpr ?_
        · intro batch snapshot member
          rcases lift_push_watcher loop.store member with
            isUser | ⟨point, isPoint, -⟩
          · cases isUser
          · cases isPoint
        · simpa [Framed, lift, silent] using dispatching
      · intro other point member isHandling
        simp only [Config.take, Turn.andThen_push, Turn.preceded_push,
          List.append_nil, List.mem_append] at member
        cases member with
        | inr last => simp at last
        | inl lifted =>
            rcases lift_push_watcher loop.store lifted with
              isUser | ⟨inner, isPoint, pushed⟩
            · cases isUser
            · cases isPoint
              left
              refine (states watcher).trans (attached.elim id ?_)
              intro isInert
              rw [inert isInert] at pushed
              cases pushed
      · intro other isStopped
        refine (states other).trans (inv.standing other ?_)
        simpa [Config.take, lift, silent, stopped_append] using isStopped
      · simp only [Config.take, lift, silent, Turn.andThen_emitted,
          Turn.preceded_emitted, List.map_nil, List.append_nil]
        exact inv.heeded.append (by simp)

theorem code_inv {point : Point setup} {input : Input setup}
    {turn : Turn setup} {below : List (Frame (Point setup))}
    (inv : Inv setup loop) (heeded : StopHeeded setup loop (.resume input))
    (shape : loop.stack = .code point :: below)
    (resumed : resume setup loop.store point input = some turn) :
    Inv setup (loop.take turn below) := by
  cases point with
  | dispatch batch snapshot =>
      cases input with
      | watcher answered input => cases batch <;> cases resumed
      | next =>
          cases batch with
          | nil =>
              cases resumed
              have framed := inv.framed
              rw [shape] at framed
              obtain ⟨rfl, -, -⟩ := framed
              refine ⟨?_, ?_, ?_, ?_, ?_⟩
              · simp only [Config.take, finishDispatch, Turn.rest_store,
                  EventCore.upcoming_applyPendingChanges]
                exact inv.registered
              · simp [Config.take, finishDispatch, Framed]
              · simp [Config.take, finishDispatch]
              · simpa [Config.take, finishDispatch] using inv.standing
              · simpa [Config.take, finishDispatch] using inv.heeded
          | cons event rest =>
              simp only [StopHeeded, shape] at heeded
              exact dispatchNext_inv lawful inv shape heeded resumed
  | watcher watcher point =>
      cases input with
      | next => cases resumed
      | watcher answered input =>
          simp only [StopHeeded, shape] at heeded
          simp only [resume] at resumed
          split at resumed
          · next same =>
              subst same
              simp only [Option.map_eq_some_iff] at resumed
              obtain ⟨turn, resumed, rfl⟩ := resumed
              exact resume_inv lawful inv shape
                (fun stopped => heeded stopped rfl) resumed
          · cases resumed

theorem step_inv
    {label : Label (Request setup) (List RawEvent) (Input setup)}
    (inv : Inv setup loop) (heeded : StopHeeded setup loop label)
    (stepped : (program setup).step loop label = some after) :
    Inv setup after := by
  cases Program.step_cases stepped with
  | inl taken =>
      obtain ⟨turn, below, takes, rfl⟩ := taken
      cases takes with
      | call _ called => exact call_inv lawful inv called
      | resume shape resumed => exact code_inv lawful inv heeded shape resumed
      | ready outside readied =>
          cases readied
          refine ⟨inv.registered, ⟨rfl, rfl, rfl⟩, ?_, ?_, ?_⟩
          · simp [Config.take, dispatchRawEvents]
          · simpa [Config.take, dispatchRawEvents] using inv.standing
          · simpa [Config.take, dispatchRawEvents] using inv.heeded
  | inr left =>
      obtain ⟨rfl, below, shape, rfl⟩ := left
      have framed := inv.framed
      have handled := inv.handled
      rw [shape] at framed handled
      exact ⟨inv.registered, framed,
        fun watcher point member =>
          handled watcher point (List.mem_cons_of_mem _ member),
        inv.standing, inv.heeded⟩

end Run

/-- A worker with watchers of the platform, whatever their descriptors. -/
def linuxSetup {Watcher : Type} (kind : Watcher → LinuxWatcher)
    (sourceFd : Watcher → Nat) : Setup Watcher where
  component watcher := (kind watcher).component
  sourceFd := sourceFd

theorem inv_of_initial
    (lawful : ∀ watcher, (setup.component watcher).Lawful)
    {loop : State setup} (isInitial : (system setup).initial loop) :
    Inv setup loop := by
  obtain ⟨⟨fresh, core⟩, stack, log⟩ := isInitial
  have detached (watcher : Watcher) : (setup.component watcher).attached
      (loop.store.states watcher) = false :=
    (lawful watcher).fresh _ (fresh watcher)
  constructor
  · intro watcher
    simp [core, EventCore.upcoming, detached]
  · rw [stack, core]
    exact rfl
  · intro watcher point member
    simp [stack] at member
  · exact fun watcher _ => detached watcher
  · intro watcher before after shape
    simp [log] at shape

theorem silent_while_stopped_of_stopHeeded (kind : Watcher → LinuxWatcher)
    (sourceFd : Watcher → Nat) {loop : State (linuxSetup kind sourceFd)}
    (reached : (system (linuxSetup kind sourceFd)).ReachableUnder
      (StopHeeded (linuxSetup kind sourceFd)) loop) :
    SilentWhileStopped loop.log := by
  have lawful (watcher : Watcher) :
      ((linuxSetup kind sourceFd).component watcher).Lawful :=
    (kind watcher).lawful
  have inv : Inv (linuxSetup kind sourceFd) loop :=
    reached.invariant _ (fun _ => inv_of_initial _ lawful)
      fun _ _ _ inv heeded stepped => step_inv lawful inv heeded stepped
  exact silent_of_heeded inv.heeded

instance (loop : State setup)
    (label : Label (Request setup) (List RawEvent) (Input setup)) :
    Decidable (StopHeeded setup loop label) := by
  unfold StopHeeded
  split
  · split <;> infer_instance
  · split <;> infer_instance
  · infer_instance

def sampleSetup : Setup Bool :=
  linuxSetup (fun _ => .accept (epollTcpAcceptWatcher {} true false))
    fun watcher => if watcher then 4 else 3

def sampleLoop : State sampleSetup where
  store := {
    states := fun watcher =>
      ({ listenFd := some (if watcher then 4 else 3) } : Accept.State)
    core := {} }
  stack := []
  log := []

theorem sampleLoop_initial : (system sampleSetup).initial sampleLoop :=
  ⟨⟨fun _ => ⟨_, rfl⟩, rfl⟩, rfl, rfl⟩

def ask (watcher : Bool) (request : Accept.Request) :
    Label (Request sampleSetup) (List RawEvent) (Input sampleSetup) :=
  .call (.mk watcher request)

def answer (watcher : Bool) (result : AcceptResult) :
    Label (Request sampleSetup) (List RawEvent) (Input sampleSetup) :=
  .resume (.watcher watcher (Accept.Input.accept result))

/-- The first listener is stopped from its callback and then has nothing left
to accept. -/
def stopInsideAccept :
    List (Label (Request sampleSetup) (List RawEvent) (Input sampleSetup)) :=
  [ask false .start, ask true .start,
    .ready [⟨3, { readable := true }⟩, ⟨4, { readable := true }⟩],
    .resume .next, answer false (.accepted 8), ask false .stop, .leave,
    answer false (.failed Errno.eagain), .resume .next,
    answer true (.accepted 9), .leave, answer true (.failed Errno.eagain),
    .resume .next]

theorem silent_while_stopped_of_stopHeeded_stopInsideAccept :
    ∃ loop : State sampleSetup, (false, .stopped) ∈ loop.log ∧
      (true, .delivered) ∈ loop.log ∧ SilentWhileStopped loop.log := by
  have run : ((system sampleSetup).replay sampleLoop
      stopInsideAccept).map (fun loop => decide
        ((false, .stopped) ∈ loop.log ∧ (true, .delivered) ∈ loop.log)) =
        some true := by
    decide +kernel
  have heeded : (system sampleSetup).Follows (StopHeeded sampleSetup)
      sampleLoop stopInsideAccept := by decide +kernel
  obtain ⟨loop, ends, found⟩ := Option.map_eq_some_iff.mp run
  obtain ⟨stopped, delivered⟩ := of_decide_eq_true found
  exact ⟨loop, stopped, delivered, silent_while_stopped_of_stopHeeded _ _
    (System.ReachableUnder.replay stopInsideAccept
      (.start sampleLoop_initial) heeded ends)⟩

/-- The callback of the first listener stops both; a second connection waits at
the first one, and the event of the other is in the batch. -/
def stopBothInsideAccept :
    List (Label (Request sampleSetup) (List RawEvent) (Input sampleSetup)) :=
  [ask false .start, ask true .start,
    .ready [⟨3, { readable := true }⟩, ⟨4, { readable := true }⟩],
    .resume .next, answer false (.accepted 8), ask false .stop,
    ask true .stop, .leave, answer false (.accepted 9), .leave,
    answer false (.failed Errno.eagain), .resume .next,
    answer true (.accepted 10)]

theorem stopBothInsideAccept_calls_stopped :
    ¬ ∀ loop, (system sampleSetup).Reachable loop →
      SilentWhileStopped loop.log := by
  have run : ((system sampleSetup).replay sampleLoop
      stopBothInsideAccept).map (·.log) =
        some [(false, .attach), (false, .started), (true, .attach),
          (true, .started), (false, .dispatched), (false, .delivered),
          (false, .detach), (false, .stopped), (true, .detach),
          (true, .stopped), (false, .delivered), (true, .dispatched),
          (true, .delivered)] := by
    decide +kernel
  obtain ⟨loop, ends, log⟩ := Option.map_eq_some_iff.mp run
  intro claimed
  have silent := claimed loop (System.Reachable.replay stopBothInsideAccept
    (.start sampleLoop_initial) ends)
  rw [log] at silent
  have restarted := silent true
    [(false, .attach), (false, .started), (true, .attach), (true, .started),
      (false, .dispatched), (false, .delivered), (false, .detach),
      (false, .stopped), (true, .detach)]
    [(false, .delivered), (true, .dispatched)] [] rfl
  revert restarted
  decide

end Loop

end RopHive.Network
