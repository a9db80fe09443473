import RopHive.Network.KqueueCoverage

namespace RopHive.Network.KqueueConnection

open Transition
open Connection (Request Input)
open RopHive.Schedule (KqueueFilter KqueueLoop KqueueRawEvent PendingOp)

/-! The two sources of a connection against `want_send_ready_`. -/

section States

def State.flag (state : State) : KqueueFilter → Bool
  | .read => state.attached
  | .write => state.writeAttached

/-- `start` would attach a closed watcher, or leave out the write source that
a blocked `trySend` waits for. -/
def State.startsDeaf (state : State) : Bool :=
  !state.attached &&
    (state.closed || state.wantSendReady && !state.writeAttached)

/-- `stop` in `closeNow` would leave the write source behind. -/
def State.leavesWrite (state : State) : Bool :=
  !state.attached && !state.closed && state.writeAttached

def closes (state : State) :
    List (Frame Point) → Label Request KqueueRawEvent Input → Bool
  | _, .call .close => true
  | _, .ready event => event.filter = .write && !event.error && event.eof
  | .code (.sendFailed _ _) :: _, .resume .proceed => true
  | .code .readyFailed :: _, .resume .proceed => true
  | .code .readFailed :: _, .resume .proceed => true
  | .code (.readLoop remaining) :: _, .resume .proceed =>
      remaining = 0 && state.peerClosed
  | .code (.recv _) :: _, .resume (.recv .endOfStream) => true
  | .code (.recv _) :: _, .resume (.recv (.failed errno)) =>
      errno = MacErrno.eagain && state.peerClosed
  | _, _ => false

/-- Neither does `start` find a closed watcher or an unserved wish to send, nor
`closeNow` a write source without the read source. -/
def keepsInterest (state : State) (stack : List (Frame Point))
    (label : Label Request KqueueRawEvent Input) : Bool :=
  (match label with
    | .call .start => !state.startsDeaf
    | _ => true) &&
  (!closes state stack label || !state.leavesWrite)

theorem keeps_of_closes {state : State} {stack : List (Frame Point)}
    {label : Label Request KqueueRawEvent Input}
    (kept : keepsInterest state stack label = true)
    (closing : closes state stack label = true) :
    state.leavesWrite = false := by
  have keeps := (Bool.and_eq_true_iff.mp kept).2
  rw [closing] at keeps
  simpa using keeps

structure Sound (state : State) : Prop where
  wanted : state.attached → state.closed = false → state.wantSendReady →
    state.writeAttached
  shut : state.closed → state.attached = false ∧ state.writeAttached = false

/-- The point of `trySend` that is reached with an open descriptor only. -/
def Sending : Point → Prop
  | .sendLoop _ _ _ => True
  | _ => False

end States

section Turns

def heed (filter : KqueueFilter) (flag : Bool) : PendingOp KqueueFilter → Bool
  | .add other => filter = other || flag
  | .remove other => filter ≠ other && flag

variable (watcher : KqueueTcpConnectionWatcher)

/-- What a turn does to the flags and to what the core is told of them. -/
structure Serves (before : State) (turn : Turn) : Prop where
  valid : Valid turn.store
  pins : PinnedTop Sending (turn.store.closed = false) turn.push
  follows : ∀ filter, turn.store.flag filter =
    ((component watcher).ops turn).foldl (heed filter) (before.flag filter)
  sound : Sound before → Sound turn.store

variable {watcher} {state : State} {turn : Turn}

theorem Serves.plain (valid : Valid state)
    (same : turn.store = { state with peerClosed := turn.store.peerClosed })
    (silent : (component watcher).ops turn = [])
    (pins : PinnedTop Sending (state.closed = false) turn.push) :
    Serves watcher state turn where
  valid := by
    rw [same]
    exact valid
  pins := by
    rw [same]
    exact pins
  follows := fun filter => by
    rw [same, silent]
    cases filter with
    | read => rfl
    | write => rfl
  sound := fun sound => by
    rw [same]
    exact ⟨sound.wanted, sound.shut⟩

theorem Serves.andThen (serves : Serves watcher state turn) {point : Point}
    (other : ¬ Sending point) :
    Serves watcher state (turn.andThen [.code point]) where
  valid := serves.valid
  pins := by
    apply serves.pins.append
    intro next member
    cases List.mem_singleton.mp member
    exact other
  follows := serves.follows
  sound := serves.sound

theorem serves_rest (valid : Valid state) :
    Serves watcher state (.rest state) :=
  .plain valid rfl rfl trivial

theorem serves_await (valid : Valid state) {point : Point}
    (other : ¬ Sending point) : Serves watcher state (.await state point) := by
  refine .plain valid rfl rfl ⟨?_, nofun⟩
  intro next same isSending
  cases same
  exact absurd isSending other

theorem serves_callBack (valid : Valid state) {action : Action}
    (unregistering : registration action = none) (present : Bool) :
    Serves watcher state (.callBack state present action) := by
  cases present with
  | false => exact serves_rest valid
  | true =>
      refine .plain valid rfl ?_ ⟨nofun, nofun⟩
      simp [KqueueComponent.ops, component, Turn.callBack, unregistering]

theorem serves_closeNow (valid : Valid state)
    (kept : state.leavesWrite = false) :
    Serves watcher state (closeNow watcher state) := by
  obtain ⟨fd, attached, peerClosed, wantSendReady, closed, writeAttached⟩ :=
    state
  cases closed with
  | true => exact serves_rest valid
  | false =>
      obtain ⟨descriptor, rfl⟩ := Option.isSome_iff_exists.mp valid
      cases attached with
      | false =>
          obtain rfl : writeAttached = false := by
            simpa [State.leavesWrite] using kept
          cases present : watcher.callbacks.onClose with
          | _ =>
              simp only [closeNow, present]
              refine ⟨rfl, ?_, ?_, fun _ =>
                ⟨Bool.noConfusion, fun _ => ⟨rfl, rfl⟩⟩⟩
              · exact .of_plain (by simp [Turn.callBack, Turn.rest, stop])
              · rintro (_ | _) <;> rfl
      | true =>
          cases writeAttached <;>
            cases present : watcher.callbacks.onClose with
          | _ =>
              simp only [closeNow, present]
              refine ⟨rfl, ?_, ?_, fun _ =>
                ⟨Bool.noConfusion, fun _ => ⟨rfl, rfl⟩⟩⟩
              · exact .of_plain (by simp [Turn.callBack, Turn.rest, stop])
              · rintro (_ | _) <;> rfl

theorem serves_start (valid : Valid state)
    (hears : state.startsDeaf = false) :
    Serves watcher state
      ((Turn.rest (start state).1).preceded (start state).2) := by
  obtain ⟨fd, attached, peerClosed, wantSendReady, closed, writeAttached⟩ :=
    state
  cases attached with
  | true => exact serves_rest valid
  | false =>
      simp only [State.startsDeaf, Bool.not_false, Bool.true_and,
        Bool.or_eq_false_iff, Bool.and_eq_false_iff, Bool.not_eq_false'] at hears
      obtain ⟨isOpen, served⟩ := hears
      refine ⟨valid, trivial, ?_, fun _ => ⟨fun _ _ wants => ?_, ?_⟩⟩
      · rintro (_ | _) <;> rfl
      · exact served.resolve_left (by simpa [start] using wants)
      · intro isClosed
        exact absurd isClosed (by simpa [start] using isOpen)

theorem serves_stop (valid : Valid state) :
    Serves watcher state
      ((Turn.rest (stop state).1).preceded (stop state).2) := by
  obtain ⟨fd, attached, peerClosed, wantSendReady, closed, writeAttached⟩ :=
    state
  cases attached with
  | false => exact serves_rest valid
  | true =>
      refine ⟨valid, trivial, ?_, fun _ => ⟨nofun, fun _ => ⟨rfl, rfl⟩⟩⟩
      cases writeAttached with
      | _ => rintro (_ | _) <;> rfl

theorem serves_sendWhile (valid : Valid state) (isOpen : state.closed = false)
    (data : List Byte) (limit total : Nat) :
    Serves watcher state (sendWhile state data limit total) := by
  unfold sendWhile
  split
  · exact .plain valid rfl rfl ⟨fun _ _ _ => isOpen, nofun⟩
  · exact .plain valid rfl rfl trivial

theorem serves_trySend (valid : Valid state) (data : List Byte) :
    Serves watcher state (trySend watcher state data) := by
  unfold trySend
  split
  · exact .plain valid rfl rfl trivial
  · next opened =>
      split
      · exact .plain valid rfl rfl trivial
      · have isOpen : state.closed = false := by
          simpa [Valid, opened] using valid
        exact serves_sendWhile valid isOpen ..

theorem serves_wouldBlock (valid : Valid state)
    (isOpen : state.closed = false) (total : Nat) :
    Serves watcher state
      ((Turn.rest (armWritable { state with wantSendReady := true }).1).preceded
        ((armWritable { state with wantSendReady := true }).2 ++
          [Action.returned { n := total, wouldBlock := true }])) := by
  obtain ⟨fd, attached, peerClosed, wantSendReady, closed, writeAttached⟩ :=
    state
  simp only at isOpen
  subst isOpen
  cases writeAttached with
  | _ =>
      refine ⟨valid, trivial, ?_, fun _ => ⟨fun _ _ _ => rfl, nofun⟩⟩
      rintro (_ | _) <;> rfl

theorem serves_sendAnswered (valid : Valid state)
    (isOpen : state.closed = false) {data : List Byte} {limit total : Nat}
    {result : SendResult}
    (answered : sendAnswered watcher state data limit total result =
      some turn) : Serves watcher state turn := by
  have reports (err : Nat) :
      Serves watcher state (sendError watcher state err total) :=
    (serves_callBack valid rfl _).andThen id
  cases result with
  | accepted count =>
      simp only [sendAnswered, Option.ite_none_right_eq_some,
        Option.some.injEq] at answered
      obtain ⟨-, rfl⟩ := answered
      have serves : Serves watcher state
        (sendWhile state data limit (total + count)) :=
          serves_sendWhile valid isOpen ..
      exact ⟨serves.valid, serves.pins, serves.follows, serves.sound⟩
  | nothing =>
      cases answered
      exact reports _
  | failed errno =>
      simp only [sendAnswered] at answered
      split at answered
      · cases answered
        exact serves_sendWhile valid isOpen ..
      · split at answered
        · cases answered
          exact serves_wouldBlock valid isOpen total
        · cases answered
          exact reports _

theorem serves_eventError (valid : Valid state) (event : KqueueRawEvent) :
    Serves watcher state (eventError watcher state event) := by
  unfold eventError
  split
  · exact (serves_callBack valid rfl _).andThen id
  · exact serves_await valid id

theorem serves_onReadReady (valid : Valid state) (event : KqueueRawEvent) :
    Serves watcher state (onReadReady watcher state event) := by
  unfold onReadReady
  split
  · exact serves_rest valid
  · split
    · exact serves_eventError valid event
    · refine .plain valid rfl rfl ⟨?_, nofun⟩
      intro point same
      cases same
      exact False.elim

theorem serves_answer (valid : Valid state) :
    Serves watcher state
      ((Turn.callBack (disarmWritable { state with wantSendReady := false }).1
        watcher.callbacks.onSendReady .onSendReady).preceded
          (disarmWritable { state with wantSendReady := false }).2) := by
  obtain ⟨fd, attached, peerClosed, wantSendReady, closed, writeAttached⟩ :=
    state
  have quiet (sound : Sound ⟨fd, attached, peerClosed, wantSendReady, closed,
      writeAttached⟩) : Sound ⟨fd, attached, peerClosed, false, closed, false⟩ :=
    ⟨nofun, fun isClosed => ⟨(sound.shut isClosed).1, rfl⟩⟩
  cases writeAttached <;>
    cases present : watcher.callbacks.onSendReady with
  | _ =>
      refine ⟨valid, ?_, ?_, quiet⟩
      · exact .of_plain (by simp [Turn.callBack, Turn.rest])
      · rintro (_ | _) <;> rfl

theorem serves_onWriteReady (valid : Valid state) {event : KqueueRawEvent}
    (kept : (!event.error && event.eof) = true → state.leavesWrite = false) :
    Serves watcher state (onWriteReady watcher state event) := by
  unfold onWriteReady
  split
  · exact serves_rest valid
  · split
    · exact serves_eventError valid event
    · next noError =>
        split
        · next ended =>
            have noticed : Valid { state with peerClosed := true } := valid
            have serves : Serves watcher { state with peerClosed := true }
                (closeNow watcher { state with peerClosed := true }) :=
              serves_closeNow noticed (kept (by simp [noError, ended]))
            exact ⟨serves.valid, serves.pins, serves.follows,
              fun sound => serves.sound ⟨sound.wanted, sound.shut⟩⟩
        · split
          · exact serves_answer valid
          · exact serves_rest valid

theorem serves_afterRead (valid : Valid state)
    (kept : state.peerClosed = true → state.leavesWrite = false) :
    Serves watcher state (afterRead watcher state) := by
  unfold afterRead
  split
  · next ended => exact serves_closeNow valid (kept ended)
  · exact serves_rest valid

theorem serves_recvAnswered (valid : Valid state) {remaining : Nat}
    {result : RecvResult} {below : List (Frame Point)}
    (kept : closes state (.code (.recv remaining) :: below)
      (.resume (.recv result)) = true → state.leavesWrite = false)
    (resumed : recvAnswered watcher state remaining result = some turn) :
    Serves watcher state turn := by
  cases result with
  | received chunk =>
      simp only [recvAnswered, Option.ite_none_right_eq_some,
        Option.some.injEq] at resumed
      obtain ⟨-, rfl⟩ := resumed
      exact (serves_callBack valid rfl _).andThen id
  | endOfStream =>
      simp only [recvAnswered, Option.ite_none_right_eq_some,
        Option.some.injEq] at resumed
      obtain ⟨-, rfl⟩ := resumed
      have noticed : Valid { state with peerClosed := true } := valid
      have serves : Serves watcher { state with peerClosed := true }
          (afterRead watcher { state with peerClosed := true }) :=
        serves_afterRead noticed fun _ => kept rfl
      exact ⟨serves.valid, serves.pins, serves.follows,
        fun sound => serves.sound ⟨sound.wanted, sound.shut⟩⟩
  | failed errno =>
      simp only [recvAnswered, Option.ite_none_right_eq_some] at resumed
      obtain ⟨-, resumed⟩ := resumed
      split at resumed
      · cases resumed
        exact serves_await valid id
      · split at resumed
        · next drained =>
            obtain rfl : errno = MacErrno.eagain := drained.elim id id
            cases resumed
            exact serves_afterRead valid fun ended => kept (by
              simp [closes, ended])
        · cases resumed
          exact (serves_callBack valid rfl _).andThen id

theorem serves_handleRead (valid : Valid state) {remaining : Nat}
    {below : List (Frame Point)}
    (kept : closes state (.code (.readLoop remaining) :: below)
      (.resume .proceed) = true → state.leavesWrite = false) :
    Serves watcher state (handleRead watcher state remaining) := by
  unfold handleRead
  split
  · exact serves_await valid id
  · next reached =>
      apply serves_afterRead valid
      intro ended
      obtain rfl : remaining = 0 := by omega
      exact kept (by simp [closes, ended])

theorem serves_resume (valid : Valid state) {point : Point} {input : Input}
    {below : List (Frame Point)}
    (isOpen : Sending point → state.closed = false)
    (kept : closes state (.code point :: below) (.resume input) = true →
      state.leavesWrite = false)
    (resumed : resume watcher state point input = some turn) :
    Serves watcher state turn := by
  unfold resume at resumed
  split at resumed
  case h_1 => exact serves_sendAnswered valid (isOpen trivial) resumed
  case h_2 =>
      cases resumed
      exact (serves_closeNow valid (kept rfl)).andThen id
  case h_3 =>
      cases resumed
      exact .plain valid rfl rfl trivial
  case h_4 =>
      cases resumed
      exact (serves_callBack valid rfl _).andThen id
  case h_5 | h_8 =>
      cases resumed
      exact serves_closeNow valid (kept rfl)
  case h_6 =>
      cases resumed
      exact serves_handleRead valid kept
  case h_7 => exact serves_recvAnswered valid kept resumed
  case h_9 => cases resumed

theorem serves_call (valid : Valid state) {request : Request}
    {stack : List (Frame Point)}
    (kept : keepsInterest state stack (.call request) = true) :
    Serves watcher state (call watcher state request) := by
  cases request with
  | start =>
      refine serves_start valid ?_
      simpa [keepsInterest, closes] using kept
  | stop => exact serves_stop valid
  | trySend data => exact serves_trySend valid data
  | shutdownWrite =>
      simp only [call]
      split
      · exact serves_rest valid
      · exact .plain valid rfl rfl trivial
  | close =>
      refine serves_closeNow valid ?_
      simpa [keepsInterest, closes] using kept

end Turns

section Runs

variable {watcher : KqueueTcpConnectionWatcher}

/-- While the watcher is attached and open, the write source is registered or
queued to be if `on_send_ready_` is due; a closed watcher has no source. -/
structure InterestFollows (scene : (component watcher).Scene) : Prop where
  wanted : State.attached scene.store.state →
    State.closed scene.store.state = false →
    State.wantSendReady scene.store.state →
    .write ∈ scene.store.loop.core.upcoming
  shut : State.closed scene.store.state →
    .read ∉ scene.store.loop.core.upcoming ∧
      .write ∉ scene.store.loop.core.upcoming

def KeepsInterest (scene : (component watcher).Scene) :
    (component watcher).SceneLabel → Prop
  | .code label =>
      keepsInterest scene.store.state scene.stack label = true
  | _ => True

structure Served (scene : (component watcher).Scene) : Prop where
  valid : Valid scene.store.state
  pins : PinnedTop Sending (State.closed scene.store.state = false) scene.stack
  registered : ∀ filter, filter ∈ scene.store.loop.core.upcoming ↔
    State.flag scene.store.state filter
  sound : Sound scene.store.state

theorem mem_foldl_register {Item : Type} (filter : KqueueFilter)
    (ops : List (PendingOp KqueueFilter)) {loop : KqueueLoop Item}
    {flag : Bool} (registered : filter ∈ loop.core.upcoming ↔ flag) :
    filter ∈ (ops.foldl KqueueLoop.register loop).core.upcoming ↔
      ops.foldl (heed filter) flag := by
  induction ops generalizing loop flag with
  | nil => exact registered
  | cons op ops ih =>
      apply ih
      rw [KqueueLoop.upcoming_register]
      cases op with
      | add other => simp [heed, registered]
      | remove other => simp [heed, registered]

variable {scene after : (component watcher).Scene}

theorem served_withLoop (served : Served scene)
    {loop : KqueueLoop (component watcher).Item}
    (same : loop.core.upcoming = scene.store.loop.core.upcoming) :
    Served (KqueueComponent.withLoop scene loop) where
  valid := served.valid
  pins := served.pins
  registered := fun filter => by
    have registered := served.registered filter
    rw [← same] at registered
    exact registered
  sound := served.sound

theorem served_take
    {label : Label Request KqueueRawEvent Input}
    {loop : KqueueLoop (component watcher).Item} {turn : Turn}
    {below : List (Frame Point)} (served : Served scene)
    (takes : (component watcher).looped.Takes scene label
      ((component watcher).lift loop turn) below)
    (same : loop.core.upcoming = scene.store.loop.core.upcoming)
    (serves : Serves watcher scene.store.state turn) :
    Served (scene.take ((component watcher).lift loop turn) below) where
  valid := serves.valid
  pins := PinnedTop.take (fun store => State.closed store.state = false)
    served.pins takes serves.pins
  registered := fun filter => by
    have registered := served.registered filter
    rw [← same] at registered
    have told := mem_foldl_register filter
      ((component watcher).ops turn) registered
    rw [← serves.follows filter] at told
    exact told
  sound := serves.sound served.sound

theorem served_code {label : Label Request KqueueRawEvent Input}
    (served : Served scene)
    (kept : keepsInterest scene.store.state scene.stack label = true)
    (stepped : (component watcher).looped.step scene label = some after) :
    Served after := by
  cases Program.step_cases stepped with
  | inl taken =>
      obtain ⟨turn, below, takes, rfl⟩ := taken
      cases takes with
      | call userOnTop called =>
          have called' := called
          simp only [KqueueComponent.looped, Option.map_eq_some_iff] at called'
          obtain ⟨turn, isCall, rfl⟩ := called'
          cases isCall
          exact served_take served (.call userOnTop called) rfl
            (serves_call served.valid kept)
      | @ready event _ outside readied =>
          have readied' := readied
          simp only [KqueueComponent.looped, Option.bind_eq_some_iff,
            Option.map_eq_some_iff] at readied'
          obtain ⟨loop, dispatched, turn, isReady, rfl⟩ := readied'
          cases isReady
          have same : loop.core.upcoming = scene.store.loop.core.upcoming :=
            KqueueLoop.upcoming_dispatch dispatched
          refine served_take served (.ready outside readied) same ?_
          cases filter : event.filter with
          | read =>
              simp only [onReady, filter]
              exact serves_onReadReady served.valid event
          | write =>
              simp only [onReady, filter]
              apply serves_onWriteReady served.valid
              intro closing
              simpa [keepsInterest, closes, filter, closing] using kept
      | @resume point input below _ shape resumed =>
          have resumed' := resumed
          simp only [KqueueComponent.looped, Option.bind_eq_some_iff,
            Option.map_eq_some_iff] at resumed'
          obtain ⟨queue, answered, turn, isResume, rfl⟩ := resumed'
          refine served_take served (.resume shape resumed) rfl ?_
          have pins := served.pins
          rw [shape] at pins kept
          have keeps : closes scene.store.state (.code point :: below)
              (.resume input) = true →
              State.leavesWrite scene.store.state = false :=
            keeps_of_closes kept
          exact serves_resume served.valid (pins.1 _ rfl) keeps isResume
  | inr left =>
      obtain ⟨-, below, shape, rfl⟩ := left
      exact ⟨served.valid, served.pins.leave shape, served.registered,
        served.sound⟩

theorem served_step {label : (component watcher).SceneLabel}
    (served : Served scene) (kept : KeepsInterest scene label)
    (stepped : KqueueComponent.sceneStep scene label = some after) :
    Served after := by
  cases label with
  | arrive items =>
      simp only [KqueueComponent.sceneStep, Option.ite_none_left_eq_some,
        Option.some.injEq] at stepped
      obtain ⟨-, rfl⟩ := stepped
      exact served_withLoop served rfl
  | finish =>
      cases stepped
      exact served_withLoop served rfl
  | wait returned =>
      simp only [KqueueComponent.sceneStep, Option.ite_none_right_eq_some,
        Option.map_eq_some_iff] at stepped
      obtain ⟨-, loop, waited, rfl⟩ := stepped
      exact served_withLoop served (KqueueLoop.upcoming_wait waited)
  | finishDispatch =>
      simp only [KqueueComponent.sceneStep, Option.ite_none_right_eq_some,
        Option.map_eq_some_iff] at stepped
      obtain ⟨-, loop, finished, rfl⟩ := stepped
      exact served_withLoop served (KqueueLoop.upcoming_finishDispatch finished)
  | code label => exact served_code served kept stepped

theorem Served.interestFollows (served : Served scene) :
    InterestFollows scene where
  wanted := fun attached isOpen wants =>
    (served.registered .write).mpr (served.sound.wanted attached isOpen wants)
  shut := fun isClosed => by
    obtain ⟨noRead, noWrite⟩ := served.sound.shut isClosed
    constructor
    · intro read
      have attached := (served.registered .read).mp read
      exact Bool.noConfusion (noRead.symm.trans attached)
    · intro write
      have attached := (served.registered .write).mp write
      exact Bool.noConfusion (noWrite.symm.trans attached)

theorem served_of_initial (isInitial : (component watcher).scenes.initial scene) :
    Served scene := by
  obtain ⟨store, stack, log⟩ := scene
  obtain ⟨state, loop⟩ := store
  obtain ⟨⟨fd, rfl⟩, rfl, rfl, -⟩ := isInitial
  refine ⟨rfl, trivial, ?_, nofun, nofun⟩
  intro filter
  cases filter with
  | _ => simp [RopHive.Schedule.EventCore.upcoming, State.flag]

theorem interest_follows
    (reached : (component watcher).scenes.ReachableUnder KeepsInterest scene) :
    InterestFollows scene := by
  have served : Served scene :=
    reached.invariant _ (fun _ => served_of_initial)
      fun _ _ _ served kept stepped => served_step served kept stepped
  exact served.interestFollows

instance (scene : (component watcher).Scene)
    (label : (component watcher).SceneLabel) :
    Decidable (KeepsInterest scene label) := by
  unfold KeepsInterest
  split <;> infer_instance

end Runs

section Samples

abbrev sampleComponent : KqueueComponent :=
  component KqueueComponent.sampleWatcher

def freshScene : sampleComponent.Scene where
  store := ⟨({ fd := some 5 } : State), {}⟩
  stack := []
  log := []

theorem freshScene_initial : sampleComponent.scenes.initial freshScene :=
  ⟨⟨5, rfl⟩, rfl, rfl, rfl⟩

def asked (request : Request) : sampleComponent.SceneLabel :=
  .code (.call request)

def blocked : List sampleComponent.SceneLabel :=
  [asked (.trySend [(1 : Byte)]),
    .code (.resume (.send (.failed MacErrno.eagain) : Input))]

theorem interest_follows_blockedEarly :
    ∃ scene : sampleComponent.Scene,
      State.wantSendReady scene.store.state = true ∧
        InterestFollows scene := by
  obtain ⟨scene, run, wants⟩ : ∃ after,
      sampleComponent.scenes.replay freshScene
        (blocked ++ [asked .start]) = some after ∧
      State.wantSendReady after.store.state = true := ⟨_, rfl, rfl⟩
  have kept : sampleComponent.scenes.Follows KeepsInterest freshScene
      (blocked ++ [asked .start]) := by decide +kernel
  exact ⟨scene, wants, interest_follows
    (System.ReachableUnder.replay _ (.start freshScene_initial) kept run)⟩

/-- The watcher is stopped and started again after a blocked `trySend`. -/
theorem interest_lost :
    ¬ ∀ scene, sampleComponent.scenes.Reachable scene →
        InterestFollows scene := by
  obtain ⟨scene, run, attached, isOpen, wants, sources⟩ : ∃ after,
      sampleComponent.scenes.replay freshScene
        (asked .start :: blocked ++ [asked .stop, asked .start]) =
          some after ∧
      State.attached after.store.state = true ∧
      State.closed after.store.state = false ∧
      State.wantSendReady after.store.state = true ∧
      after.store.loop.core.upcoming = [.read] :=
    ⟨_, rfl, rfl, rfl, rfl, rfl⟩
  intro follows
  have reached := System.Reachable.replay _ (.start freshScene_initial) run
  have write := (follows scene reached).wanted attached isOpen wants
  rw [sources] at write
  cases List.mem_singleton.mp write

end Samples

end RopHive.Network.KqueueConnection
