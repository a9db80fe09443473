import RopHive.Network.Connect

namespace RopHive.Network.Connect

open Transition

/-- The kernel's state of the socket a `start` made last. -/
inductive Socket where
  | unconnected
  | connecting
  | connected
  | refused (err : Nat)
  deriving DecidableEq, Repr

structure Scene where
  config : Config State Point Action
  socket : Socket

/-- Besides the steps of the watcher: the kernel completes a connect in
progress, with `SO_ERROR` set to `err`; an event returned for the source of an
earlier `start`, detached since, is dispatched. -/
inductive SceneLabel where
  | complete (err : Nat)
  | stale (events : Events)
  | code (label : Label Request Events Input)

namespace Scene

/-- The socket after a step of the watcher.  Callbacks call `cancel` and
`stop`; a socket that is connecting reports no event, any other may; a failed
connect is reported by `SO_ERROR` once. -/
def answers (scene : Scene) :
    Label Request Events Input → Option Socket
  | .call .start =>
      if scene.config.stack = [] then some scene.socket else none
  | .ready _ =>
      if scene.config.store.attached ∧ scene.socket ≠ .connecting then
        some scene.socket
      else none
  | .resume (.socket (.opened _)) => some .unconnected
  | .resume (.connect .ok) => some .connected
  | .resume (.connect (.failed errno)) =>
      some (if errno = Errno.einprogress then .connecting else .unconnected)
  | .resume (.socketError (.pending err)) =>
      match scene.socket with
      | .refused cause => if err = cause then some .unconnected else none
      | socket => some socket
  | _ => some scene.socket

variable (watcher : TcpConnectWatcher)

def step (scene : Scene) : SceneLabel → Option Scene
  | .complete err =>
      if scene.socket = .connecting then
        some { scene with
          socket := if err = 0 then .connected else .refused err }
      else none
  | .stale events =>
      if .detachSource ∈ scene.config.log then
        ((program watcher).step scene.config (.ready events)).map fun config =>
          { scene with config }
      else none
  | .code label =>
      (scene.answers label).bind fun socket =>
        ((program watcher).step scene.config label).map fun config =>
          ⟨config, socket⟩

end Scene

def sceneSystem (watcher : TcpConnectWatcher) : System Scene SceneLabel where
  initial scene :=
    (system watcher).initial scene.config ∧ scene.socket = .unconnected
  step := Scene.step watcher

def sinceStart (log : List Action) : List Action :=
  since (· = .started) log

namespace Action

def Outcome : Action → Prop
  | .onConnected _ | .onError _ => True
  | _ => False

def Acts : Action → Prop
  | .onConnected _ | .onError _ | .connect | .attachSource _ _ => True
  | _ => False

def Disturbs : Action → Prop
  | .onConnected _ | .onError _ | .attachSource _ _ => True
  | _ => False

instance (action : Action) : Decidable action.Outcome := by
  cases action <;> unfold Outcome <;> infer_instance

instance (action : Action) : Decidable action.Acts := by
  cases action <;> unfold Acts <;> infer_instance

instance (action : Action) : Decidable action.Disturbs := by
  cases action <;> unfold Disturbs <;> infer_instance

theorem acts_of_outcome {action : Action} (isOutcome : action.Outcome) :
    action.Acts := by
  cases action <;> trivial

theorem acts_of_disturbs {action : Action} (disturbs : action.Disturbs) :
    action.Acts := by
  cases action <;> trivial

end Action

/-- The outcome of a `start` is unique and final, and `cancel` is final. -/
structure OutcomeUnique (scene : Scene) : Prop where
  once : (sinceStart scene.config.log).countP (·.Outcome) ≤ 1
  genuine : ∀ fd, .onConnected fd ∈ sinceStart scene.config.log →
    scene.socket = .connected
  idleAfterError : (sinceStart scene.config.log).Pairwise
    fun earlier later => (∃ err, earlier = .onError err) → ¬ later.Acts
  released : ∀ err, .onError err ∈ sinceStart scene.config.log →
    scene.config.store.attached = false ∧ scene.config.store.fd = none
  quietAfterCancel : scene.config.log.Pairwise
    fun earlier later => earlier = .cancelReturned → ¬ later.Disturbs
  detachedAfterCancel : .cancelReturned ∈ scene.config.log →
    scene.config.store.attached = false

def Input.Fails : Input → Prop
  | .nonBlocking (.failed _) | .bind (.failed _)
  | .socketError (.failed _) => True
  | .connect (.failed errno) => errno ≠ Errno.einprogress
  | .socketError (.pending err) => err ≠ 0
  | _ => False

instance (input : Input) : Decidable input.Fails := by
  unfold Input.Fails
  split <;> infer_instance

/-- `fail` finds the source attached (so that `stop` closes the descriptor), and
no stale event hits a connect in progress. -/
def FailsAttached (scene : Scene) : SceneLabel → Prop
  | .code (.resume input) => input.Fails → scene.config.store.attached
  | .stale _ => scene.socket ≠ .connecting
  | _ => True

instance (scene : Scene) (label : SceneLabel) :
    Decidable (FailsAttached scene label) := by
  unfold FailsAttached
  split <;> infer_instance

theorem sinceStart_append {more : List Action} (log : List Action)
    (noStart : .started ∉ more) :
    sinceStart (log ++ more) = sinceStart log ++ more := by
  apply since_append
  intro action member
  have notStart : action ≠ .started := fun isStart =>
    noStart (isStart ▸ member)
  simpa using notStart

theorem sinceStart_started (log : List Action) :
    sinceStart (log ++ [Action.started]) = [] :=
  since_mark log rfl

def Decided (log : List Action) : Prop :=
  ∃ action ∈ sinceStart log, action.Outcome

theorem decided_append {log more : List Action} (noStart : .started ∉ more) :
    Decided (log ++ more) ↔
      Decided log ∨ ∃ action ∈ more, action.Outcome := by
  simp [Decided, sinceStart_append log noStart, or_and_right, exists_or]

def Resting (below : List (Frame Point)) : Prop :=
  below = [] ∨ below = [.code .afterCreate] ∨ below = [.code .afterConnect]

/-- The stacks of runs that keep to `FailsAttached`, and what is so while they
stand. -/
inductive Standing (state : State) (socket : Socket) (decided : Prop) :
    List (Frame Point) → Prop
  | outside (attachment : state.attached = state.fd.isSome)
      (live : state.fd.isSome → ¬ decided ∧ state.canceled = false ∧
        socket ≠ .unconnected) :
      Standing state socket decided []
  | inCallback {below : List (Frame Point)}
      (resting : Resting below)
      (fd : state.fd = none) (detached : state.attached = false) :
      Standing state socket decided (.user :: below)
  | opening {family : Family} (fd : state.fd = none)
      (detached : state.attached = false) (undecided : ¬ decided)
      (going : state.canceled = false) :
      Standing state socket decided
        [.code (.socketCall family), .code .afterCreate]
  | preparing {point : Point}
      (kind : (∃ family, point = .nonBlockingCall family) ∨ point = .bindCall)
      (fd : state.fd.isSome) (detached : state.attached = false)
      (undecided : ¬ decided) (going : state.canceled = false) :
      Standing state socket decided [.code point, .code .afterCreate]
  | created (detached : state.attached = false)
      (live : state.fd.isSome → ¬ decided ∧ state.canceled = false) :
      Standing state socket decided [.code .afterCreate]
  | connecting (fd : state.fd.isSome) (detached : state.attached = false)
      (undecided : ¬ decided) (going : state.canceled = false) :
      Standing state socket decided
        [.code .connectCall, .code .afterConnect]
  | checkingAtOnce (fd : state.fd.isSome) (detached : state.attached = false)
      (undecided : ¬ decided) (going : state.canceled = false)
      (established : socket = .connected) :
      Standing state socket decided
        [.code .socketError, .code .afterConnect]
  | tried (detached : state.attached = false)
      (live : state.fd.isSome → ¬ decided ∧ state.canceled = false ∧
        socket ≠ .unconnected) :
      Standing state socket decided [.code .afterConnect]
  | checking (fd : state.fd.isSome) (attached : state.attached = true)
      (undecided : ¬ decided) (going : state.canceled = false)
      (completed : socket ≠ .unconnected ∧ socket ≠ .connecting) :
      Standing state socket decided [.code .socketError]

theorem Standing.released {state : State} {socket : Socket} {decided : Prop}
    {stack : List (Frame Point)}
    (standing : Standing state socket decided stack)
    (finished : decided ∨ state.canceled) :
    state.attached = false ∧ state.fd = none := by
  have closed (live : state.fd.isSome → ¬ decided ∧
      state.canceled = false) : state.fd = none := by
    apply Option.not_isSome_iff_eq_none.mp
    intro isOpen
    obtain ⟨undecided, going⟩ := live isOpen
    simp [undecided, going] at finished
  cases standing with
  | outside attachment live =>
      have fd := closed fun isOpen => ⟨(live isOpen).1, (live isOpen).2.1⟩
      exact ⟨by simp [attachment, fd], fd⟩
  | inCallback _ fd detached => exact ⟨detached, fd⟩
  | opening fd detached => exact ⟨detached, fd⟩
  | preparing _ fd detached undecided going
  | connecting fd detached undecided going
  | checkingAtOnce fd detached undecided going
  | checking fd attached undecided going =>
      simp [undecided, going] at finished
  | created detached live => exact ⟨detached, closed live⟩
  | tried detached live =>
      exact ⟨detached, closed fun isOpen =>
        ⟨(live isOpen).1, (live isOpen).2.1⟩⟩

theorem Standing.completed {state : State} {socket : Socket} {decided : Prop}
    {stack : List (Frame Point)}
    (standing : Standing state .connecting decided stack)
    (tried : socket ≠ .unconnected) : Standing state socket decided stack := by
  cases standing with
  | outside attachment live =>
      exact .outside attachment fun isOpen =>
        ⟨(live isOpen).1, (live isOpen).2.1, tried⟩
  | inCallback resting fd detached => exact .inCallback resting fd detached
  | opening fd detached undecided going =>
      exact .opening fd detached undecided going
  | preparing kind fd detached undecided going =>
      exact .preparing kind fd detached undecided going
  | created detached live => exact .created detached live
  | connecting fd detached undecided going =>
      exact .connecting fd detached undecided going
  | checkingAtOnce _ _ _ _ established => cases established
  | tried detached live =>
      exact .tried detached fun isOpen =>
        ⟨(live isOpen).1, (live isOpen).2.1, tried⟩
  | checking _ _ _ _ completed => exact absurd rfl completed.2

/-- What a turn other than that of `start` keeps. -/
structure Sound (scene : Scene) (turn : Turn) (below : List (Frame Point))
    (socket : Socket) : Prop where
  noStart : .started ∉ turn.emitted
  standing : Standing turn.store socket
    (Decided scene.config.log ∨ ∃ action ∈ turn.emitted, action.Outcome)
    (turn.push ++ below)
  settled : Decided scene.config.log →
    scene.socket = .connected → socket = .connected
  still : Decided scene.config.log → ∀ action ∈ turn.emitted, ¬ action.Acts
  ordered : turn.emitted.Pairwise
    fun earlier later => earlier.Outcome → ¬ later.Acts
  genuine : ∀ fd, .onConnected fd ∈ turn.emitted → socket = .connected
  discreet : turn.Discreet (· = Action.cancelReturned) Action.Disturbs
    (·.canceled = true) scene.config.store

structure Inv (scene : Scene) : Prop where
  standing : Standing scene.config.store scene.socket
    (Decided scene.config.log) scene.config.stack
  caused : scene.socket ≠ .refused 0
  ordered : (sinceStart scene.config.log).Pairwise
    fun earlier later => earlier.Outcome → ¬ later.Acts
  genuine : ∀ fd, .onConnected fd ∈ sinceStart scene.config.log →
    scene.socket = .connected
  silenced : scene.config.Silenced (· = Action.cancelReturned)
    Action.Disturbs (·.canceled = true)

theorem Inv.take {scene : Scene} (inv : Inv scene) {turn : Turn}
    {below : List (Frame Point)} {socket : Socket}
    (sound : Sound scene turn below socket) (caused : socket ≠ .refused 0) :
    Inv ⟨scene.config.take turn below, socket⟩ where
  standing := by
    simp only [Config.take]
    rw [decided_append sound.noStart]
    exact sound.standing
  caused := caused
  ordered := by
    simp only [Config.take]
    rw [sinceStart_append _ sound.noStart, List.pairwise_append]
    refine ⟨inv.ordered, sound.ordered, ?_⟩
    intro earlier old later new isOutcome
    exact sound.still ⟨earlier, old, isOutcome⟩ later new
  genuine fd member := by
    simp only [Config.take] at member
    rw [sinceStart_append _ sound.noStart, List.mem_append] at member
    cases member with
    | inl old =>
        exact sound.settled ⟨_, old, trivial⟩ (inv.genuine fd old)
    | inr new => exact sound.genuine fd new
  silenced := inv.silenced.take below sound.discreet

section Turns

variable {watcher : TcpConnectWatcher} {scene : Scene} {turn : Turn}
  {below : List (Frame Point)} {socket : Socket}

theorem sound_of_silent
    (standing : Standing turn.store socket (Decided scene.config.log)
      (turn.push ++ below))
    (silent : ∀ action ∈ turn.emitted, ¬ action.Acts ∧ action ≠ .started)
    (settled : Decided scene.config.log →
      scene.socket = .connected → socket = .connected)
    (canceled : scene.config.store.canceled → turn.store.canceled)
    (cancels : .cancelReturned ∈ turn.emitted → turn.store.canceled) :
    Sound scene turn below socket where
  noStart member := (silent _ member).2 rfl
  standing := by
    have nothing : ¬ ∃ action ∈ turn.emitted, action.Outcome := by
      intro some
      obtain ⟨action, member, isOutcome⟩ := some
      exact (silent action member).1 (Action.acts_of_outcome isOutcome)
    simpa [nothing] using standing
  settled := settled
  still _ action member := (silent action member).1
  ordered := by
    apply List.pairwise_of_forall_mem_list
    intro _ _ later member _
    exact (silent later member).1
  genuine fd member := absurd trivial (silent _ member).1
  discreet := {
    staysQuiet := canceled
    silent := fun _ action member disturbs =>
      (silent action member).1 (Action.acts_of_disturbs disturbs)
    quiets := by
      intro action member isReturn
      exact cancels (isReturn ▸ member)
    ordered := by
      apply List.pairwise_of_forall_mem_list
      intro _ _ later member _ disturbs
      exact (silent later member).1 (Action.acts_of_disturbs disturbs) }

theorem sound_of_going (undecided : ¬ Decided scene.config.log)
    (going : scene.config.store.canceled = false)
    (quiet : ∀ action ∈ turn.emitted,
      action ≠ .started ∧ action ≠ .cancelReturned)
    (standing : Standing turn.store socket
      (∃ action ∈ turn.emitted, action.Outcome) (turn.push ++ below))
    (ordered : turn.emitted.Pairwise
      fun earlier later => earlier.Outcome → ¬ later.Acts)
    (genuine : ∀ fd, .onConnected fd ∈ turn.emitted →
      socket = .connected) :
    Sound scene turn below socket where
  noStart member := (quiet _ member).1 rfl
  standing := by simpa [undecided] using standing
  settled decided := absurd decided undecided
  still decided := absurd decided undecided
  ordered := ordered
  genuine := genuine
  discreet := {
    staysQuiet := by simp [going]
    silent := by simp [going]
    quiets := fun action member isReturn =>
      absurd isReturn (quiet action member).2
    ordered := by
      apply List.pairwise_of_forall_mem_list
      intro earlier member _ _ isReturn
      exact absurd isReturn (quiet earlier member).2 }

theorem standing_of_released {state : State} {decided : Prop}
    (fd : state.fd = none) (detached : state.attached = false)
    (resting : Resting below) : Standing state socket decided below := by
  rcases resting with rfl | rfl | rfl
  · exact .outside (by simp [fd, detached]) (by simp [fd])
  · exact .created detached (by simp [fd])
  · exact .tried detached (by simp [fd])

theorem standing_of_callBack {state : State} {decided : Prop}
    (fd : state.fd = none) (detached : state.attached = false)
    (resting : Resting below) (present : Bool) :
    Standing state socket decided
      ((if present then [Frame.user] else []) ++ below) := by
  cases present with
  | true => exact .inCallback resting fd detached
  | false => exact standing_of_released fd detached resting

theorem fail_sound (undecided : ¬ Decided scene.config.log) {state : State}
    (going : state.canceled = false)
    (same : scene.config.store.canceled = state.canceled)
    (attachment : state.attached = state.fd.isSome)
    (resting : Resting below) (err : Nat) :
    Sound scene (fail watcher state err) below socket := by
  rw [fail_of_attached watcher going attachment]
  apply sound_of_going undecided (same.trans going)
  · cases state.attached <;> cases state.fd <;> cases watcher.onError <;>
      simp [closeFd]
  · exact standing_of_callBack rfl rfl resting watcher.onError
  · cases state.attached <;> cases state.fd <;> cases watcher.onError <;>
      simp [closeFd, Action.Outcome]
  · cases state.attached <;> cases state.fd <;> cases watcher.onError <;>
      simp [closeFd]

theorem connected_sound (undecided : ¬ Decided scene.config.log)
    {state : State} (going : scene.config.store.canceled = false)
    (established : socket = .connected) (resting : Resting below)
    (fd : Nat) : Sound scene (connected watcher state fd) below socket := by
  rw [connected_eq]
  apply sound_of_going undecided going
  · cases state.attached <;> cases watcher.onConnected <;> simp
  · exact standing_of_callBack rfl rfl resting watcher.onConnected
  · cases state.attached <;> cases watcher.onConnected <;>
      simp [Action.Outcome]
  · intro _ _
    exact established

theorem rest_sound
    (standing : Standing scene.config.store socket
      (Decided scene.config.log) below)
    (settled : Decided scene.config.log →
      scene.socket = .connected → socket = .connected) :
    Sound scene (.rest scene.config.store) below socket := by
  apply sound_of_silent standing _ settled id <;> simp

theorem await_sound {state : State} {point : Point}
    (undecided : ¬ Decided scene.config.log)
    (going : scene.config.store.canceled = false)
    (standing : Standing state socket False (.code point :: below)) :
    Sound scene (.await state point) below socket := by
  apply sound_of_going undecided going
  · simp
  · simpa using standing
  · simp
  · simp

theorem stop_standing {decided : Prop}
    {config : Config State Point Action} {state : State}
    (standing : Standing config.store socket decided config.stack)
    (ready : ∀ frame ∈ config.stack.head?, frame = .user)
    (same : state.attached = config.store.attached ∧
      state.fd = config.store.fd) :
    Standing (stop state).1 socket decided config.stack := by
  generalize config.stack = stack at standing ready
  cases standing with
  | outside attachment =>
      apply standing_of_released _ (stop_attached state) (.inl rfl)
      rw [stop_fd, same.1, same.2]
      split
      · rfl
      · next unattached => simpa [unattached] using attachment.symm
  | inCallback resting released unattached =>
      refine .inCallback resting ?_ (stop_attached state)
      simp [stop_fd, same.2, released]
  | _ => cases ready _ rfl

theorem stop_silent {state : State} {action : Action}
    (member : action ∈ (stop state).2) :
    (¬ action.Acts ∧ action ≠ .started) ∧ action ≠ .cancelReturned := by
  rcases of_mem_stop member with rfl | ⟨fd, rfl⟩ <;> simp [Action.Acts]

theorem call_sound {request : Request} (inv : Inv scene)
    (ready : ∀ frame ∈ scene.config.stack.head?, frame = .user)
    (notStart : request ≠ .start) :
    Sound scene (call watcher scene.config.store request)
      scene.config.stack scene.socket := by
  cases request with
  | start => exact absurd rfl notStart
  | stop =>
      apply sound_of_silent
      · exact stop_standing inv.standing ready ⟨rfl, rfl⟩
      · simpa [call] using fun action member => (stop_silent member).1
      · exact fun _ => id
      · simp [call]
      · intro member
        simp only [call, Turn.preceded_emitted, Turn.rest_emitted,
          List.append_nil] at member
        exact absurd rfl (stop_silent member).2
  | cancel =>
      cases canceled : scene.config.store.canceled with
      | true =>
          simp only [call, cancel, canceled, if_true]
          apply sound_of_silent
          · have standing := inv.standing
            simpa using standing
          · simp [Action.Acts]
          · exact fun _ => id
          · exact fun _ => canceled
          · exact fun _ => canceled
      | false =>
          simp only [call, cancel, canceled, Bool.false_eq_true, if_false]
          apply sound_of_silent
          · exact stop_standing inv.standing ready ⟨rfl, rfl⟩
          · intro action member
            simp only [Turn.preceded_emitted, Turn.rest_emitted,
              List.append_nil, List.mem_append, List.mem_singleton] at member
            cases member with
            | inl stops => exact (stop_silent stops).1
            | inr isReturn => simp [isReturn, Action.Acts]
          · exact fun _ => id
          · simp
          · simp

theorem onReady_sound {events : Events} (inv : Inv scene)
    (outside : scene.config.stack = [])
    (completed : scene.socket ≠ .connecting) :
    Sound scene (onReady scene.config.store events) [] scene.socket := by
  have standing := inv.standing
  rw [outside] at standing
  cases standing with
  | outside attachment live =>
      have idle : Sound scene (.rest scene.config.store) [] scene.socket :=
        rest_sound (.outside attachment live) fun _ => id
      unfold onReady checkConnectResult
      split
      · exact idle
      · split
        · split
          · exact idle
          · next isOpen =>
              simp only [not_or, Bool.not_eq_true, ← Option.isSome_iff_ne_none]
                at isOpen
              obtain ⟨undecided, going, connected⟩ := live isOpen.2
              apply await_sound undecided going
              exact .checking isOpen.2 (attachment.trans isOpen.2) id going
                ⟨connected, completed⟩
        · exact idle

theorem resume_sound {point : Point} {input : Input} (inv : Inv scene)
    (shape : scene.config.stack = .code point :: below)
    (failsAttached : input.Fails → scene.config.store.attached)
    (answered : scene.answers (.resume input) = some socket)
    (resumed : resume watcher scene.config.store point input = some turn) :
    Sound scene turn below socket := by
  have standing := inv.standing
  rw [shape] at standing
  cases standing with
  | opening fd detached undecided going =>
      cases input <;> simp only [resume, reduceCtorEq] at resumed
      case socket result =>
        cases result with
        | opened descriptor =>
            cases resumed
            apply await_sound undecided going
            exact .preparing (.inl ⟨_, rfl⟩) rfl detached id going
        | failed errno =>
            cases resumed
            refine fail_sound undecided ?_ ?_ ?_ (.inr (.inl rfl)) errno
            · exact going
            · rfl
            · exact detached
  | preparing kind fd detached undecided going =>
      have noFail : ¬ input.Fails := by
        intro fails
        rw [failsAttached fails] at detached
        cases detached
      have onward : Standing scene.config.store socket
          (Decided scene.config.log) [.code .afterCreate] :=
        .created detached fun _ => ⟨undecided, going⟩
      have undisturbed : Decided scene.config.log →
          scene.socket = .connected → socket = .connected :=
        fun decided => absurd decided undecided
      rcases kind with ⟨family, rfl⟩ | rfl
      · cases input <;> simp only [resume, reduceCtorEq] at resumed
        case nonBlocking result =>
          cases result with
          | failed errno => exact absurd trivial noFail
          | ok =>
              cases resumed
              rw [bindLocal_eq]
              split
              · apply await_sound undecided going
                exact .preparing (.inr rfl) fd detached id going
              · exact rest_sound onward undisturbed
      · cases input <;> simp only [resume, reduceCtorEq] at resumed
        case bind result =>
          cases result with
          | failed errno => exact absurd trivial noFail
          | ok =>
              cases resumed
              exact rest_sound onward undisturbed
  | created detached live =>
      cases input <;> simp only [resume, reduceCtorEq] at resumed
      cases answered
      cases fd : scene.config.store.fd with
      | none =>
          rw [fd] at resumed
          cases resumed
          exact rest_sound (standing_of_released fd detached (.inl rfl))
            fun _ => id
      | some descriptor =>
          obtain ⟨undecided, going⟩ := live (by simp [fd])
          rw [fd] at resumed
          cases resumed
          rw [startConnect_eq]
          apply sound_of_going undecided going
          · simp
          · exact .connecting (by simp [fd]) detached
              (by simp [Action.Outcome]) going
          · simp
          · simp
  | connecting fd detached undecided going =>
      cases input <;> simp only [resume, reduceCtorEq] at resumed
      case connect result =>
        cases result with
        | ok =>
            cases answered
            cases resumed
            rw [checkConnectResult, if_neg (by
              simp [going, Option.isSome_iff_ne_none.mp fd])]
            apply await_sound undecided going
            exact .checkingAtOnce fd detached id going rfl
        | failed errno =>
            cases answered
            by_cases inProgress : errno = Errno.einprogress
            · simp only [inProgress, if_true] at resumed ⊢
              cases resumed
              exact rest_sound
                (.tried detached fun _ => ⟨undecided, going, by simp⟩)
                fun decided => absurd decided undecided
            · rw [failsAttached inProgress] at detached
              cases detached
  | checkingAtOnce fd detached undecided going established =>
      have noFail : ¬ input.Fails := by
        intro fails
        rw [failsAttached fails] at detached
        cases detached
      cases input <;> simp only [resume, reduceCtorEq] at resumed
      case socketError answer =>
        cases answer with
        | failed errno => exact absurd trivial noFail
        | pending err =>
            obtain ⟨descriptor, isFd⟩ := Option.isSome_iff_exists.mp fd
            have success : err = 0 := not_not.mp noFail
            simp only [isFd, success, ne_eq, not_true_eq_false, if_false]
              at resumed
            cases resumed
            simp only [Scene.answers, established] at answered
            cases answered
            exact connected_sound undecided going rfl (.inr (.inr rfl)) _
  | tried detached live =>
      cases input <;> simp only [resume, reduceCtorEq] at resumed
      cases answered
      cases fd : scene.config.store.fd with
      | none =>
          rw [fd] at resumed
          cases resumed
          exact rest_sound (standing_of_released fd detached (.inl rfl))
            fun _ => id
      | some descriptor =>
          obtain ⟨undecided, going, tried⟩ := live (by simp [fd])
          rw [fd] at resumed
          cases resumed
          apply sound_of_going undecided going
          · simp
          · exact .outside (by simp) fun _ =>
              ⟨by simp [Action.Outcome], going, tried⟩
          · simp
          · simp
  | checking fd attached undecided going completed =>
      have attachment := attached.trans fd.symm
      cases input <;> simp only [resume, reduceCtorEq] at resumed
      case socketError answer =>
        cases answer with
        | failed errno =>
            cases resumed
            exact fail_sound undecided going rfl attachment (.inl rfl) errno
        | pending err =>
            obtain ⟨descriptor, isFd⟩ := Option.isSome_iff_exists.mp fd
            simp only [isFd] at resumed
            split at resumed
            · cases resumed
              exact fail_sound undecided going rfl attachment (.inl rfl) err
            · next success =>
                cases resumed
                have established : socket = .connected := by
                  have caused := inv.caused
                  have success : err = 0 := not_not.mp success
                  cases state : scene.socket with
                  | unconnected => exact absurd state completed.1
                  | connecting => exact absurd state completed.2
                  | connected =>
                      simpa [Scene.answers, state] using answered.symm
                  | refused cause =>
                      simp only [Scene.answers, state, success,
                        Option.ite_none_right_eq_some] at answered
                      rw [state, ← answered.1] at caused
                      exact absurd rfl caused
                exact connected_sound undecided going established (.inl rfl) _

end Turns

section Run

variable {watcher : TcpConnectWatcher} {scene after : Scene}

theorem caused_of_answers {input : Input} {socket : Socket}
    (caused : scene.socket ≠ .refused 0)
    (answered : scene.answers (.resume input) = some socket) :
    socket ≠ .refused 0 := by
  unfold Scene.answers at answered
  split at answered
  case h_5 =>
      cases answered
      split <;> simp
  case h_6 =>
      split at answered
      · simp only [Option.ite_none_right_eq_some, Option.some.injEq]
          at answered
        simp [← answered.2]
      · cases answered
        exact caused
  all_goals simp_all
  all_goals simp [← answered]

theorem start_inv {config : Config State Point Action} (inv : Inv scene)
    (outside : scene.config.stack = [])
    (stepped : (program watcher).step scene.config (.call .start) =
      some config) : Inv ⟨config, scene.socket⟩ := by
  have standing := inv.standing
  simp only [outside] at standing
  simp only [Program.step, outside, program, call, Option.map_some,
    Option.some.injEq] at stepped
  subst stepped
  cases standing with
  | outside attachment live =>
      unfold start
      split
      · have idle : Sound scene (.rest scene.config.store) [] scene.socket :=
          rest_sound (.outside attachment live) fun _ => id
        exact inv.take idle inv.caused
      · next fresh =>
          simp only [not_or, Bool.not_eq_true] at fresh
          obtain ⟨family, creates⟩ := createSocket_eq watcher scene.config.store
          rw [creates]
          have new : sinceStart (scene.config.log ++ [Action.started]) = [] :=
            sinceStart_started _
          have fd : scene.config.store.fd = none := by
            simpa [fresh.1] using attachment.symm
          constructor
          · refine .opening fd fresh.1 ?_ fresh.2
            simp [Decided, Config.take, new]
          · exact inv.caused
          · simp [Config.take, new]
          · simp [Config.take, new]
          · exact inv.silenced.take _ {
              staysQuiet := id
              silent := by simp [Action.Disturbs]
              quiets := by simp
              ordered := by simp }

theorem code_inv {label : Label Request Events Input} {socket : Socket}
    {config : Config State Point Action} (inv : Inv scene)
    (guarded : FailsAttached scene (.code label))
    (answered : scene.answers label = some socket)
    (stepped : (program watcher).step scene.config label = some config) :
    Inv ⟨config, socket⟩ := by
  cases Program.step_cases stepped with
  | inl taken =>
      obtain ⟨turn, below, takes, rfl⟩ := taken
      cases takes with
      | call ready called =>
          rename_i request
          cases isStart : decide (request = .start) with
          | true =>
              obtain rfl := of_decide_eq_true isStart
              simp only [Scene.answers, Option.ite_none_right_eq_some,
                Option.some.injEq] at answered
              obtain ⟨outside, rfl⟩ := answered
              exact start_inv inv outside stepped
          | false =>
              have notStart := of_decide_eq_false isStart
              cases called
              have same : socket = scene.socket := by
                cases request with
                | start => exact absurd rfl notStart
                | stop | cancel => exact (Option.some.inj answered).symm
              rw [same]
              exact inv.take (call_sound inv ready notStart) inv.caused
      | ready outside readied =>
          cases readied
          simp only [Scene.answers, Option.ite_none_right_eq_some,
            Option.some.injEq] at answered
          obtain ⟨⟨-, completed⟩, rfl⟩ := answered
          exact inv.take (onReady_sound inv outside completed) inv.caused
      | resume shape resumed =>
          exact inv.take (resume_sound inv shape guarded answered resumed)
            (caused_of_answers inv.caused answered)
  | inr left =>
      obtain ⟨rfl, below, shape, rfl⟩ := left
      cases answered
      have standing := inv.standing
      rw [shape] at standing
      cases standing with
      | inCallback resting fd detached =>
          exact ⟨standing_of_released fd detached resting, inv.caused,
            inv.ordered, inv.genuine, inv.silenced.leave below⟩

theorem step_inv {label : SceneLabel} (inv : Inv scene)
    (guarded : FailsAttached scene label)
    (stepped : scene.step watcher label = some after) : Inv after := by
  cases label with
  | complete err =>
      simp only [Scene.step, Option.ite_none_right_eq_some,
        Option.some.injEq] at stepped
      obtain ⟨connecting, rfl⟩ := stepped
      have standing := inv.standing
      rw [connecting] at standing
      constructor
      · exact standing.completed (by split <;> simp)
      · show (if err = 0 then Socket.connected else .refused err) ≠ _
        split <;> simp_all
      · exact inv.ordered
      · intro fd member
        have genuine := inv.genuine fd member
        rw [connecting] at genuine
        cases genuine
      · exact inv.silenced
  | stale events =>
      simp only [Scene.step, Option.ite_none_right_eq_some,
        Option.map_eq_some_iff] at stepped
      obtain ⟨-, config, stepped, rfl⟩ := stepped
      cases Program.step_cases stepped with
      | inr left => cases left.1
      | inl taken =>
          obtain ⟨turn, below, takes, rfl⟩ := taken
          cases takes with
          | ready outside readied =>
              cases readied
              exact inv.take (onReady_sound inv outside guarded) inv.caused
  | code label =>
      simp only [Scene.step, Option.bind_eq_some_iff,
        Option.map_eq_some_iff] at stepped
      obtain ⟨socket, answered, config, stepped, rfl⟩ := stepped
      exact code_inv inv guarded answered stepped

theorem outcomeUnique_of_inv (inv : Inv scene) : OutcomeUnique scene where
  once := by
    apply countP_le_one
    apply inv.ordered.imp
    intro earlier later inOrder isOutcome isAgain
    exact inOrder (of_decide_eq_true isOutcome)
      (Action.acts_of_outcome (of_decide_eq_true isAgain))
  genuine := inv.genuine
  idleAfterError := by
    apply inv.ordered.imp
    intro earlier later inOrder isError
    obtain ⟨err, rfl⟩ := isError
    exact inOrder trivial
  released err member := inv.standing.released (.inl ⟨_, member, trivial⟩)
  quietAfterCancel := inv.silenced.ordered
  detachedAfterCancel member :=
    (inv.standing.released
      (.inr (inv.silenced.quietOnceEnded _ member rfl))).1

theorem inv_of_reachable
    (reached : (sceneSystem watcher).ReachableUnder FailsAttached scene) :
    Inv scene := by
  apply reached.invariant Inv
  · rintro ⟨⟨store, stack, log⟩, socket⟩ ⟨⟨rfl, rfl, rfl⟩, rfl⟩
    constructor
    · exact .outside rfl (by simp)
    · simp
    · exact .nil
    · simp [sinceStart, since]
    · constructor <;> simp
  · intro scene label after inv guarded stepped
    exact step_inv inv guarded stepped

/-- As long as `fail` is entered with the source attached, or without a
descriptor, and no stale event meets a connect in progress, every `start` has
at most one outcome, the true one, and nothing follows an error or a
`cancel`. -/
theorem outcome_unique_of_failsAttached
    (reached : (sceneSystem watcher).ReachableUnder FailsAttached scene) :
    OutcomeUnique scene :=
  outcomeUnique_of_inv (inv_of_reachable reached)

theorem turn_of_fails {state : State} {point : Point} {input : Input}
    {turn : Turn} (fails : input.Fails)
    (resumed : resume watcher state point input = some turn) :
    (∃ err, turn = fail watcher state err) ∧ point ≠ .afterCreate ∧
      point ≠ .afterConnect ∧ ∀ family, point ≠ .socketCall family := by
  unfold resume at resumed
  split at resumed
  case h_4 | h_6 | h_11 =>
      cases resumed
      exact ⟨⟨_, rfl⟩, by simp⟩
  case h_9 =>
      rw [if_neg (by exact fails)] at resumed
      cases resumed
      exact ⟨⟨_, rfl⟩, by simp⟩
  case h_12 =>
      split at resumed
      · cases resumed
      · rw [if_pos (by exact fails)] at resumed
        cases resumed
        exact ⟨⟨_, rfl⟩, by simp⟩
  case h_13 => cases resumed
  all_goals cases fails

/-- The first failure outside the condition keeps the descriptor of a `start`
whose `on_error_` it calls. -/
theorem outcome_broken_of_failsDetached {input : Input}
    (reached : (sceneSystem watcher).ReachableUnder FailsAttached scene)
    (fails : input.Fails) (detached : scene.config.store.attached = false)
    (present : watcher.onError = true)
    (stepped : scene.step watcher (.code (.resume input)) = some after) :
    ¬ OutcomeUnique after := by
  have inv := inv_of_reachable reached
  simp only [Scene.step, Option.bind_eq_some_iff,
    Option.map_eq_some_iff] at stepped
  obtain ⟨socket, answered, config, stepped, rfl⟩ := stepped
  cases Program.step_cases stepped with
  | inr left => cases left.1
  | inl taken =>
      obtain ⟨turn, below, takes, rfl⟩ := taken
      cases takes with
      | resume shape resumed =>
          obtain ⟨fd, going, err, rfl⟩ :
              scene.config.store.fd.isSome ∧
                scene.config.store.canceled = false ∧
                ∃ err, turn = fail watcher scene.config.store err := by
            obtain ⟨isFail, notCreated, notTried, notOpening⟩ :=
              turn_of_fails fails resumed
            have standing := inv.standing
            rw [shape] at standing
            cases standing with
            | preparing _ fd _ _ going | connecting fd _ _ going
            | checkingAtOnce fd _ _ going => exact ⟨fd, going, isFail⟩
            | checking _ attached => simp [attached] at detached
            | opening => exact absurd rfl (notOpening _)
            | created => exact absurd rfl notCreated
            | tried => exact absurd rfl notTried
          intro unique
          have released := unique.released err
          simp only [Config.take, fail, stop, detached, going, present,
            Bool.false_eq_true, if_false] at released
          rw [sinceStart_append] at released
          · have freed : scene.config.store.fd = none :=
              (released (by simp)).2
            rw [freed] at fd
            cases fd
          · simp

end Run

def sampleRemote : IpEndpoint := .v4 loopback 80

def sampleWatcher : TcpConnectWatcher :=
  epollTcpConnectWatcher sampleRemote {} true true

def sampleScene : Scene := ⟨⟨{}, [], []⟩, .unconnected⟩

def cancelInsideConnected : List SceneLabel :=
  [.code (.call .start), .code (.resume (.socket (.opened 5))),
    .code (.resume (.nonBlocking .ok)), .code (.resume .proceed),
    .code (.resume (.connect (.failed Errno.einprogress))),
    .code (.resume .proceed), .complete 0,
    .code (.ready { writable := true }),
    .code (.resume (.socketError (.pending 0))), .code (.call .cancel),
    .code .leave]

theorem outcome_unique_of_failsAttached_cancelInsideConnected :
    ∃ scene : Scene, .onConnected 5 ∈ scene.config.log ∧
      .cancelReturned ∈ scene.config.log ∧ OutcomeUnique scene := by
  have run : ((sceneSystem sampleWatcher).replay sampleScene
      cancelInsideConnected).map (fun scene => decide
        (.onConnected 5 ∈ scene.config.log ∧
          .cancelReturned ∈ scene.config.log)) = some true := by
    decide +kernel
  have guarded : (sceneSystem sampleWatcher).Follows FailsAttached
      sampleScene cancelInsideConnected := by decide +kernel
  obtain ⟨scene, ends, found⟩ := Option.map_eq_some_iff.mp run
  obtain ⟨connected, canceled⟩ := of_decide_eq_true found
  exact ⟨scene, connected, canceled, outcome_unique_of_failsAttached
    (System.ReachableUnder.replay cancelInsideConnected
      (.start ⟨⟨rfl, rfl, rfl⟩, rfl⟩) guarded ends)⟩

/-- `connect` is refused at once, and the socket, which was never connected,
reports OUT and HUP. -/
def refusedAtOnce : List SceneLabel :=
  [.code (.call .start), .code (.resume (.socket (.opened 5))),
    .code (.resume (.nonBlocking .ok)), .code (.resume .proceed),
    .code (.resume (.connect (.failed 111))), .code .leave,
    .code (.resume .proceed),
    .code (.ready { writable := true, hangUp := true }),
    .code (.resume (.socketError (.pending 0)))]

theorem refusedAtOnce_two_outcomes :
    ¬ ∀ scene, (sceneSystem sampleWatcher).Reachable scene →
      OutcomeUnique scene := by
  have run : ((sceneSystem sampleWatcher).replay sampleScene
      refusedAtOnce).map (·.config.log) =
        some [.started, .connect, .onError 111,
          .attachSource 5 { writable := true, error := true, hangUp := true },
          .detachSource, .onConnected 5] := by
    decide +kernel
  obtain ⟨scene, ends, log⟩ := Option.map_eq_some_iff.mp run
  intro claimed
  have once := (claimed scene (System.Reachable.replay refusedAtOnce
    (.start ⟨⟨rfl, rfl, rfl⟩, rfl⟩) ends)).once
  rw [log] at once
  revert once
  decide

end RopHive.Network.Connect
