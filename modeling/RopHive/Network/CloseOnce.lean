import RopHive.Network.Connection

namespace RopHive.Network.Connection

open Transition

variable (watcher : TcpConnectionWatcher)

def Action.CallsBack : Action → Prop
  | .onRecv _ | .onError _ | .onClose | .onSendReady => True
  | _ => False

instance (action : Action) : Decidable action.CallsBack := by
  cases action <;> unfold Action.CallsBack <;> infer_instance

/-- `on_close_` is called at most once, and no callback after it. -/
def ClosesOnceAndLast (log : List Action) : Prop :=
  log.count .onClose ≤ 1 ∧
    log.Pairwise fun earlier later => earlier = .onClose → ¬ later.CallsBack

/-- The points after a callback at which the code does not look at `closed_`
and calls the user once more. -/
def CallsOnceMore (state : State) : Point → Prop
  | .readLoop _ => watcher.callbacks.onError = true
  | .afterRead writable =>
      writable = true ∧ state.wantSendReady = true ∧
        state.peerClosed = false ∧ watcher.callbacks.onSendReady = true
  | _ => False

instance (state : State) (point : Point) :
    Decidable (CallsOnceMore watcher state point) := by
  cases point <;> unfold CallsOnceMore <;> infer_instance

/-- The code is about to go on with `handleRead` or `onReady` as if the
callback it comes from had not closed the watcher. -/
def GoesOnClosed (config : Config State Point Action) : Prop :=
  config.store.closed = true ∧ watcher.callbacks.onClose = true ∧
    match config.stack with
    | .code point :: _ => CallsOnceMore watcher config.store point
    | _ => False

instance (config : Config State Point Action) :
    Decidable (GoesOnClosed watcher config) := by
  unfold GoesOnClosed
  cases config.stack with
  | nil => infer_instance
  | cons frame below => cases frame <;> infer_instance

section Step

def Hung (state : State) : Prop :=
  state.closed = true ∧ watcher.callbacks.onClose = true

def Pinned : Point → Prop
  | .sendLoop _ _ _ | .socketError => True
  | _ => False

abbrev Discreet (before : State) (turn : Turn) : Prop :=
  turn.Discreet (· = Action.onClose) Action.CallsBack (Hung watcher) before

structure Polite (before : State) (turn : Turn) : Prop where
  shut : turn.store.closed → turn.store.fd = none
  pins : PinnedTop Pinned (turn.store.closed = false) turn.push
  announces : Hung watcher turn.store →
    Hung watcher before ∨ Action.onClose ∈ turn.emitted
  discreet : Discreet watcher before turn

variable {watcher} {state : State} {turn : Turn}

theorem polite_of_same (shut : state.closed → state.fd = none)
    (closed : turn.store.closed = state.closed)
    (fd : turn.store.fd = state.fd)
    (pins : PinnedTop Pinned (state.closed = false) turn.push)
    (noClose : Action.onClose ∉ turn.emitted)
    (quiet : Hung watcher state →
      ∀ action ∈ turn.emitted, ¬ action.CallsBack) :
    Polite watcher state turn where
  shut := by rw [closed, fd]; exact shut
  pins := by rw [closed]; exact pins
  announces hung := .inl ⟨closed ▸ hung.1, hung.2⟩
  discreet := {
    staysQuiet := fun hung => ⟨closed.trans hung.1, hung.2⟩
    silent := quiet
    quiets := fun action member isClose => absurd (isClose ▸ member) noClose
    ordered := by
      apply List.pairwise_of_forall_mem_list
      intro earlier member later _ isClose
      exact absurd (isClose ▸ member) noClose }

theorem Polite.andThen {frames : List (Frame Point)}
    (polite : Polite watcher state turn)
    (plain : ∀ point, .code point ∈ frames → ¬ Pinned point) :
    Polite watcher state (turn.andThen frames) where
  shut := polite.shut
  pins := polite.pins.append plain
  announces := polite.announces
  discreet := polite.discreet.andThen frames

theorem closeNow_polite (shut : state.closed → state.fd = none) :
    Polite watcher state (closeNow watcher state) := by
  cases closed : state.closed with
  | true =>
      rw [closeNow_of_closed watcher closed]
      apply polite_of_same shut rfl rfl
      · trivial
      · simp
      · simp
  | false =>
      rw [closeNow_of_open watcher closed]
      constructor
      · simp
      · cases watcher.callbacks.onClose <;> simp [PinnedTop]
      · intro hung
        simp [hung.2]
      · cases onClose : watcher.callbacks.onClose <;>
          cases state.attached <;> cases state.fd <;>
          constructor <;>
          simp [Hung, closed, closeFd, Action.CallsBack, onClose]

theorem call_polite (shut : state.closed → state.fd = none)
    (request : Request) :
    Polite watcher state (call watcher state request) := by
  cases request with
  | close => exact closeNow_polite shut
  | start | stop | shutdownWrite =>
      apply polite_of_same shut <;>
        grind -linarith [call, start, stop, PinnedTop, Action.CallsBack]
  | trySend data =>
      -- the loop is entered with an open descriptor only
      apply polite_of_same shut <;>
        grind -linarith [call, trySend, sendWhile, PinnedTop, Pinned,
          Action.CallsBack]

theorem onReady_polite (shut : state.closed → state.fd = none)
    (events : Events) :
    Polite watcher state (onReady watcher state events) := by
  apply polite_of_same shut <;>
    grind -linarith [onReady, noticeHangUp, handleRead, PinnedTop, Pinned]

theorem sendAnswered_polite (isOpen : state.closed = false)
    {data : List Byte} {limit total : Nat} {result : SendResult}
    (answered : sendAnswered watcher state data limit total result =
      some turn) : Polite watcher state turn := by
  have shut : state.closed → state.fd = none := by simp [isOpen]
  apply polite_of_same shut <;> cases result <;>
    grind -linarith [sendAnswered, sendWhile, sendError, armWritable, rearm,
      PinnedTop, Pinned, Hung]

theorem recvAnswered_polite (shut : state.closed → state.fd = none)
    {remaining : Nat} {result : RecvResult}
    (guarded : Hung watcher state → watcher.callbacks.onError = false)
    (answered : recvAnswered watcher state remaining result = some turn) :
    Polite watcher state turn := by
  apply polite_of_same shut <;> cases result <;>
    grind -linarith [recvAnswered, handleRead, PinnedTop, Pinned, Hung]

theorem afterRead_polite (shut : state.closed → state.fd = none)
    {writable : Bool}
    (guarded : Hung watcher state →
      ¬ CallsOnceMore watcher state (.afterRead writable)) :
    Polite watcher state (afterRead watcher state writable) := by
  unfold afterRead
  split
  · exact closeNow_polite shut
  · apply polite_of_same shut <;>
      grind -linarith [disarmWritable, rearm, PinnedTop, Hung, CallsOnceMore,
        Action.CallsBack]

theorem resume_polite (shut : state.closed → state.fd = none)
    {point : Point} {input : Input}
    (isOpen : Pinned point → state.closed = false)
    (guarded : Hung watcher state → ¬ CallsOnceMore watcher state point)
    (resumed : resume watcher state point input = some turn) :
    Polite watcher state turn := by
  unfold resume at resumed
  split at resumed
  case h_1 => exact sendAnswered_polite (isOpen trivial) resumed
  case h_2 =>
      cases resumed
      exact (closeNow_polite shut).andThen (by simp [Pinned])
  case h_3 =>
      cases resumed
      apply polite_of_same shut <;> simp [PinnedTop, Action.CallsBack]
  case h_4 =>
      cases resumed
      have isOpen := isOpen trivial
      apply polite_of_same shut <;> grind -linarith [PinnedTop, Pinned, Hung]
  case h_5 | h_7 =>
      cases resumed
      exact closeNow_polite shut
  case h_6 =>
      apply recvAnswered_polite shut ?_ resumed
      intro hung
      simpa [CallsOnceMore] using guarded hung
  case h_8 =>
      cases resumed
      exact afterRead_polite shut guarded
  case h_9 => simp at resumed

end Step

section Run

structure Inv (config : Config State Point Action) : Prop where
  shut : config.store.closed → config.store.fd = none
  pins : PinnedTop Pinned (config.store.closed = false) config.stack
  announced : Hung watcher config.store → Action.onClose ∈ config.log
  silenced : config.Silenced (· = Action.onClose) Action.CallsBack
    (Hung watcher)

variable {watcher}

theorem takes_polite {config : Config State Point Action}
    {label : Label Request Events Input} {turn : Turn}
    {below : List (Frame Point)} (inv : Inv watcher config)
    (guarded : ¬ GoesOnClosed watcher config)
    (takes : (program watcher).Takes config label turn below) :
    Polite watcher config.store turn := by
  cases takes with
  | call _ called =>
      cases called
      exact call_polite inv.shut _
  | ready _ readied =>
      cases readied
      exact onReady_polite inv.shut _
  | resume shape resumed =>
      have pins := inv.pins
      rw [shape] at pins
      apply resume_polite inv.shut (pins.1 _ rfl) ?_ resumed
      intro hung callsOnceMore
      apply guarded
      rw [GoesOnClosed, shape]
      exact ⟨hung.1, hung.2, callsOnceMore⟩

theorem step_inv {config after : Config State Point Action}
    {label : Label Request Events Input} (inv : Inv watcher config)
    (guarded : ¬ GoesOnClosed watcher config)
    (stepped : (program watcher).step config label = some after) :
    Inv watcher after := by
  cases Program.step_cases stepped with
  | inl taken =>
      obtain ⟨turn, below, takes, rfl⟩ := taken
      have polite := takes_polite inv guarded takes
      constructor
      · exact polite.shut
      · exact inv.pins.take (·.closed = false) takes polite.pins
      · intro hung
        cases polite.announces hung with
        | inl before =>
            exact List.mem_append_left _ (inv.announced before)
        | inr now => exact List.mem_append_right _ now
      · exact inv.silenced.take below polite.discreet
  | inr left =>
      obtain ⟨-, below, shape, rfl⟩ := left
      exact ⟨inv.shut, inv.pins.leave shape, inv.announced,
        inv.silenced.leave below⟩

theorem inv_of_reachable {config : Config State Point Action}
    (reached : (system watcher).ReachableUnder
      (fun config _ => ¬ GoesOnClosed watcher config) config) :
    Inv watcher config := by
  apply reached.invariant (Inv watcher)
  · rintro state ⟨⟨fd, store⟩, stack, log⟩
    constructor
    · simp [store]
    · simp [stack, PinnedTop]
    · simp [Hung, store]
    · constructor <;> simp [log]
  · intro state label after inv guarded stepped
    exact step_inv inv guarded stepped

/-- In every run in which the code never goes on as if open after a callback
that closed the watcher, `on_close_` is called at most once and no callback
follows it. -/
theorem closes_once_and_last_of_not_goesOnClosed
    {config : Config State Point Action}
    (reached : (system watcher).ReachableUnder
      (fun config _ => ¬ GoesOnClosed watcher config) config) :
    ClosesOnceAndLast config.log := by
  have inv := inv_of_reachable reached
  exact ⟨inv.silenced.count_le_one rfl trivial, inv.silenced.ordered⟩

theorem resume_calls_back {state : State} {point : Point} {input : Input}
    {turn : Turn} (shut : state.fd = none)
    (callsOnceMore : CallsOnceMore watcher state point)
    (resumed : resume watcher state point input = some turn) :
    ∃ action ∈ turn.emitted, action.CallsBack := by
  unfold resume at resumed
  split at resumed
  case h_6 remaining result =>
      -- `recv` on the descriptor -1 fails with `EBADF`
      cases result with
      | received chunk => simp [recvAnswered, shut] at resumed
      | endOfStream => simp [recvAnswered, shut] at resumed
      | failed errno =>
          simp only [recvAnswered, shut, Option.isSome_none,
            Bool.false_eq_true, false_or, Option.ite_none_right_eq_some]
            at resumed
          obtain ⟨rfl, resumed⟩ := resumed
          cases resumed
          exact ⟨.onError Errno.ebadf, by
            simp only [CallsOnceMore] at callsOnceMore
            simp [callsOnceMore], trivial⟩
  case h_8 writable =>
      cases resumed
      obtain ⟨isWritable, wanted, peerOpen, present⟩ := callsOnceMore
      exact ⟨.onSendReady, by
        simp [afterRead, isWritable, wanted, peerOpen, present], trivial⟩
  case h_9 => simp at resumed
  all_goals simp [CallsOnceMore] at callsOnceMore

/-- The condition leaves out nothing else: the first run that breaks it calls
the user after `on_close_` as soon as the code goes on. -/
theorem calls_after_close_of_goesOnClosed
    {config after : Config State Point Action} {input : Input}
    (reached : (system watcher).ReachableUnder
      (fun config _ => ¬ GoesOnClosed watcher config) config)
    (goesOn : GoesOnClosed watcher config)
    (stepped : (program watcher).step config (.resume input) =
      some after) :
    ¬ ClosesOnceAndLast after.log := by
  have inv := inv_of_reachable reached
  obtain ⟨closed, present, atPoint⟩ := goesOn
  have announced := inv.announced ⟨closed, present⟩
  cases Program.step_cases stepped with
  | inr left => cases left.1
  | inl taken =>
      obtain ⟨turn, below, takes, rfl⟩ := taken
      cases takes with
      | resume shape resumed =>
          rw [shape] at atPoint
          obtain ⟨action, member, callsBack⟩ :=
            resume_calls_back (inv.shut closed) atPoint resumed
          intro inOrder
          exact (List.pairwise_append.mp inOrder.2).2.2 _ announced _ member
            rfl callsBack

end Run

def sampleWatcher : TcpConnectionWatcher :=
  epollTcpConnectionWatcher {} ⟨true, true, true, true⟩

def sampleState : State := { fd := some 5, armedEvents := interest .epoll }

theorem sampleState_fresh :
    (system sampleWatcher).initial ⟨sampleState, [], []⟩ :=
  ⟨⟨some 5, rfl⟩, rfl, rfl⟩

/-- `on_error_`, called by `trySend`, closes the watcher. -/
def closeInsideSendError : List (Label Request Events Input) :=
  [.call .start, .ready { readable := true, writable := true },
    .resume (.recv (.failed Errno.eagain)), .resume .proceed,
    .call (.trySend [1, 2]), .resume (.send (.accepted 1)),
    .resume (.send .nothing), .call .close, .leave, .leave,
    .resume .proceed, .resume .proceed]

theorem closes_once_and_last_of_not_goesOnClosed_closeInsideSendError :
    ∃ config : Config State Point Action,
      .returned { n := 1, err := Errno.eio } ∈ config.log ∧
        ClosesOnceAndLast config.log := by
  have run : ((system sampleWatcher).replay ⟨sampleState, [], []⟩
      closeInsideSendError).map (fun config => decide
        (.returned { n := 1, err := Errno.eio } ∈ config.log)) =
          some true := by
    decide +kernel
  have guarded : (system sampleWatcher).Follows
      (fun config _ => ¬ GoesOnClosed sampleWatcher config)
      ⟨sampleState, [], []⟩ closeInsideSendError := by decide +kernel
  obtain ⟨config, ends, found⟩ := Option.map_eq_some_iff.mp run
  exact ⟨config, of_decide_eq_true found,
    closes_once_and_last_of_not_goesOnClosed
      (System.ReachableUnder.replay closeInsideSendError
        (.start sampleState_fresh) guarded ends)⟩

/-- `on_recv_` closes the watcher with much of the cap left to read. -/
def closeInsideRecv : List (Label Request Events Input) :=
  [.call .start, .ready { readable := true },
    .resume (.recv (.received [7])), .call .close, .leave, .leave,
    .resume (.recv (.failed Errno.ebadf))]

theorem closeInsideRecv_calls_after_close :
    ¬ ∀ config, (system sampleWatcher).Reachable config →
      ClosesOnceAndLast config.log := by
  have run : ((system sampleWatcher).replay ⟨sampleState, [], []⟩
      closeInsideRecv).map (·.log) =
        some [.attachSource, .started, .onRecv [7], .detachSource, .stopped,
          .closeFd 5, .onClose, .onError Errno.ebadf] := by
    decide +kernel
  obtain ⟨config, ends, log⟩ := Option.map_eq_some_iff.mp run
  intro claimed
  have ordered := (claimed config
    (System.Reachable.replay closeInsideRecv (.start sampleState_fresh)
      ends)).2
  rw [log] at ordered
  simp [Action.CallsBack] at ordered

end RopHive.Network.Connection
