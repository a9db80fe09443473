import RopHive.Network.IocpFlags

namespace RopHive.Network.IocpConnection

open Transition
open RopHive.Schedule (IocpLoop PendingOp)

/-! The end of a connection: the socket and the callbacks. -/

def Action.ends : Action → Bool
  | .closeFd _ | .onClose => true
  | _ => false

/-- What may still happen to a watcher that is closed: it is attached or
detached, and calls return. -/
def Action.idle : Action → Bool
  | .register _ | .returned _ => true
  | _ => false

/-- The socket is closed, and then `on_close_` is called if it is there. -/
def closing (watcher : IocpTcpConnectionWatcher) (fd : Nat) : List Action :=
  .closeFd fd ::
    if watcher.callbacks.onClose then [.onClose] else []

/-- Nothing has ended an open watcher.  A watcher that is closed has been closed
once, and has not called its user or the kernel since. -/
structure ClosesOnce (watcher : IocpTcpConnectionWatcher) (closed : Bool)
    (log : List Action) : Prop where
  isOpen : closed = false → ∀ action ∈ log, action.ends = false
  isClosed : closed = true → ∃ before fd after,
    log = before ++ closing watcher fd ++ after ∧
      (∀ action ∈ before, action.ends = false) ∧
      ∀ action ∈ after, action.idle = true

section Turns

variable {watcher : IocpTcpConnectionWatcher} {state : State} {turn : Turn}

inductive Ends (watcher : IocpTcpConnectionWatcher) (state : State)
    (turn : Turn) : Prop
  | stays : turn.store.closed = state.closed →
      (∀ action ∈ turn.emitted, action.ends = false) →
      (state.closed = true → ∀ action ∈ turn.emitted, action.idle = true) →
      Ends watcher state turn
  | closes (before : List Action) (fd : Nat) : state.closed = false →
      turn.store.closed = true →
      turn.emitted = before ++ closing watcher fd →
      (∀ action ∈ before, action.ends = false) → Ends watcher state turn

theorem Ends.andThen (ends : Ends watcher state turn)
    (frames : List (Frame Point)) :
    Ends watcher state (turn.andThen frames) := by
  cases ends with
  | stays closed calm idle => exact .stays closed calm idle
  | closes before fd wasOpen closed emitted calm =>
      exact .closes before fd wasOpen closed emitted calm

theorem Ends.rest (closed : turn.store.closed = state.closed)
    (silent : turn.emitted = []) : Ends watcher state turn := by
  apply Ends.stays closed
  · rw [silent]
    exact nofun
  · rw [silent]
    exact fun _ => nofun

theorem Ends.open (isOpen : state.closed = false)
    (closed : turn.store.closed = false)
    (calm : ∀ action ∈ turn.emitted, action.ends = false) :
    Ends watcher state turn := by
  apply Ends.stays (closed.trans isOpen.symm) calm
  intro isClosed
  rw [isOpen] at isClosed
  cases isClosed

theorem Ends.idle (closed : turn.store.closed = state.closed)
    (idle : ∀ action ∈ turn.emitted, action.idle = true) :
    Ends watcher state turn := by
  apply Ends.stays closed ?_ fun _ => idle
  intro action member
  have isIdle := idle action member
  cases action with
  | closeFd fd => cases isIdle
  | onClose => cases isIdle
  | _ => rfl

theorem Ends.congr {other : State} (ends : Ends watcher other turn)
    (closed : other.closed = state.closed) : Ends watcher state turn := by
  cases ends with
  | stays same calm idle =>
      exact .stays (same.trans closed) calm
        fun isClosed => idle (closed.trans isClosed)
  | closes before fd wasOpen isClosed emitted calm =>
      exact .closes before fd (closed.symm.trans wasOpen) isClosed emitted calm

theorem Ends.registered (ends : Ends watcher state turn)
    (op : PendingOp Unit) :
    Ends watcher state (turn.preceded [.register op]) := by
  cases ends with
  | stays closed calm idle =>
      refine .stays closed ?_ fun isClosed => ?_
      · exact List.forall_mem_cons.mpr ⟨rfl, calm⟩
      · exact List.forall_mem_cons.mpr ⟨rfl, idle isClosed⟩
  | closes before fd wasOpen closed emitted calm =>
      refine .closes (.register op :: before) fd wasOpen closed ?_ ?_
      · exact congrArg (.register op :: ·) emitted
      · exact List.forall_mem_cons.mpr ⟨rfl, calm⟩

theorem calm_callBack {present : Bool} {action other : Action}
    (calm : action.ends = false)
    (member : other ∈
      (Turn.callBack state present action : Turn).emitted) :
    other.ends = false := by
  cases present with
  | false => cases member
  | true =>
      cases List.mem_singleton.mp member
      exact calm

theorem ends_closeNow (valid : Valid state) :
    Ends watcher state (closeNow watcher state) := by
  unfold closeNow
  cases closed : state.closed with
  | true => exact .rest rfl rfl
  | false =>
      obtain ⟨fd, opened⟩ := Option.isSome_iff_exists.mp
        (valid.trans (congrArg _ closed))
      cases attached : state.attached with
      | true =>
          refine .closes [.register (.remove ())] fd closed ?_ ?_ ?_
          · simp [stop]
          · simp [stop, opened, closing, closeFd]
          · simp [Action.ends]
      | false =>
          refine .closes [] fd closed ?_ ?_ (by simp)
          · simp [stop]
          · simp [stop, opened, closing, closeFd]

theorem open_of_fd (valid : Valid state) (opened : state.fd ≠ none) :
    state.closed = false := by
  obtain ⟨fd, found⟩ := Option.ne_none_iff_exists'.mp opened
  simpa [Valid, found] using valid

theorem ends_startRecv (valid : Valid state) (answer : WsaAnswer) :
    Ends watcher state (startRecv watcher state answer) := by
  unfold startRecv
  split
  · exact .rest rfl rfl
  · next free =>
      have isOpen := open_of_fd valid fun gone => free (.inl gone)
      cases answer.failure with
      | some err =>
          refine .open isOpen (by simpa using isOpen) ?_
          intro action member
          cases List.mem_append.mp member with
          | inl zeroed =>
              cases List.mem_singleton.mp zeroed
              rfl
          | inr reported => exact calm_callBack rfl reported
      | none =>
          refine .open isOpen isOpen ?_
          simp [Action.ends]

theorem ends_start (valid : Valid state) (answer : WsaAnswer) :
    Ends watcher state (start watcher state answer) := by
  unfold start
  split
  · exact .rest rfl rfl
  · have attached : Valid { state with attached := true } := valid
    have same : State.closed { state with attached := true } =
        state.closed := rfl
    exact (Ends.congr (ends_startRecv attached answer) same).registered _

theorem ends_stop :
    Ends watcher state
      ((Turn.rest (stop state).1).preceded (stop state).2) := by
  unfold stop
  split
  · exact .idle rfl (by simp [Action.idle])
  · exact .rest rfl rfl

theorem ends_postSend (isOpen : state.closed = false) (data : List Byte)
    (answer : WsaAnswer) :
    Ends watcher state (postSend watcher state data answer) := by
  unfold postSend
  cases answer.failure with
  | some err =>
      refine .open isOpen (by simpa using isOpen) ?_
      intro action member
      cases List.mem_append.mp member with
      | inl prepared =>
          have cases : action = .writeSendBuf ∨ action = .zero .send := by
            simpa [or_assoc, or_comm] using prepared
          obtain rfl | rfl := cases
          · rfl
          · rfl
      | inr reported => exact calm_callBack rfl reported
  | none =>
      refine .open isOpen isOpen ?_
      simp [Action.ends]

theorem ends_trySend (valid : Valid state) (data : List Byte)
    (answer : WsaAnswer) :
    Ends watcher state (trySend watcher state data answer) := by
  unfold trySend
  split
  · exact .idle rfl (by simp [Action.idle])
  · next fd opened =>
      have isOpen : state.closed = false := by
        simpa [Valid, opened] using valid
      split
      · exact .idle rfl (by simp [Action.idle])
      · split
        · exact .idle rfl (by simp [Action.idle])
        · exact ends_postSend isOpen data answer

theorem ends_call (valid : Valid state) (request : Request) :
    Ends watcher state (call watcher state request) := by
  cases request with
  | start answer => exact ends_start valid answer
  | stop => exact ends_stop
  | trySend data answer => exact ends_trySend valid data answer
  | shutdownWrite =>
      simp only [call]
      split
      · exact .rest rfl rfl
      · next fd opened =>
          have isOpen : state.closed = false := by
            simpa [Valid, opened] using valid
          exact .open isOpen isOpen (by simp [Action.ends])
  | close => exact ends_closeNow valid

theorem ends_completionError (isOpen : state.closed = false) (err : Nat) :
    Ends watcher state (completionError watcher state err) := by
  refine .open isOpen (by simpa [completionError] using isOpen) ?_
  exact fun action => calm_callBack rfl

theorem ends_onRecvComplete (valid : Valid state)
    (isOpen : state.closed = false) (outcome : Outcome) :
    Ends watcher state (onRecvComplete watcher state outcome) := by
  unfold onRecvComplete
  split
  · refine Ends.congr (ends_completionError ?_ _) ?_
    · exact isOpen
    · rfl
  · refine Ends.congr (ends_closeNow ?_) ?_
    · exact valid
    · rfl
  · refine .open isOpen (by simpa using isOpen) ?_
    exact fun action => calm_callBack rfl

theorem ends_onSendComplete (isOpen : state.closed = false)
    (outcome : Outcome) :
    Ends watcher state (onSendComplete watcher state outcome) := by
  unfold onSendComplete
  split
  · refine Ends.congr (ends_completionError ?_ _) ?_
    · exact isOpen
    · rfl
  · simp only
    split
    · refine .open isOpen (by simpa using isOpen) ?_
      intro action member
      cases List.mem_append.mp member with
      | inl cleared =>
          cases List.mem_singleton.mp cleared
          rfl
      | inr ready => exact calm_callBack rfl ready
    · refine .open isOpen isOpen ?_
      simp [Action.ends]

theorem ends_onCompletion (valid : Valid state) (side : Side)
    (outcome : Outcome) :
    Ends watcher state (onCompletion watcher state side outcome) := by
  unfold onCompletion
  split
  · exact .rest rfl rfl
  · next runs =>
      have isOpen : state.closed = false :=
        Bool.eq_false_iff.mpr (not_or.mp runs).2
      cases side with
      | recv => exact ends_onRecvComplete valid isOpen outcome
      | send => exact ends_onSendComplete isOpen outcome

theorem ends_resume (valid : Valid state) {point : Point} {input : Input}
    (resumed : resume watcher state point input = some turn) :
    Ends watcher state turn := by
  unfold resume at resumed
  split at resumed
  · cases resumed
    exact ends_closeNow valid
  · cases resumed
    exact ends_closeNow valid
  · cases resumed
    exact (ends_closeNow valid).andThen _
  · cases resumed
    exact .idle rfl (by simp [Action.idle])
  · split at resumed
    · cases resumed
      exact .rest rfl rfl
    · cases resumed
      exact ends_startRecv valid _
  · cases resumed

end Turns

section Runs

variable {watcher : IocpTcpConnectionWatcher}
  {scene after : (component watcher).Scene}

theorem ClosesOnce.take {state : State} {log : List Action} {turn : Turn}
    (once : ClosesOnce watcher state.closed log)
    (ends : Ends watcher state turn) :
    ClosesOnce watcher turn.store.closed (log ++ turn.emitted) := by
  cases ends with
  | stays same calm idle =>
      rw [same]
      constructor
      · intro isOpen
        exact List.forall_mem_append.mpr ⟨once.isOpen isOpen, calm⟩
      · intro isClosed
        obtain ⟨before, fd, later, shape, calmly, idly⟩ :=
          once.isClosed isClosed
        refine ⟨before, fd, later ++ turn.emitted, ?_, calmly, ?_⟩
        · rw [shape, List.append_assoc]
        · exact List.forall_mem_append.mpr ⟨idly, idle isClosed⟩
  | closes before fd wasOpen isClosed emitted calm =>
      rw [isClosed]
      refine ⟨nofun, fun _ => ⟨log ++ before, fd, [], ?_, ?_, nofun⟩⟩
      · rw [emitted, List.append_nil, List.append_assoc]
      · exact List.forall_mem_append.mpr ⟨once.isOpen wasOpen, calm⟩

structure Ending (scene : (component watcher).Scene) : Prop where
  valid : Valid scene.store.state
  once : ClosesOnce watcher (State.closed scene.store.state) scene.log

theorem ending_take {outside : Outside watcher} {turn : Turn}
    {below : List (Frame Point)} (ending : Ending scene)
    (valid : Valid turn.store)
    (ends : Ends watcher scene.store.state turn) :
    Ending (scene.take ((component watcher).lift outside turn) below) :=
  ⟨valid, ending.once.take ends⟩

theorem valid_onCompletion {state : State} (valid : Valid state) (side : Side)
    (outcome : Outcome) :
    Valid (onCompletion watcher state side outcome).store := by
  cases closed : state.closed with
  | false => exact (conducts_onCompletion valid closed side outcome).1.valid
  | true =>
      rw [onCompletion_of_closed closed]
      exact valid

theorem ending_step {label : (component watcher).SceneLabel}
    (ending : Ending scene)
    (stepped : IocpComponent.sceneStep scene label = some after) :
    Ending after := by
  cases IocpComponent.moves_of_step stepped with
  | called userOnTop called =>
      cases called
      exact ending_take ending (conducts_call ending.valid _).valid
        (ends_call ending.valid _)
  | handled outside dispatched handled =>
      cases handled
      exact ending_take ending (valid_onCompletion ending.valid _ _)
        (ends_onCompletion ending.valid _ _)
  | resumed shape resumed =>
      exact ending_take ending (conducts_resume ending.valid resumed).valid
        (ends_resume ending.valid resumed)
  | _ => exact ⟨ending.valid, ending.once⟩

/-- In every run the socket is closed at most once, `on_close_` is called right
after it and nothing is asked of the user or the kernel from then on. -/
theorem closes_once (reached : (component watcher).scenes.Reachable scene) :
    ClosesOnce watcher (State.closed scene.store.state) scene.log := by
  have ending : Ending scene := by
    refine reached.invariant Ending ?_ fun _ _ _ ending stepped =>
      ending_step ending stepped
    rintro ⟨⟨outside, state⟩, stack, log⟩ ⟨⟨fd, rfl⟩, rfl, rfl, rfl⟩
    exact ⟨rfl, fun _ => nofun, nofun⟩
  exact ending.once

end Runs

section Samples

/-- A receive fails, and `on_error_` closes the watcher and starts it again. -/
def closedInsideError : List sampleComponent.SceneLabel :=
  [asked (.start .ok), .complete Side.recv (Outcome.failed 10054), .wait 1,
    .code (.ready ()), asked .close, .code .leave, asked (.start .ok),
    asked (.trySend [(1 : Byte)] .ok), .code .leave,
    .code (.resume Input.proceed)]

theorem closes_once_insideError :
    ∃ scene : sampleComponent.Scene,
      State.closed scene.store.state = true ∧ scene.stack = [] ∧
        ClosesOnce sampleWatcher (State.closed scene.store.state)
          scene.log := by
  obtain ⟨scene, run, closed, left⟩ : ∃ after,
      sampleComponent.scenes.replay freshScene closedInsideError =
        some after ∧
      State.closed after.store.state = true ∧ after.stack = [] :=
    ⟨_, rfl, rfl, rfl⟩
  exact ⟨scene, closed, left,
    closes_once (System.Reachable.replay _ (.start freshScene_initial) run)⟩

end Samples

end RopHive.Network.IocpConnection
