import RopHive.Network.IocpFlags

namespace RopHive.Network.IocpConnection

open Transition
open RopHive.Schedule (IocpLoop)

/-! A `trySend` that has to wait, and the `on_send_ready_` it waits for. -/

/-- Whether somebody waits for `on_send_ready_`, which is called for nobody
else. -/
def hearWant (waits : Bool) : Action → Option Bool
  | .returned result => some (waits || result.wouldBlock)
  | .onSendReady => if waits then some false else none
  | _ => some waits

def Action.neutral : Action → Bool
  | .returned result => !result.wouldBlock
  | .onSendReady => false
  | _ => true

/-- Points behind which the watcher is closed. -/
def Point.closes : Point → Bool
  | .recvFailed | .completionFailed | .sendFailed _ => true
  | .sendReturn _ | .received => false

def Closing (frames : List (Frame Point)) : Prop :=
  ∃ point, .code point ∈ frames ∧ point.closes = true

theorem Closing.append {frames : List (Frame Point)} (closing : Closing frames)
    (below : List (Frame Point)) : Closing (frames ++ below) := by
  obtain ⟨point, member, closes⟩ := closing
  exact ⟨point, List.mem_append_left below member, closes⟩

section Turns

variable {watcher : IocpTcpConnectionWatcher} {state : State} {turn : Turn}

/-- Where somebody waits, a send is under way or the watcher is about to be
closed, unless neither was so before the turn. -/
def Owes (before : State) (turn : Turn) : Prop :=
  turn.store.closed = false → turn.store.wantSendReady = true →
    (turn.store.sending = true ∨ Closing turn.push) ∨
      before.closed = false ∧ before.wantSendReady = true ∧
        before.sending = false

structure Promises (state : State) (turn : Turn) : Prop where
  heard : turn.emitted.foldlM hearWant state.wantSendReady =
    some turn.store.wantSendReady
  owes : Owes state turn

theorem Promises.answers {log : List Action} {waits : Bool}
    (promises : Promises state turn)
    (answered : log.foldlM hearWant waits = some state.wantSendReady) :
    (log ++ turn.emitted).foldlM hearWant waits =
      some turn.store.wantSendReady := by
  rw [List.foldlM_append, answered]
  exact promises.heard

theorem hearWant_neutral {actions : List Action}
    (neutral : ∀ action ∈ actions, action.neutral = true) (waits : Bool) :
    actions.foldlM hearWant waits = some waits := by
  induction actions with
  | nil => rfl
  | cons action actions ih =>
      obtain ⟨first, rest⟩ := List.forall_mem_cons.mp neutral
      have here : hearWant waits action = some waits := by
        cases action with
        | onSendReady => cases first
        | returned result =>
            have passes : result.wouldBlock = false := by
              simpa [Action.neutral] using first
            simp [hearWant, passes]
        | _ => rfl
      rw [List.foldlM_cons, here]
      exact ih rest

theorem Owes.of_closed (closed : turn.store.closed = true) :
    Owes state turn := by
  intro isOpen
  rw [closed] at isOpen
  cases isOpen

theorem Owes.of_point {point : Point} (pushed : .code point ∈ turn.push)
    (closes : point.closes = true) : Owes state turn :=
  fun _ _ => .inl (.inr ⟨point, pushed, closes⟩)

theorem Owes.same (closed : turn.store.closed = state.closed)
    (want : turn.store.wantSendReady = state.wantSendReady)
    (sending : turn.store.sending = state.sending) : Owes state turn := by
  intro isOpen waits
  rw [closed] at isOpen
  rw [want] at waits
  rw [sending]
  cases sends : state.sending with
  | true => exact .inl (.inl rfl)
  | false => exact .inr ⟨isOpen, waits, rfl⟩

theorem Promises.neutral
    (neutral : ∀ action ∈ turn.emitted, action.neutral = true)
    (want : turn.store.wantSendReady = state.wantSendReady)
    (owes : Owes state turn) : Promises state turn where
  heard := by
    rw [hearWant_neutral neutral, want]
  owes := owes

theorem promises_rest : Promises state (.rest state) :=
  .neutral nofun rfl (.same rfl rfl rfl)

theorem Promises.preceded {actions : List Action}
    (promises : Promises state turn)
    (neutral : ∀ action ∈ actions, action.neutral = true) :
    Promises state (turn.preceded actions) where
  heard := by
    rw [Turn.preceded_emitted, List.foldlM_append, hearWant_neutral neutral]
    exact promises.heard
  owes := promises.owes

theorem neutral_callBack (after : State) (present : Bool) {action : Action}
    (neutral : action.neutral = true) :
    ∀ other ∈ (Turn.callBack after present action : Turn).emitted,
      other.neutral = true := by
  cases present with
  | false => exact nofun
  | true => exact List.forall_mem_cons.mpr ⟨neutral, nofun⟩

theorem promises_error {after : State} (present : Bool) (err : Nat)
    {point : Point} (want : after.wantSendReady = state.wantSendReady)
    (closes : point.closes = true) :
    Promises state ((Turn.callBack after present (.onError err)).andThen
      [.code point]) := by
  refine .neutral ?_ ?_ ?_
  · exact neutral_callBack after present (by rfl)
  · exact (congrArg State.wantSendReady (Turn.callBack_store _ _ _)).trans want
  · exact .of_point (List.mem_append_right _ List.mem_cons_self) closes

theorem neutral_closeFd (fd : Option Nat) :
    ∀ action ∈ closeFd fd, action.neutral = true := by
  cases fd with
  | none => exact nofun
  | some fd => exact List.forall_mem_cons.mpr ⟨rfl, nofun⟩

theorem neutral_stop (state : State) :
    ∀ action ∈ (stop state).2, action.neutral = true := by
  unfold stop
  split
  · exact List.forall_mem_cons.mpr ⟨rfl, nofun⟩
  · exact nofun

theorem want_stop (state : State) :
    (stop state).1.wantSendReady = state.wantSendReady := by
  unfold stop
  split
  · rfl
  · rfl

theorem promises_closeNow : Promises state (closeNow watcher state) := by
  have owes : Owes state (closeNow watcher state) :=
    .of_closed (closed_closeNow state)
  unfold closeNow at owes ⊢
  split
  · exact promises_rest
  · next isOpen =>
      rw [if_neg isOpen] at owes
      refine Promises.preceded (.neutral ?_ ?_ owes) ?_
      · exact neutral_callBack _ _ (by rfl)
      · exact (congrArg State.wantSendReady (Turn.callBack_store _ _ _)).trans
          (want_stop _)
      · exact List.forall_mem_append.mpr ⟨neutral_stop _, neutral_closeFd _⟩

theorem promises_startRecv (answer : WsaAnswer) :
    Promises state (startRecv watcher state answer) := by
  unfold startRecv
  split
  · exact promises_rest
  · cases answer.failure with
    | some err =>
        apply Promises.preceded (promises_error _ err rfl (by rfl))
        exact List.forall_mem_cons.mpr ⟨rfl, nofun⟩
    | none =>
        refine .neutral ?_ rfl (.same rfl rfl rfl)
        simp [Action.neutral]

theorem promises_postSend (data : List Byte) (answer : WsaAnswer) :
    Promises state (postSend watcher state data answer) := by
  unfold postSend
  cases answer.failure with
  | some err =>
      refine Promises.preceded (promises_error _ err ?_ ?_) ?_
      · rfl
      · rfl
      · simp [Action.neutral]
  | none =>
      refine .neutral ?_ rfl fun _ _ => .inl (.inl rfl)
      simp [Action.neutral]

theorem promises_stop :
    Promises state ((Turn.rest (stop state).1).preceded (stop state).2) := by
  apply Promises.preceded _ (neutral_stop state)
  unfold stop
  split
  · exact .neutral nofun rfl (.same rfl rfl rfl)
  · exact .neutral nofun rfl (.same rfl rfl rfl)

theorem promises_returned {result : TrySendResult}
    (passes : result.wouldBlock = false) :
    Promises state ((Turn.rest state).preceded [.returned result]) := by
  apply promises_rest.preceded
  refine List.forall_mem_cons.mpr ⟨?_, nofun⟩
  rw [Action.neutral, passes]
  rfl

theorem promises_call (request : Request) :
    Promises state (call watcher state request) := by
  cases request with
  | start answer =>
      simp only [call, start]
      split
      · exact promises_rest
      · have promises := @promises_startRecv watcher
          { state with attached := true } answer
        exact ⟨promises.heard, promises.owes⟩
  | stop => exact promises_stop
  | trySend data answer =>
      simp only [call, trySend]
      split
      · exact promises_returned rfl
      · split
        · exact promises_returned rfl
        · split
          · next sends =>
              refine ⟨?_, fun _ _ => .inl (.inl sends)⟩
              exact congrArg some (Bool.or_true _)
          · exact promises_postSend data answer
  | shutdownWrite =>
      simp only [call]
      split
      · exact promises_rest
      · apply promises_rest.preceded
        exact List.forall_mem_cons.mpr ⟨rfl, by simp⟩
  | close => exact promises_closeNow

theorem promises_onRecvComplete (outcome : Outcome) :
    Promises state (onRecvComplete watcher state outcome) := by
  unfold onRecvComplete
  split
  · exact promises_error _ _ rfl (by rfl)
  · have promises := @promises_closeNow watcher
      { state with
        receiving := false
        peerClosed := true }
    exact ⟨promises.heard, promises.owes⟩
  · refine .neutral ?_ (by simp) (.same (by simp) (by simp) (by simp))
    exact neutral_callBack _ _ (by rfl)

theorem promises_onSendComplete
    (onSendReady : watcher.callbacks.onSendReady = true)
    (isOpen : state.closed = false) (outcome : Outcome) :
    Promises state (onSendComplete watcher state outcome) := by
  unfold onSendComplete
  split
  · exact promises_error _ _ rfl (by rfl)
  · simp only [onSendReady]
    split
    · next waits =>
        refine ⟨?_, ?_⟩
        · rw [waits.1]
          rfl
        · intro _ stays
          cases stays
    · next nobody =>
        have free : state.wantSendReady = false :=
          Bool.eq_false_iff.mpr fun waits =>
            nobody ⟨waits, ne_true_of_eq_false isOpen⟩
        refine .neutral ?_ rfl ?_
        · exact List.forall_mem_cons.mpr ⟨rfl, nofun⟩
        · intro _ waits
          exact Bool.noConfusion (free.symm.trans waits)

theorem promises_onCompletion
    (onSendReady : watcher.callbacks.onSendReady = true) (side : Side)
    (outcome : Outcome) :
    Promises state (onCompletion watcher state side outcome) := by
  unfold onCompletion
  split
  · exact promises_rest
  · next runs =>
      have isOpen : state.closed = false :=
        Bool.eq_false_iff.mpr (not_or.mp runs).2
      cases side with
      | recv => exact promises_onRecvComplete outcome
      | send => exact promises_onSendComplete onSendReady isOpen outcome

/-- A `trySend` that has to wait has returned already. -/
def Honest (frames : List (Frame Point)) : Prop :=
  ∀ result, .code (.sendReturn result) ∈ frames → result.wouldBlock = false

theorem promises_resume {point : Point} {input : Input}
    (resumed : resume watcher state point input = some turn)
    (returns : ∀ result, point = .sendReturn result →
      result.wouldBlock = false) :
    Promises state turn ∧ (point.closes = true → turn.store.closed = true) := by
  have shut := @closed_closeNow watcher state
  have promises := @promises_closeNow watcher state
  unfold resume at resumed
  split at resumed
  · cases resumed
    exact ⟨promises, fun _ => shut⟩
  · cases resumed
    exact ⟨promises, fun _ => shut⟩
  · cases resumed
    exact ⟨⟨promises.heard, .of_closed shut⟩, fun _ => shut⟩
  · cases resumed
    exact ⟨promises_returned (returns _ rfl), nofun⟩
  · split at resumed
    · next closed =>
        cases resumed
        exact ⟨.neutral nofun rfl (.of_closed closed), nofun⟩
    · cases resumed
      exact ⟨promises_startRecv _, nofun⟩
  · cases resumed

theorem honest_callBack (after : State) (present : Bool) {action : Action}
    {point : Point} (other : ∀ result, point ≠ .sendReturn result) :
    Honest ((Turn.callBack after present action : Turn).push ++
      [Frame.code point]) := by
  intro result member
  cases present with
  | _ => simp [Ne.symm (other result)] at member

theorem honest_nil : Honest [] :=
  nofun

theorem honest_closeNow : Honest (closeNow watcher state).push := by
  unfold closeNow
  split
  · exact nofun
  · intro result member
    cases present : watcher.callbacks.onClose with
    | _ => simp [present] at member

theorem honest_startRecv (answer : WsaAnswer) :
    Honest (startRecv watcher state answer).push := by
  unfold startRecv
  split
  · exact nofun
  · cases answer.failure with
    | some err => exact honest_callBack _ _ nofun
    | none => exact nofun

theorem honest_call (request : Request) :
    Honest (call watcher state request).push := by
  cases request with
  | start answer =>
      simp only [call, start]
      split
      · exact honest_nil
      · exact honest_startRecv answer
  | stop => exact honest_nil
  | trySend data answer =>
      simp only [call, trySend]
      split
      · exact honest_nil
      · split
        · exact honest_nil
        · split
          · exact honest_nil
          · unfold postSend
            cases answer.failure with
            | some err => exact honest_callBack _ _ (by simp)
            | none => exact honest_nil
  | shutdownWrite =>
      simp only [call]
      split
      · exact honest_nil
      · exact honest_nil
  | close => exact honest_closeNow

theorem honest_onCompletion (side : Side) (outcome : Outcome) :
    Honest (onCompletion watcher state side outcome).push := by
  unfold onCompletion
  split
  · exact nofun
  · cases side with
    | recv =>
        simp only [onRecvComplete]
        split
        · exact honest_callBack _ _ nofun
        · exact honest_closeNow
        · exact honest_callBack _ _ nofun
    | send =>
        simp only [onSendComplete]
        split
        · exact honest_callBack _ _ nofun
        · split
          · intro result member
            cases present : watcher.callbacks.onSendReady with
            | _ => simp [present] at member
          · exact nofun

theorem honest_resume {point : Point} {input : Input}
    (resumed : resume watcher state point input = some turn) :
    Honest turn.push := by
  unfold resume at resumed
  split at resumed
  · cases resumed
    exact honest_closeNow
  · cases resumed
    exact honest_closeNow
  · cases resumed
    intro result member
    cases List.mem_append.mp member with
    | inl pushed => exact honest_closeNow result pushed
    | inr last =>
        cases List.mem_singleton.mp last
        rfl
  · cases resumed
    exact nofun
  · split at resumed
    · cases resumed
      exact nofun
    · cases resumed
      exact honest_startRecv _
  · cases resumed

end Turns

section Runs

variable {watcher : IocpTcpConnectionWatcher}

/-- `on_send_ready_` is called once for all the calls of `trySend` that have
had to wait since the last one, and for no other reason.  While somebody waits,
an open watcher has a send under way, which the kernel or the event loop knows
of where nothing was lost. -/
structure SendReadyKept (scene : (component watcher).Scene) : Prop where
  answered : scene.log.foldlM hearWant false =
    some (State.wantSendReady scene.store.state)
  sending : State.closed scene.store.state = false →
    State.wantSendReady scene.store.state = true →
    (∀ point, .code point ∉ scene.stack) →
    State.sending scene.store.state = true
  inFlight : (component watcher).scenes.ReachableUnder NothingLost scene →
    State.closed scene.store.state = false →
    State.wantSendReady scene.store.state = true →
    (∀ point, .code point ∉ scene.stack) →
    .send ∈ inFlight scene.store.toOutside

structure Waits (scene : (component watcher).Scene) : Prop where
  answered : scene.log.foldlM hearWant false =
    some (State.wantSendReady scene.store.state)
  owed : State.closed scene.store.state = false →
    State.wantSendReady scene.store.state = true →
    State.sending scene.store.state = true ∨ Closing scene.stack
  honest : Honest scene.stack

variable {scene after : (component watcher).Scene}

theorem waits_take {outside : Outside watcher} {turn : Turn}
    {below : List (Frame Point)} (waits : Waits scene)
    (promises : Promises scene.store.state turn)
    (remains : Closing scene.stack → Closing below ∨ turn.store.closed = true)
    (honest : Honest turn.push) (still : Honest below) :
    Waits (scene.take ((component watcher).lift outside turn) below) where
  answered := promises.answers waits.answered
  owed := by
    intro isOpen stays
    cases promises.owes isOpen stays with
    | inl owed => exact owed.imp_right (·.append below)
    | inr missing =>
        obtain ⟨wasOpen, waited, idle⟩ := missing
        cases waits.owed wasOpen waited with
        | inl sends => exact Bool.noConfusion (idle.symm.trans sends)
        | inr closing =>
            cases remains closing with
            | inl stays =>
                obtain ⟨point, member, closes⟩ := stays
                exact .inr ⟨point, List.mem_append_right turn.push member,
                  closes⟩
            | inr closed => exact Bool.noConfusion (isOpen.symm.trans closed)
  honest := by
    intro result member
    cases List.mem_append.mp member with
    | inl pushed => exact honest result pushed
    | inr remaining => exact still result remaining

theorem waits_step {label : (component watcher).SceneLabel}
    (onSendReady : watcher.callbacks.onSendReady = true) (waits : Waits scene)
    (stepped : IocpComponent.sceneStep scene label = some after) :
    Waits after := by
  cases IocpComponent.moves_of_step stepped with
  | called userOnTop called =>
      cases called
      exact waits_take waits (promises_call _) .inl (honest_call _)
        waits.honest
  | handled outside dispatched handled =>
      cases handled
      refine waits_take waits (promises_onCompletion onSendReady _ _) ?_
        (honest_onCompletion _ _) nofun
      rw [outside]
      exact .inl
  | resumed shape resumed =>
      have stack := waits.honest
      rw [shape] at stack
      have still := fun result member =>
        stack result (List.mem_cons_of_mem _ member)
      obtain ⟨promises, closes⟩ := promises_resume resumed
        fun result same => stack result (same ▸ List.mem_cons_self)
      refine waits_take waits promises ?_ (honest_resume resumed) still
      rintro ⟨point, member, isClosing⟩
      rw [shape] at member
      cases List.mem_cons.mp member with
      | inl same =>
          cases same
          exact .inr (closes isClosing)
      | inr below => exact .inl ⟨point, below, isClosing⟩
  | left shape =>
      refine ⟨waits.answered, fun isOpen stays => ?_, fun result member => ?_⟩
      · refine (waits.owed isOpen stays).imp_right ?_
        rintro ⟨point, member, closes⟩
        rw [shape] at member
        cases List.mem_cons.mp member with
        | inl same => cases same
        | inr below => exact ⟨point, below, closes⟩
      · apply waits.honest result
        rw [shape]
        exact List.mem_cons_of_mem _ member
  | _ => exact ⟨waits.answered, waits.owed, waits.honest⟩

/-- In every run `on_send_ready_` is called for those who wait, and for nobody
else. -/
theorem sendReady_owed (onSendReady : watcher.callbacks.onSendReady = true)
    (reached : (component watcher).scenes.Reachable scene) :
    SendReadyKept scene := by
  have waits : Waits scene := by
    refine reached.invariant Waits ?_ fun _ _ _ waits stepped =>
      waits_step onSendReady waits stepped
    rintro ⟨⟨outside, state⟩, stack, log⟩ ⟨⟨fd, rfl⟩, rfl, rfl, rfl⟩
    exact ⟨rfl, nofun, nofun⟩
  have sending : State.closed scene.store.state = false →
      State.wantSendReady scene.store.state = true →
      (∀ point, .code point ∉ scene.stack) →
      State.sending scene.store.state = true := by
    intro isOpen stays nothingLeft
    cases waits.owed isOpen stays with
    | inl sends => exact sends
    | inr closing =>
        obtain ⟨point, member, -⟩ := closing
        exact absurd member (nothingLeft point)
  refine ⟨waits.answered, sending, ?_⟩
  intro kept isOpen stays nothingLeft
  apply List.count_pos_iff.mp
  rw [((flags_agree kept).flags isOpen .send).mp
    (sending isOpen stays nothingLeft)]
  exact Nat.one_pos

end Runs

section Samples

/-- A second `trySend` has to wait for the first one, which completes. -/
def waitedFor : List sampleComponent.SceneLabel :=
  [asked (.start .ok), asked (.trySend [(1 : Byte)] .ok),
    asked (.trySend [(2 : Byte)] .ok),
    .complete Side.send (Outcome.done []), .wait 1, .code (.ready ())]

theorem sendReady_owed_waitedFor :
    ∃ scene : sampleComponent.Scene, Action.onSendReady ∈ scene.log ∧
      SendReadyKept scene := by
  obtain ⟨scene, run, called⟩ : ∃ after,
      sampleComponent.scenes.replay freshScene waitedFor = some after ∧
      after.log.getLast? = some Action.onSendReady := ⟨_, rfl, rfl⟩
  exact ⟨scene, List.mem_of_getLast? called, sendReady_owed rfl
    (System.Reachable.replay _ (.start freshScene_initial) run)⟩

end Samples

end RopHive.Network.IocpConnection
