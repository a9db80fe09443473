import RopHive.Network.IocpConnection

namespace RopHive.Network.IocpConnection

open Transition
open RopHive.Schedule (IocpLoop PendingOp)

/-! `receiving_` and `sending_` against the operations in flight. -/

section Hearing

abbrev Effect := IocpEffect Side Side

def State.flag (state : State) : Side → Bool
  | .recv => state.receiving
  | .send => state.sending

/-- An effect as the flags allow it: nothing is touched or posted while the
flag of its side is set, and posting sets it. -/
def hear (flags : Side → Bool) : Effect → Option (Side → Bool)
  | .register _ => some flags
  | .post side =>
      if flags side then none else some (Function.update flags side true)
  | .reset side | .touch side => if flags side then none else some flags

def effects (turn : Turn) : List Effect :=
  turn.emitted.filterMap effect

abbrev Valid (state : State) : Prop := state.fd.isSome = !state.closed

/-- Points behind which the watcher is closed or receives again. -/
def rearms : Point → Bool
  | .recvFailed | .completionFailed | .received => true
  | .sendFailed _ | .sendReturn _ => false

def Rearming (frames : List (Frame Point)) : Prop :=
  ∃ point, .code point ∈ frames ∧ rearms point = true

theorem Rearming.append {frames : List (Frame Point)}
    (rearming : Rearming frames) (below : List (Frame Point)) :
    Rearming (frames ++ below) := by
  obtain ⟨point, member, isRearming⟩ := rearming
  exact ⟨point, List.mem_append_left below member, isRearming⟩

/-- A receive is under way, or the watcher runs and will see to it. -/
def Settled (turn : Turn) : Prop :=
  turn.store.attached = true → turn.store.closed = false →
    turn.store.receiving = true ∨ Rearming turn.push

/-- The same, but for a receive that was missing before the turn. -/
def Keeps (before : State) (turn : Turn) : Prop :=
  turn.store.attached = true → turn.store.closed = false →
    (turn.store.receiving = true ∨ Rearming turn.push) ∨
      before.attached = true ∧ before.closed = false ∧
        before.receiving = false

/-- What a turn does to the flags, when they are `flags` as it begins. -/
structure Conducts (flags : Side → Bool) (turn : Turn) : Prop where
  valid : Valid turn.store
  heard : (effects turn).foldlM hear flags = some turn.store.flag

variable {watcher : IocpTcpConnectionWatcher} {state : State} {turn : Turn}
  {flags : Side → Bool}

theorem Conducts.andThen (conducts : Conducts flags turn)
    (frames : List (Frame Point)) :
    Conducts flags (turn.andThen frames) :=
  ⟨conducts.valid, conducts.heard⟩

theorem Conducts.plain (valid : Valid turn.store)
    (silent : effects turn = []) (same : turn.store.flag = flags) :
    Conducts flags turn where
  valid := valid
  heard := by
    rw [silent, same]
    rfl

theorem effects_callBack (state : State) (present : Bool) {action : Action}
    (silent : effect action = none) :
    effects (.callBack state present action) = [] := by
  cases present with
  | false => rfl
  | true => simp [effects, Turn.callBack, silent]

theorem effects_preceded (actions : List Action) (turn : Turn) :
    effects (turn.preceded actions) =
      actions.filterMap effect ++ effects turn :=
  List.filterMap_append

theorem effects_andThen (turn : Turn) (frames : List (Frame Point)) :
    effects (turn.andThen frames) = effects turn := rfl

section Idle

variable {side : Side} (idle : flags side = false) (later : List Effect)

include idle

theorem hears_reset :
    (.reset side :: later).foldlM hear flags = later.foldlM hear flags := by
  simp [hear, idle]

theorem hears_touch :
    (.touch side :: later).foldlM hear flags = later.foldlM hear flags := by
  simp [hear, idle]

theorem hears_post :
    (.post side :: later).foldlM hear flags =
      later.foldlM hear (Function.update flags side true) := by
  simp [hear, idle]

end Idle

theorem flag_receiving (state : State) (receiving : Bool) :
    State.flag { state with receiving } =
      Function.update state.flag .recv receiving := by
  funext side
  cases side with
  | _ => rfl

theorem flag_sending (state : State) (sending : Bool) :
    State.flag { state with sending } =
      Function.update state.flag .send sending := by
  funext side
  cases side with
  | _ => rfl

theorem Settled.keeps (settled : Settled turn) : Keeps state turn :=
  fun attached isOpen => .inl (settled attached isOpen)

theorem Keeps.same (attached : turn.store.attached = state.attached)
    (closed : turn.store.closed = state.closed)
    (receiving : turn.store.receiving = state.receiving) :
    Keeps state turn := by
  intro isAttached isOpen
  rw [attached] at isAttached
  rw [closed] at isOpen
  rw [receiving]
  cases receives : state.receiving with
  | true => exact .inl (.inl rfl)
  | false => exact .inr ⟨isAttached, isOpen, rfl⟩

theorem settled_of_closed (closed : turn.store.closed = true) :
    Settled turn := by
  intro _ isOpen
  rw [closed] at isOpen
  cases isOpen

theorem settled_of_point {point : Point}
    (pushed : .code point ∈ turn.push) (isRearming : rearms point = true) :
    Settled turn :=
  fun _ _ => .inr ⟨point, pushed, isRearming⟩

theorem closed_closeNow (state : State) :
    (closeNow watcher state).store.closed = true := by
  unfold closeNow
  cases closed : state.closed with
  | true => exact closed
  | false =>
      cases state.attached with
      | _ => simp [stop]

theorem conducts_closeNow (valid : Valid state) :
    Conducts state.flag (closeNow watcher state) := by
  unfold closeNow
  cases closed : state.closed with
  | true => exact .plain valid rfl rfl
  | false =>
      obtain ⟨fd, opened⟩ := Option.isSome_iff_exists.mp
        (valid.trans (congrArg _ closed))
      cases state.attached <;> cases watcher.callbacks.onClose with
      | _ => exact ⟨rfl, by rw [opened]; rfl⟩

theorem conducts_startRecv (valid : Valid state) (answer : WsaAnswer) :
    Conducts state.flag (startRecv watcher state answer) := by
  unfold startRecv
  split
  · exact .plain valid rfl rfl
  · next free =>
      have idle : state.flag .recv = false :=
        Bool.eq_false_iff.mpr (not_or.mp free).2
      cases answer.failure with
      | some err =>
          refine ⟨by simpa using valid, ?_⟩
          rw [effects_preceded, effects_andThen, effects_callBack _ _ rfl]
          change [.reset .recv].foldlM hear state.flag = _
          rw [hears_reset idle]
          simp
      | none =>
          refine ⟨valid, ?_⟩
          change [.reset .recv, .post .recv].foldlM hear state.flag = _
          rw [hears_reset idle, hears_post idle]
          exact congrArg some (flag_receiving state true).symm

theorem settled_startRecv (valid : Valid state) (answer : WsaAnswer) :
    Settled (startRecv watcher state answer) := by
  unfold startRecv
  split
  · next busy =>
      intro _ isOpen
      cases busy with
      | inl closed =>
          rw [Turn.rest_store] at isOpen
          simp [Valid, closed, isOpen] at valid
      | inr receives => exact .inl receives
  · cases answer.failure with
    | some err =>
        exact settled_of_point (by simp) (by rfl : rearms .recvFailed = true)
    | none => exact fun _ _ => .inl rfl

theorem conducts_start (valid : Valid state) (answer : WsaAnswer) :
    Conducts state.flag (start watcher state answer) := by
  unfold start
  split
  · exact .plain valid rfl rfl
  · have attached : Valid { state with attached := true } := valid
    have conducts : Conducts state.flag
        (startRecv watcher { state with attached := true } answer) :=
      conducts_startRecv attached answer
    exact ⟨conducts.valid, conducts.heard⟩

theorem conducts_stop (valid : Valid state) :
    Conducts state.flag ((Turn.rest (stop state).1).preceded (stop state).2) := by
  unfold stop
  split
  · exact ⟨valid, rfl⟩
  · exact .plain valid rfl rfl

theorem conducts_postSend (valid : Valid state) (idle : state.sending = false)
    (data : List Byte) (answer : WsaAnswer) :
    Conducts state.flag (postSend watcher state data answer) := by
  have free : state.flag .send = false := idle
  unfold postSend
  cases answer.failure with
  | some err =>
      refine ⟨by simpa using valid, ?_⟩
      rw [effects_preceded, effects_andThen, effects_callBack _ _ rfl]
      change [.touch .send, .reset .send, .touch .send].foldlM hear _ = _
      rw [hears_touch free, hears_reset free, hears_touch free]
      have same : State.flag { state with
          sending := false
          sendBuf := [] } = state.flag := by
        funext side
        cases side with
        | recv => rfl
        | send => exact idle.symm
      simp [same]
  | none =>
      refine ⟨valid, ?_⟩
      change [.touch .send, .reset .send, .post .send].foldlM hear _ = _
      rw [hears_touch free, hears_reset free, hears_post free]
      exact congrArg some (flag_sending state true).symm

theorem conducts_trySend (valid : Valid state) (data : List Byte)
    (answer : WsaAnswer) :
    Conducts state.flag (trySend watcher state data answer) := by
  unfold trySend
  split
  · exact .plain valid rfl rfl
  · split
    · exact .plain valid rfl rfl
    · split
      · exact .plain valid rfl rfl
      · next idle =>
          exact conducts_postSend valid (Bool.eq_false_iff.mpr idle) data answer

theorem conducts_call (valid : Valid state) (request : Request) :
    Conducts state.flag (call watcher state request) := by
  cases request with
  | start answer => exact conducts_start valid answer
  | stop => exact conducts_stop valid
  | trySend data answer => exact conducts_trySend valid data answer
  | shutdownWrite =>
      simp only [call]
      split
      · exact .plain valid rfl rfl
      · exact .plain valid rfl rfl
  | close => exact conducts_closeNow valid

theorem keeps_call (valid : Valid state) (request : Request) :
    Keeps state (call watcher state request) := by
  cases request with
  | start answer =>
      simp only [call, start]
      split
      · exact .same rfl rfl rfl
      · have attached : Valid { state with attached := true } := valid
        exact Settled.keeps (settled_startRecv attached answer)
  | stop =>
      simp only [call, stop]
      split
      · exact fun attached => nomatch attached
      · exact .same rfl rfl rfl
  | trySend data answer =>
      simp only [call, trySend]
      split
      · exact .same rfl rfl rfl
      · split
        · exact .same rfl rfl rfl
        · split
          · exact .same rfl rfl rfl
          · unfold postSend
            cases answer.failure with
            | some err => exact .same (by simp) (by simp) (by simp)
            | none => exact .same rfl rfl rfl
  | shutdownWrite =>
      simp only [call]
      split
      · exact .same rfl rfl rfl
      · exact .same rfl rfl rfl
  | close => exact (settled_of_closed (closed_closeNow state)).keeps

theorem conducts_completionError (valid : Valid state) (err : Nat) :
    Conducts state.flag (completionError watcher state err) := by
  refine .plain (by simpa [completionError] using valid) ?_
    (by simp [completionError])
  exact effects_callBack state _ rfl

theorem settled_completionError (err : Nat) :
    Settled (completionError watcher state err) :=
  settled_of_point (by simp [completionError])
    (by rfl : rearms .completionFailed = true)

theorem conducts_onRecvComplete (valid : Valid state) (outcome : Outcome) :
    Conducts (Function.update state.flag .recv false)
      (onRecvComplete watcher state outcome) := by
  have stopped : Valid { state with receiving := false } := valid
  rw [← flag_receiving]
  unfold onRecvComplete
  split
  · exact conducts_completionError stopped _
  · have noticed :
        Valid { state with
          receiving := false
          peerClosed := true } := valid
    have conducts := @conducts_closeNow watcher _ noticed
    exact ⟨conducts.valid, conducts.heard⟩
  · refine .plain (by simpa using valid) ?_ (by simp)
    exact effects_callBack _ _ rfl

theorem settled_onRecvComplete (outcome : Outcome) :
    Settled (onRecvComplete watcher state outcome) := by
  unfold onRecvComplete
  split
  · exact settled_completionError _
  · exact settled_of_closed (closed_closeNow _)
  · exact settled_of_point (by simp) (by rfl : rearms .received = true)

theorem conducts_onSendComplete (valid : Valid state) (outcome : Outcome) :
    Conducts (Function.update state.flag .send false)
      (onSendComplete watcher state outcome) := by
  have stopped : Valid { state with sending := false } := valid
  rw [← flag_sending]
  unfold onSendComplete
  split
  · exact conducts_completionError stopped _
  · simp only
    split
    · refine ⟨by simpa using valid, ?_⟩
      rw [effects_preceded, effects_callBack _ _ rfl]
      change [.touch .send].foldlM hear _ = _
      rw [hears_touch rfl]
      refine congrArg some ?_
      rw [Turn.preceded_store, Turn.callBack_store]
      rfl
    · refine ⟨valid, ?_⟩
      change [.touch .send].foldlM hear _ = _
      rw [hears_touch rfl]
      rfl

theorem keeps_onSendComplete (outcome : Outcome) :
    Keeps state (onSendComplete watcher state outcome) := by
  unfold onSendComplete
  split
  · exact (settled_completionError _).keeps
  · simp only
    split
    · exact .same (by simp) (by simp) (by simp)
    · exact .same rfl rfl rfl

theorem conducts_onCompletion (valid : Valid state)
    (isOpen : state.closed = false) (side : Side) (outcome : Outcome) :
    Conducts (Function.update state.flag side false)
        (onCompletion watcher state side outcome) ∧
      Keeps state (onCompletion watcher state side outcome) := by
  have runs : ¬ (state.fd = none ∨ state.closed = true) := by
    rintro (closed | closed)
    · simp [Valid, closed, isOpen] at valid
    · rw [isOpen] at closed
      cases closed
  unfold onCompletion
  rw [if_neg runs]
  cases side with
  | recv =>
      exact ⟨conducts_onRecvComplete valid outcome,
        (settled_onRecvComplete outcome).keeps⟩
  | send =>
      exact ⟨conducts_onSendComplete valid outcome,
        keeps_onSendComplete outcome⟩

theorem onCompletion_of_closed (closed : state.closed = true) (side : Side)
    (outcome : Outcome) :
    onCompletion watcher state side outcome = .rest state :=
  if_pos (.inr closed)

theorem conducts_resume (valid : Valid state) {point : Point} {input : Input}
    (resumed : resume watcher state point input = some turn) :
    Conducts state.flag turn := by
  unfold resume at resumed
  split at resumed
  · cases resumed
    exact conducts_closeNow valid
  · cases resumed
    exact conducts_closeNow valid
  · cases resumed
    exact (conducts_closeNow valid).andThen _
  · cases resumed
    exact .plain valid rfl rfl
  · split at resumed
    · cases resumed
      exact .plain valid rfl rfl
    · cases resumed
      exact conducts_startRecv valid _
  · cases resumed

theorem settles_resume (valid : Valid state) {point : Point} {input : Input}
    (resumed : resume watcher state point input = some turn) :
    if rearms point then Settled turn else Keeps state turn := by
  unfold resume at resumed
  split at resumed
  · cases resumed
    exact settled_of_closed (closed_closeNow state)
  · cases resumed
    exact settled_of_closed (closed_closeNow state)
  · cases resumed
    have closed := @closed_closeNow watcher state
    exact (settled_of_closed (by exact closed)).keeps
  · cases resumed
    exact Keeps.same rfl rfl rfl
  · split at resumed
    · next closed =>
        cases resumed
        exact settled_of_closed closed
    · cases resumed
      exact settled_startRecv valid _
  · cases resumed

end Hearing

section Counting

variable {watcher : IocpTcpConnectionWatcher} {flags after : Side → Bool}

def Counted (flags : Side → Bool) (inFlight : List Side) : Prop :=
  ∀ side, inFlight.count side = (flags side).toNat

def Bounded (flags : Side → Bool) (inFlight : List Side) : Prop :=
  ∀ side, inFlight.count side ≤ (flags side).toNat

abbrev Outside (watcher : IocpTcpConnectionWatcher) :=
  (component watcher).Outside

def inFlight (outside : Outside watcher) : List Side :=
  outside.loop.port.inFlight

structure Agrees (before : Outside watcher) (flags : Side → Bool)
    (outside : Outside watcher) (after : Side → Bool) : Prop where
  harmed : outside.harmed = before.harmed
  bounded : Bounded flags (inFlight before) → Bounded after (inFlight outside)
  counted : Counted flags (inFlight before) → Counted after (inFlight outside)

theorem idle_of_bounded {outside : Outside watcher} {side : Side}
    (bounded : Bounded flags (inFlight outside)) (idle : flags side = false) :
    outside.loop.port.busy (component watcher).record side = false := by
  apply Bool.eq_false_iff.mpr
  intro isBusy
  obtain ⟨op, member, same⟩ := CompletionPort.mem_inFlight_of_busy isBusy
  obtain rfl : op = side := same
  have none : (inFlight outside).count op ≤ 0 := by
    have most := bounded op
    rwa [idle] at most
  exact List.count_eq_zero.mp (Nat.le_zero.mp none) member

theorem agrees_same {before outside : Outside watcher}
    (harmed : outside.harmed = before.harmed)
    (same : inFlight outside = inFlight before) :
    Agrees before flags outside flags := by
  refine ⟨harmed, ?_, ?_⟩
  · rw [same]
    exact id
  · rw [same]
    exact id

section Lists

variable {side : Side} {fewer more : List Side}

theorem count_perm_cons (posted : more.Perm (side :: fewer)) (other : Side) :
    more.count other = fewer.count other + if side = other then 1 else 0 := by
  rw [posted.count_eq, List.count_cons]
  simp

theorem Bounded.post (bounded : Bounded flags fewer)
    (idle : flags side = false) (posted : more.Perm (side :: fewer)) :
    Bounded (Function.update flags side true) more := by
  intro other
  have most := bounded other
  rw [count_perm_cons posted, Function.update_apply]
  by_cases same : side = other
  · subst same
    rw [idle] at most
    simpa using most
  · simpa [same, Ne.symm same] using most

theorem Counted.post (counted : Counted flags fewer)
    (idle : flags side = false) (posted : more.Perm (side :: fewer)) :
    Counted (Function.update flags side true) more := by
  intro other
  have exactly := counted other
  rw [count_perm_cons posted, Function.update_apply]
  by_cases same : side = other
  · subst same
    rw [idle] at exactly
    simpa using exactly
  · simpa [same, Ne.symm same] using exactly

theorem Bounded.lost (bounded : Bounded flags more)
    (ended : more.Perm (side :: fewer)) : Bounded flags fewer := by
  intro other
  have most := bounded other
  rw [count_perm_cons ended] at most
  omega

theorem Counted.ended (counted : Counted flags more)
    (ended : more.Perm (side :: fewer)) :
    Counted (Function.update flags side false) fewer := by
  intro other
  have exactly := counted other
  rw [count_perm_cons ended] at exactly
  rw [Function.update_apply]
  by_cases same : side = other
  · subst same
    have atMost := Bool.toNat_le (flags side)
    rw [if_pos rfl] at exactly
    rw [if_pos rfl, Bool.toNat_false]
    omega
  · rw [if_neg (Ne.symm same)]
    rw [if_neg same] at exactly
    exact exactly

theorem Bounded.ended (bounded : Bounded flags more)
    (ended : more.Perm (side :: fewer)) :
    Bounded (Function.update flags side false) fewer := by
  intro other
  have most := bounded other
  rw [count_perm_cons ended] at most
  rw [Function.update_apply]
  by_cases same : side = other
  · subst same
    have atMost := Bool.toNat_le (flags side)
    rw [if_pos rfl] at most
    rw [if_pos rfl, Bool.toNat_false]
    omega
  · rw [if_neg (Ne.symm same)]
    omega

end Lists

theorem agrees_apply {outside : Outside watcher} {effect : Effect}
    (bounded : Bounded flags (inFlight outside))
    (heard : hear flags effect = some after) :
    Agrees outside flags (IocpComponent.Outside.apply outside effect)
      after := by
  cases effect with
  | register op =>
      cases heard
      obtain ⟨harmed, port⟩ := IocpComponent.apply_register op
      exact agrees_same harmed (congrArg CompletionPort.inFlight port)
  | post side =>
      obtain ⟨free, same⟩ := Option.ite_none_left_eq_some.mp heard
      cases same
      have idle : flags side = false := Bool.eq_false_iff.mpr free
      have posted : (inFlight
          (IocpComponent.Outside.apply outside (.post side))).Perm
            (side :: inFlight outside) := CompletionPort.inFlight_post _
      exact ⟨rfl, fun most => most.post idle posted,
        fun exactly => exactly.post idle posted⟩
  | reset side =>
      obtain ⟨free, same⟩ := Option.ite_none_left_eq_some.mp heard
      cases same
      obtain ⟨harmed, port⟩ := IocpComponent.apply_reset
        (idle_of_bounded bounded (Bool.eq_false_iff.mpr free))
      exact agrees_same harmed
        ((congrArg CompletionPort.inFlight port).trans rfl)
  | touch side =>
      obtain ⟨free, same⟩ := Option.ite_none_left_eq_some.mp heard
      cases same
      have untouched := IocpComponent.apply_touch
        (idle_of_bounded bounded (Bool.eq_false_iff.mpr free))
      exact agrees_same (congrArg IocpComponent.Outside.harmed untouched)
        (congrArg inFlight untouched)

theorem agrees_turn {outside : Outside watcher} {effects : List Effect}
    (bounded : Bounded flags (inFlight outside))
    (heard : effects.foldlM hear flags = some after) :
    Agrees outside flags (effects.foldl IocpComponent.Outside.apply outside)
      after := by
  induction effects generalizing outside flags with
  | nil =>
      cases heard
      exact agrees_same rfl rfl
  | cons effect effects ih =>
      obtain ⟨middle, first, rest⟩ := Option.bind_eq_some_iff.mp heard
      have here := agrees_apply bounded first
      have there := ih (here.bounded bounded) rest
      exact ⟨there.harmed.trans here.harmed,
        fun most => there.bounded (here.bounded most),
        fun exactly => there.counted (here.counted exactly)⟩

end Counting

section Runs

variable {watcher : IocpTcpConnectionWatcher}

/-- What the flags of an open watcher say of the kernel and the event loop. An
operation is in flight from its post until its packet is taken from the batch,
and no code of the watcher is left to run outside its handlers. -/
structure FlagsAgree (scene : (component watcher).Scene) : Prop where
  flags : State.closed scene.store.state = false → ∀ side,
    State.flag scene.store.state side = true ↔
      (inFlight scene.store.toOutside).count side = 1
  single : ∀ side, (inFlight scene.store.toOutside).count side ≤ 1
  untouched : scene.store.harmed = []
  outstanding : State.attached scene.store.state = true →
    State.closed scene.store.state = false →
    (∀ point, .code point ∉ scene.stack) →
    .recv ∈ inFlight scene.store.toOutside

/-- While the watcher is open, no operation completes before its handle is
associated with the port, and no packet is dropped. -/
def NothingLost (scene : (component watcher).Scene) :
    (component watcher).SceneLabel → Prop
  | .complete _ _ =>
      State.closed scene.store.state = true ∨
        scene.store.loop.associated = true
  | .drop => State.closed scene.store.state = true
  | _ => True

structure Flows (scene : (component watcher).Scene) : Prop where
  valid : Valid scene.store.state
  bounded : Bounded (State.flag scene.store.state)
    (inFlight scene.store.toOutside)
  counted : State.closed scene.store.state = false →
    Counted (State.flag scene.store.state) (inFlight scene.store.toOutside)
  untouched : scene.store.harmed = []
  settled : State.attached scene.store.state = true →
    State.closed scene.store.state = false →
    State.receiving scene.store.state = true ∨ Rearming scene.stack

theorem closed_call {state : State} (closed : state.closed = true)
    (valid : Valid state) (request : Request) :
    (call watcher state request).store.closed = true := by
  have gone : state.fd = none := by
    simpa [Valid, closed] using valid
  cases request with
  | start answer =>
      simp only [call, start]
      split
      · exact closed
      · simp [startRecv, gone, closed]
  | stop =>
      simp only [call, stop]
      split
      · exact closed
      · exact closed
  | trySend data answer => simpa [call, trySend, gone] using closed
  | shutdownWrite => simpa [call, gone] using closed
  | close => exact closed_closeNow state

theorem closed_resume {state : State} (closed : state.closed = true)
    {point : Point} {input : Input} {turn : Turn}
    (resumed : resume watcher state point input = some turn) :
    turn.store.closed = true := by
  unfold resume at resumed
  split at resumed
  · cases resumed
    exact closed_closeNow state
  · cases resumed
    exact closed_closeNow state
  · cases resumed
    exact closed_closeNow state
  · cases resumed
    exact closed
  · rw [if_pos closed] at resumed
    cases resumed
    exact closed
  · cases resumed

variable {scene after : (component watcher).Scene}

theorem flows_take {outside : Outside watcher} {flags : Side → Bool}
    {turn : Turn} {below : List (Frame Point)}
    (untouched : outside.harmed = [])
    (bounded : Bounded flags (inFlight outside))
    (counted : turn.store.closed = false → Counted flags (inFlight outside))
    (conducts : Conducts flags turn)
    (settled : turn.store.attached = true → turn.store.closed = false →
      turn.store.receiving = true ∨ Rearming (turn.push ++ below)) :
    Flows (scene.take ((component watcher).lift outside turn) below) := by
  have agrees := agrees_turn bounded conducts.heard
  exact {
    valid := conducts.valid
    bounded := agrees.bounded bounded
    counted := fun isOpen => agrees.counted (counted isOpen)
    untouched := agrees.harmed.trans untouched
    settled }

theorem settled_of_keeps {turn : Turn} {below : List (Frame Point)}
    (flows : Flows scene) (keeps : Keeps scene.store.state turn)
    (remains : Rearming scene.stack → Rearming below)
    (attached : turn.store.attached = true)
    (isOpen : turn.store.closed = false) :
    turn.store.receiving = true ∨ Rearming (turn.push ++ below) := by
  cases keeps attached isOpen with
  | inl settled => exact settled.imp_right (·.append below)
  | inr missing =>
      obtain ⟨wasAttached, wasOpen, idle⟩ := missing
      cases flows.settled wasAttached wasOpen with
      | inl receives => exact Bool.noConfusion (idle.symm.trans receives)
      | inr rearming =>
          obtain ⟨point, member, isRearming⟩ := remains rearming
          exact .inr ⟨point, List.mem_append_right turn.push member,
            isRearming⟩

theorem flows_completion {outside : Outside watcher} {side : Side}
    {outcome : Outcome} (flows : Flows scene)
    (isOpen : State.closed scene.store.state = false)
    (outsideHandlers : scene.stack = [])
    (untouched : outside.harmed = [])
    (ended : (inFlight scene.store.toOutside).Perm (side :: inFlight outside)) :
    Flows (scene.take ((component watcher).lift outside
      (onCompletion watcher scene.store.state side outcome)) []) := by
  obtain ⟨conducts, keeps⟩ :=
    @conducts_onCompletion watcher _ flows.valid isOpen side outcome
  apply flows_take untouched (flows.bounded.ended ended)
    (fun _ => (flows.counted isOpen).ended ended) conducts
  refine settled_of_keeps flows keeps ?_
  rw [outsideHandlers]
  exact id

theorem flows_turn {turn : Turn} {below : List (Frame Point)}
    (flows : Flows scene)
    (conducts : Conducts (State.flag scene.store.state) turn)
    (shut : State.closed scene.store.state = true →
      turn.store.closed = true)
    (settled : turn.store.attached = true → turn.store.closed = false →
      turn.store.receiving = true ∨ Rearming (turn.push ++ below)) :
    Flows (scene.take ((component watcher).lift scene.store.toOutside turn)
      below) := by
  refine flows_take flows.untouched flows.bounded ?_ conducts settled
  intro isOpen
  apply flows.counted
  cases closed : State.closed scene.store.state with
  | false => rfl
  | true => exact Bool.noConfusion (isOpen.symm.trans (shut closed))

theorem flows_call (flows : Flows scene) (request : Request) :
    Flows (scene.take ((component watcher).lift scene.store.toOutside
      (call watcher scene.store.state request)) scene.stack) :=
  flows_turn flows (conducts_call flows.valid request)
    (fun closed => closed_call closed flows.valid request)
    (settled_of_keeps flows (keeps_call flows.valid request) id)

theorem flows_resume {point : Point} {input : Input}
    {below : List (Frame Point)} {turn : Turn} (flows : Flows scene)
    (shape : scene.stack = .code point :: below)
    (resumed : resume watcher scene.store.state point input = some turn) :
    Flows (scene.take ((component watcher).lift scene.store.toOutside turn)
      below) := by
  refine flows_turn flows (conducts_resume flows.valid resumed)
    (fun closed => closed_resume closed resumed) ?_
  have settles := settles_resume flows.valid resumed
  split at settles
  · intro attached isOpen
    exact (settles attached isOpen).imp_right (·.append below)
  · next runsOut =>
      apply settled_of_keeps flows settles
      rintro ⟨other, member, isRearming⟩
      rw [shape] at member
      cases List.mem_cons.mp member with
      | inl same =>
          cases same
          exact absurd isRearming runsOut
      | inr below => exact ⟨other, below, isRearming⟩

theorem flows_handled {op : Side}
    {loop : IocpLoop Side Side Outcome} {outcome : Outcome}
    (flows : Flows scene) (outsideHandlers : scene.stack = [])
    (dispatched : scene.store.loop.dispatch = some (op, loop)) :
    Flows (scene.take ((component watcher).lift
      { scene.store.toOutside with loop }
      (onCompletion watcher scene.store.state op outcome)) []) := by
  have ended : (inFlight scene.store.toOutside).Perm
      (op :: loop.port.inFlight) :=
    CompletionPort.inFlight_next (IocpLoop.dispatch_next dispatched)
  cases closed : State.closed scene.store.state with
  | false =>
      exact flows_completion flows closed outsideHandlers flows.untouched ended
  | true =>
      have same := @onCompletion_of_closed watcher _ closed op outcome
      rw [same]
      refine flows_take flows.untouched (flows.bounded.lost ended) ?_
        (.plain flows.valid rfl rfl) ?_
      · intro isOpen
        exact Bool.noConfusion (closed.symm.trans isOpen)
      · intro _ isOpen
        exact Bool.noConfusion (closed.symm.trans isOpen)

theorem flows_withLoop {loop : IocpLoop Side Side Outcome}
    (flows : Flows scene)
    (bounded : Bounded (State.flag scene.store.state) loop.port.inFlight)
    (counted : State.closed scene.store.state = false →
      Counted (State.flag scene.store.state) loop.port.inFlight) :
    Flows (IocpComponent.withLoop scene loop) where
  valid := flows.valid
  bounded := bounded
  counted := counted
  untouched := flows.untouched
  settled := flows.settled

theorem flows_sameFlight {loop : IocpLoop Side Side Outcome}
    (flows : Flows scene)
    (same : loop.port.inFlight.Perm (inFlight scene.store.toOutside)) :
    Flows (IocpComponent.withLoop scene loop) := by
  apply flows_withLoop flows
  · intro side
    rw [same.count_eq]
    exact flows.bounded side
  · intro isOpen side
    rw [same.count_eq]
    exact flows.counted isOpen side

theorem flows_lost {op : Side} {loop : IocpLoop Side Side Outcome}
    (flows : Flows scene)
    (closed : State.closed scene.store.state = true)
    (lost : (inFlight scene.store.toOutside).Perm
      (op :: loop.port.inFlight)) :
    Flows (IocpComponent.withLoop scene loop) := by
  apply flows_withLoop flows (flows.bounded.lost lost)
  intro isOpen
  exact Bool.noConfusion (closed.symm.trans isOpen)

theorem flows_complete {op : Side} {result : Outcome}
    (flows : Flows scene)
    (kept : NothingLost scene (.complete op result))
    (member : op ∈ scene.store.loop.port.pending) :
    Flows (IocpComponent.withLoop scene { scene.store.loop with
      port := scene.store.loop.port.complete (component watcher).record
        scene.store.loop.associated op result }) := by
  cases associated : scene.store.loop.associated with
  | true =>
      apply flows_sameFlight flows
      exact CompletionPort.inFlight_complete result member
  | false =>
      have closed : State.closed scene.store.state = true :=
        kept.resolve_right fun told =>
          Bool.noConfusion (associated.symm.trans told)
      apply flows_lost flows closed
      exact CompletionPort.inFlight_lose result member

theorem flows_step {label : (component watcher).SceneLabel}
    (flows : Flows scene) (kept : NothingLost scene label)
    (stepped : IocpComponent.sceneStep scene label = some after) :
    Flows after := by
  cases IocpComponent.moves_of_step stepped with
  | completed member => exact flows_complete flows kept member
  | waited waited =>
      exact flows_sameFlight flows
        (.of_eq (IocpLoop.inFlight_wait waited))
  | dropped dropped =>
      obtain ⟨op, next⟩ := IocpLoop.drop_next dropped
      exact flows_lost flows kept (CompletionPort.inFlight_next next)
  | finished finished =>
      exact flows_sameFlight flows (.of_eq
        (congrArg CompletionPort.inFlight
          (IocpLoop.port_finishDispatch finished)))
  | called userOnTop called =>
      cases called
      exact flows_call flows _
  | handled outside dispatched handled =>
      cases handled
      exact flows_handled flows outside dispatched
  | resumed shape resumed => exact flows_resume flows shape resumed
  | left shape =>
      refine ⟨flows.valid, flows.bounded, flows.counted, flows.untouched, ?_⟩
      intro attached isOpen
      refine (flows.settled attached isOpen).imp_right ?_
      rintro ⟨point, member, isRearming⟩
      rw [shape] at member
      cases List.mem_cons.mp member with
      | inl same => cases same
      | inr below => exact ⟨point, below, isRearming⟩

theorem Flows.flagsAgree (flows : Flows scene) : FlagsAgree scene where
  flags := by
    intro isOpen side
    have exactly := flows.counted isOpen side
    cases flag : State.flag scene.store.state side with
    | _ => simp [exactly, flag]
  single := fun side =>
    Nat.le_trans (flows.bounded side) (Bool.toNat_le _)
  untouched := flows.untouched
  outstanding := by
    intro attached isOpen nothingLeft
    have exactly := flows.counted isOpen .recv
    cases flows.settled attached isOpen with
    | inl receives =>
        have flag : State.flag scene.store.state .recv = true := receives
        rw [flag] at exactly
        apply List.count_pos_iff.mp
        rw [exactly]
        exact Nat.one_pos
    | inr rearming =>
        obtain ⟨point, member, -⟩ := rearming
        exact absurd member (nothingLeft point)

theorem flows_of_initial
    (isInitial : (component watcher).scenes.initial scene) :
    Flows scene := by
  obtain ⟨⟨outside, state⟩, stack, log⟩ := scene
  obtain ⟨⟨fd, rfl⟩, rfl, rfl, -⟩ := isInitial
  have counted : Counted (State.flag { fd := some fd })
      (inFlight ({} : Outside watcher)) := by
    intro side
    cases side with
    | _ => rfl
  exact ⟨rfl, fun side => Nat.le_of_eq (counted side), fun _ => counted, rfl, nofun⟩

theorem flags_agree
    (reached : (component watcher).scenes.ReachableUnder NothingLost scene) :
    FlagsAgree scene := by
  have flows : Flows scene :=
    reached.invariant _ (fun _ => flows_of_initial)
      fun _ _ _ flows kept stepped => flows_step flows kept stepped
  exact flows.flagsAgree

instance (scene : (component watcher).Scene)
    (label : (component watcher).SceneLabel) :
    Decidable (NothingLost scene label) := by
  unfold NothingLost
  split <;> infer_instance

end Runs

section Samples

def sampleWatcher : IocpTcpConnectionWatcher where
  option := {}
  callbacks := {
    onRecv := true
    onError := true
    onClose := true
    onSendReady := true }

abbrev sampleComponent : IocpComponent := component sampleWatcher

def freshScene : sampleComponent.Scene where
  store := ⟨{}, ({ fd := some 5 } : State)⟩
  stack := []
  log := []

theorem freshScene_initial : sampleComponent.scenes.initial freshScene :=
  ⟨⟨5, rfl⟩, rfl, rfl, rfl⟩

def asked (request : Request) : sampleComponent.SceneLabel :=
  .code (.call request)

def byteArrives : List sampleComponent.SceneLabel :=
  [.complete Side.recv (Outcome.done [(1 : Byte)]), .wait 1]

def byteHandled : List sampleComponent.SceneLabel :=
  [.code (.ready ()), .code .leave, .code (.resume (Input.recv .ok))]

theorem flags_agree_byteHandled :
    ∃ scene : sampleComponent.Scene,
      State.receiving scene.store.state = true ∧ FlagsAgree scene := by
  obtain ⟨scene, run, receives⟩ : ∃ after,
      sampleComponent.scenes.replay freshScene
        (asked (.start .ok) :: byteArrives ++ byteHandled) = some after ∧
      State.receiving after.store.state = true := ⟨_, rfl, rfl⟩
  have kept : sampleComponent.scenes.Follows NothingLost freshScene
      (asked (.start .ok) :: byteArrives ++ byteHandled) := by
    decide +kernel
  exact ⟨scene, receives, flags_agree
    (System.ReachableUnder.replay _ (.start freshScene_initial) kept run)⟩

theorem receive_lost :
    ¬ ∀ scene, sampleComponent.scenes.Reachable scene → FlagsAgree scene := by
  obtain ⟨scene, run, isOpen, receives, idle⟩ : ∃ after,
      sampleComponent.scenes.replay freshScene
        ([asked (.start .ok), asked .stop] ++ byteArrives ++
          [.drop, .finishDispatch, asked (.start .ok)]) = some after ∧
      State.closed after.store.state = false ∧
      State.receiving after.store.state = true ∧
      inFlight after.store.toOutside = [] := ⟨_, rfl, rfl, rfl, rfl⟩
  intro agree
  have reached := System.Reachable.replay _ (.start freshScene_initial) run
  have exactly := ((agree scene reached).flags isOpen .recv).mp receives
  rw [idle] at exactly
  cases exactly

end Samples

end RopHive.Network.IocpConnection
