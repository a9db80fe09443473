import RopHive.Network.IocpFlags

namespace RopHive.Network.IocpConnection

open Transition
open RopHive.Schedule (IocpLoop)

/-! The bytes that the kernel receives, and those that `on_recv_` is given. -/

def Outcome.bytes : Outcome → List Byte
  | .done data => data
  | .failed _ => []

def Action.chunk : Action → List Byte
  | .onRecv chunk => chunk
  | _ => []

def delivered (log : List Action) : List Byte :=
  log.flatMap Action.chunk

section Waiting

variable {watcher : IocpTcpConnectionWatcher} (outside : Outside watcher)

def pending : List Side :=
  outside.loop.port.pending

/-- Packets that the event loop will hand to the watcher. -/
def announced : List Side :=
  outside.loop.port.batch ++ outside.loop.port.queued

def received : Outcome :=
  (component watcher).overlappedResult outside.loop Side.recv

/-- The bytes of a receive that has completed and whose packet is on its way. -/
def waiting : List Byte :=
  if .recv ∈ announced outside then (received outside).bytes else []

end Waiting

/-- The bytes that a completion brings to an open watcher. -/
def brings (closed : Bool) : Side → Outcome → List Byte
  | .recv, outcome => if closed then [] else outcome.bytes
  | .send, _ => []

section Effects

variable {watcher : IocpTcpConnectionWatcher} {flags after : Side → Bool}
  {outside : Outside watcher}

theorem count_inFlight (outside : Outside watcher) (side : Side) :
    (inFlight outside).count side =
      (pending outside).count side + (announced outside).count side := by
  have shape : inFlight outside = pending outside ++ announced outside :=
    List.append_assoc _ _ _
  rw [shape, List.count_append]

theorem not_announced (bounded : Bounded flags (inFlight outside))
    {side : Side} (idle : flags side = false) : side ∉ announced outside := by
  intro member
  have atMost := bounded side
  have some := List.count_pos_iff.mpr member
  rw [count_inFlight, idle, Bool.toNat_false] at atMost
  omega

theorem waiting_congr {before after : Outside watcher}
    (same : announced after = announced before)
    (result : .recv ∈ announced before →
      after.loop.port.result Side.recv = before.loop.port.result Side.recv) :
    waiting after = waiting before := by
  unfold waiting
  rw [same]
  split
  · next member =>
      have equal : received after = received before :=
        congrArg (Option.getD · _) (result member)
      rw [equal]
  · rfl

theorem waiting_of_port {before after : Outside watcher}
    (batch : after.loop.port.batch = before.loop.port.batch)
    (queued : after.loop.port.queued = before.loop.port.queued)
    (result : .recv ∈ announced before →
      after.loop.port.result Side.recv = before.loop.port.result Side.recv) :
    waiting after = waiting before := by
  apply waiting_congr _ result
  rw [announced, batch, queued, announced]

theorem waiting_apply {effect : Effect}
    (bounded : Bounded flags (inFlight outside))
    (heard : hear flags effect = some after) :
    waiting (IocpComponent.Outside.apply outside effect) = waiting outside := by
  cases effect with
  | register op =>
      obtain ⟨-, port⟩ := @IocpComponent.apply_register _ outside op
      exact waiting_of_port (congrArg _ port) (congrArg _ port)
        fun _ => congrFun (congrArg _ port) _
  | post side =>
      obtain ⟨free, -⟩ := Option.ite_none_left_eq_some.mp heard
      refine waiting_of_port rfl rfl fun member => ?_
      have idle := not_announced bounded (Bool.eq_false_iff.mpr free)
      have other : Side.recv ≠ side := fun same => idle (same ▸ member)
      exact Function.update_of_ne other _ _
  | reset side =>
      obtain ⟨free, -⟩ := Option.ite_none_left_eq_some.mp heard
      have unused := Bool.eq_false_iff.mpr free
      obtain ⟨-, port⟩ :=
        IocpComponent.apply_reset (idle_of_bounded bounded unused)
      refine waiting_of_port ((congrArg CompletionPort.batch port).trans rfl)
        ((congrArg CompletionPort.queued port).trans rfl) fun member => ?_
      have idle := not_announced bounded unused
      have other : Side.recv ≠ side := fun same => idle (same ▸ member)
      exact (congrFun (congrArg CompletionPort.result port) Side.recv).trans
        (Function.update_of_ne other _ _)
  | touch side =>
      obtain ⟨free, -⟩ := Option.ite_none_left_eq_some.mp heard
      exact congrArg waiting (IocpComponent.apply_touch
        (idle_of_bounded bounded (Bool.eq_false_iff.mpr free)))

theorem waiting_turn {effects : List Effect}
    (bounded : Bounded flags (inFlight outside))
    (heard : effects.foldlM hear flags = some after) :
    waiting (effects.foldl IocpComponent.Outside.apply outside) =
      waiting outside := by
  induction effects generalizing outside flags with
  | nil => rfl
  | cons effect effects ih =>
      obtain ⟨middle, first, rest⟩ := Option.bind_eq_some_iff.mp heard
      have here := agrees_apply bounded first
      exact (ih (here.bounded bounded) rest).trans (waiting_apply bounded first)

end Effects

section Turns

variable {watcher : IocpTcpConnectionWatcher} {state : State} {turn : Turn}

structure Mute (state : State) (turn : Turn) : Prop where
  silent : delivered turn.emitted = []
  peerClosed : turn.store.peerClosed = state.peerClosed

theorem delivered_append (first second : List Action) :
    delivered (first ++ second) = delivered first ++ delivered second :=
  List.flatMap_append

theorem delivered_of_silent {actions : List Action}
    (silent : ∀ action ∈ actions, action.chunk = []) :
    delivered actions = [] :=
  List.flatMap_eq_nil_iff.mpr silent

theorem delivered_callBack (state : State) (present : Bool) {action : Action}
    (silent : action.chunk = []) :
    delivered (Turn.callBack state present action : Turn).emitted = [] := by
  cases present with
  | false => rfl
  | true =>
      exact delivered_of_silent
        (List.forall_mem_cons.mpr ⟨silent, nofun⟩)

theorem Mute.andThen (mute : Mute state turn) (frames : List (Frame Point)) :
    Mute state (turn.andThen frames) :=
  ⟨mute.silent, mute.peerClosed⟩

theorem mute_rest : Mute state (.rest state) := ⟨rfl, rfl⟩

theorem mute_actions {actions : List Action}
    (silent : ∀ action ∈ actions, action.chunk = []) (mute : Mute state turn) :
    Mute state (turn.preceded actions) where
  silent := by
    rw [Turn.preceded_emitted, delivered_append, mute.silent,
      delivered_of_silent silent]
    rfl
  peerClosed := mute.peerClosed

theorem mute_callBack (present : Bool) {action : Action} {after : State}
    (silent : action.chunk = [])
    (peerClosed : after.peerClosed = state.peerClosed) :
    Mute state (.callBack after present action) where
  silent := delivered_callBack after present silent
  peerClosed := by
    rw [Turn.callBack_store]
    exact peerClosed

theorem mute_error {after : State} (present : Bool) (err : Nat)
    (frames : List (Frame Point))
    (peerClosed : after.peerClosed = state.peerClosed) :
    Mute state ((Turn.callBack after present (.onError err)).andThen frames) :=
  (mute_callBack present (by rfl) peerClosed).andThen frames

theorem chunk_closeFd (fd : Option Nat) :
    ∀ action ∈ closeFd fd, action.chunk = [] := by
  cases fd with
  | none => exact nofun
  | some fd => exact List.forall_mem_cons.mpr ⟨rfl, nofun⟩

theorem chunk_stop (state : State) :
    ∀ action ∈ (stop state).2, action.chunk = [] := by
  unfold stop
  split
  · exact List.forall_mem_cons.mpr ⟨rfl, nofun⟩
  · exact nofun

theorem peerClosed_stop (state : State) :
    (stop state).1.peerClosed = state.peerClosed := by
  unfold stop
  split
  · rfl
  · rfl

theorem mute_closeNow : Mute state (closeNow watcher state) := by
  unfold closeNow
  split
  · exact mute_rest
  · apply mute_actions
    · exact List.forall_mem_append.mpr ⟨chunk_stop _, chunk_closeFd _⟩
    · exact mute_callBack _ rfl (peerClosed_stop _)

theorem mute_startRecv (answer : WsaAnswer) :
    Mute state (startRecv watcher state answer) := by
  unfold startRecv
  split
  · exact mute_rest
  · cases answer.failure with
    | some err =>
        refine mute_actions ?_ (mute_error _ err _ rfl)
        exact List.forall_mem_cons.mpr ⟨rfl, nofun⟩
    | none => exact ⟨rfl, rfl⟩

theorem mute_call (request : Request) :
    Mute state (call watcher state request) := by
  cases request with
  | start answer =>
      simp only [call, start]
      split
      · exact mute_rest
      · have mute := @mute_startRecv watcher { state with attached := true }
          answer
        exact mute_actions (List.forall_mem_cons.mpr ⟨rfl, by simp⟩)
          ⟨mute.silent, mute.peerClosed⟩
  | stop =>
      exact mute_actions (chunk_stop state) ⟨rfl, peerClosed_stop state⟩
  | trySend data answer =>
      have returned (result : TrySendResult) :
          ∀ action ∈ [Action.returned result], action.chunk = [] :=
        List.forall_mem_cons.mpr ⟨rfl, by simp⟩
      simp only [call, trySend]
      split
      · exact mute_actions (returned _) mute_rest
      · split
        · exact mute_actions (returned _) mute_rest
        · split
          · exact mute_actions (returned _) ⟨rfl, rfl⟩
          · unfold postSend
            cases answer.failure with
            | some err =>
                refine mute_actions ?_ (mute_error _ err _ rfl)
                simp [Action.chunk]
            | none => exact ⟨rfl, rfl⟩
  | shutdownWrite =>
      simp only [call]
      split
      · exact mute_rest
      · exact ⟨rfl, rfl⟩
  | close => exact mute_closeNow

theorem mute_resume {point : Point} {input : Input}
    (resumed : resume watcher state point input = some turn) :
    Mute state turn := by
  unfold resume at resumed
  split at resumed
  · cases resumed
    exact mute_closeNow
  · cases resumed
    exact mute_closeNow
  · cases resumed
    exact mute_closeNow.andThen _
  · cases resumed
    exact ⟨rfl, rfl⟩
  · split at resumed
    · cases resumed
      exact mute_rest
    · cases resumed
      exact mute_startRecv _
  · cases resumed

structure HandsUp (state : State) (side : Side) (outcome : Outcome)
    (turn : Turn) : Prop where
  handed : delivered turn.emitted = brings false side outcome
  noticed : turn.store.peerClosed = true →
    state.peerClosed = true ∨ side = .recv ∧ turn.store.closed = true

theorem Mute.handsUp {before : State} {side : Side} {outcome : Outcome}
    (mute : Mute before turn) (same : before.peerClosed = state.peerClosed)
    (nothing : brings false side outcome = []) :
    HandsUp state side outcome turn where
  handed := mute.silent.trans nothing.symm
  noticed := fun peerClosed =>
    .inl (same.symm.trans (mute.peerClosed.symm.trans peerClosed))

theorem mute_completionError (err : Nat) :
    Mute state (completionError watcher state err) :=
  mute_error _ err _ rfl

theorem handsUp_onRecvComplete (onRecv : watcher.callbacks.onRecv = true)
    (outcome : Outcome) :
    HandsUp state .recv outcome (onRecvComplete watcher state outcome) := by
  unfold onRecvComplete
  split
  · exact (mute_completionError _).handsUp rfl rfl
  · exact ⟨mute_closeNow.silent, fun _ => .inr ⟨rfl, closed_closeNow _⟩⟩
  · rw [onRecv]
    exact ⟨List.append_nil _, .inl⟩

theorem handsUp_onSendComplete (outcome : Outcome) :
    HandsUp state .send outcome (onSendComplete watcher state outcome) := by
  unfold onSendComplete
  split
  · exact (mute_completionError _).handsUp rfl rfl
  · simp only
    split
    · refine Mute.handsUp (mute_actions ?_ (mute_callBack _ rfl rfl)) rfl rfl
      exact List.forall_mem_cons.mpr ⟨rfl, nofun⟩
    · exact ⟨rfl, .inl⟩

theorem handsUp_onCompletion (onRecv : watcher.callbacks.onRecv = true)
    (valid : Valid state) (isOpen : state.closed = false) (side : Side)
    (outcome : Outcome) :
    HandsUp state side outcome (onCompletion watcher state side outcome) := by
  have opened : state.fd ≠ none := by
    intro gone
    rw [Valid, gone, isOpen] at valid
    cases valid
  have runs : ¬ (state.fd = none ∨ state.closed = true) :=
    not_or.mpr ⟨opened, ne_true_of_eq_false isOpen⟩
  unfold onCompletion
  rw [if_neg runs]
  cases side with
  | recv => exact handsUp_onRecvComplete onRecv outcome
  | send => exact handsUp_onSendComplete outcome

end Turns

section Runs

variable {watcher : IocpTcpConnectionWatcher}

def observeArrivals : System.Observer (component watcher).Scene
    (component watcher).SceneLabel (List Byte) :=
  fun scene label _ arrived =>
    match label with
    | .complete op result =>
        arrived ++ brings (State.closed scene.store.state) op result
    | _ => arrived

/-- The bytes that have arrived are handed up once and in their order. Those of
one receive at most may still be on their way to an open watcher, and none were
left when the peer closed the connection. -/
structure StreamKept (scene : (component watcher).Scene)
    (arrived : List Byte) : Prop where
  inOrder : delivered scene.log <+: arrived
  isOpen : State.closed scene.store.state = false →
    arrived = delivered scene.log ++ waiting scene.store.toOutside
  ended : State.peerClosed scene.store.state = true →
    arrived = delivered scene.log

structure Streams (scene : (component watcher).Scene)
    (arrived : List Byte) : Prop where
  flows : Flows scene
  kept : StreamKept scene arrived
  noticed : State.peerClosed scene.store.state = true →
    State.closed scene.store.state = true

variable {scene after : (component watcher).Scene} {arrived : List Byte}

theorem Streams.open (streams : Streams scene arrived)
    (isOpen : State.closed scene.store.state = false) :
    State.peerClosed scene.store.state = false := by
  cases noticed : State.peerClosed scene.store.state with
  | false => rfl
  | true =>
      exact Bool.noConfusion (isOpen.symm.trans (streams.noticed noticed))

theorem streams_withLoop {loop : IocpLoop Side Side Outcome}
    (streams : Streams scene arrived)
    (flows : Flows (IocpComponent.withLoop scene loop))
    (same : State.closed scene.store.state = false →
      waiting { scene.store.toOutside with loop } =
        waiting scene.store.toOutside) :
    Streams (IocpComponent.withLoop scene loop) arrived where
  flows := flows
  kept := {
    inOrder := streams.kept.inOrder
    isOpen := fun isOpen =>
      (streams.kept.isOpen isOpen).trans
        (congrArg (delivered scene.log ++ ·) (same isOpen).symm)
    ended := streams.kept.ended }
  noticed := streams.noticed

theorem kept_taken {outside : Outside watcher} {turn : Turn}
    {below : List (Frame Point)} {bytes : List Byte}
    (handed : delivered turn.emitted = bytes)
    (kept : delivered scene.log ++ bytes <+: arrived)
    (isOpen : turn.store.closed = false →
      arrived = delivered scene.log ++ bytes ++
        waiting ((effects turn).foldl IocpComponent.Outside.apply outside))
    (ended : turn.store.peerClosed = true →
      arrived = delivered scene.log ++ bytes) :
    StreamKept (scene.take ((component watcher).lift outside turn) below)
      arrived := by
  have total := (delivered_append scene.log turn.emitted).trans
    (congrArg (delivered scene.log ++ ·) handed)
  exact ⟨total.symm ▸ kept, fun stays => total.symm ▸ isOpen stays,
    fun noticed => total.symm ▸ ended noticed⟩

theorem streams_mute {turn : Turn} {below : List (Frame Point)}
    (streams : Streams scene arrived)
    (flows : Flows (scene.take ((component watcher).lift scene.store.toOutside
      turn) below))
    (mute : Mute scene.store.state turn)
    (conducts : Conducts (State.flag scene.store.state) turn)
    (shut : State.closed scene.store.state = true →
      turn.store.closed = true) :
    Streams (scene.take ((component watcher).lift scene.store.toOutside turn)
      below) arrived := by
  refine ⟨flows, kept_taken mute.silent ?_ ?_ ?_, ?_⟩
  · rw [List.append_nil]
    exact streams.kept.inOrder
  · intro isOpen
    have wasOpen : State.closed scene.store.state = false := by
      cases closed : State.closed scene.store.state with
      | false => rfl
      | true => exact Bool.noConfusion (isOpen.symm.trans (shut closed))
    rw [List.append_nil, waiting_turn streams.flows.bounded conducts.heard]
    exact streams.kept.isOpen wasOpen
  · intro noticed
    rw [List.append_nil]
    exact streams.kept.ended (mute.peerClosed.symm.trans noticed)
  · intro noticed
    exact shut (streams.noticed (mute.peerClosed.symm.trans noticed))

theorem waiting_complete_recv {outside : Outside watcher} {outcome : Outcome}
    {loop : IocpLoop Side Side Outcome}
    (port : loop.port = outside.loop.port.complete (component watcher).record
      true Side.recv outcome) :
    waiting { outside with loop } = outcome.bytes := by
  have told : Side.recv ∈ announced { outside with loop } := by
    have queued : loop.port.queued = outside.loop.port.queued ++ [.recv] := by
      rw [port]
      rfl
    rw [announced, queued]
    exact List.mem_append_right _
      (List.mem_append_right _ List.mem_cons_self)
  have result : received { outside with loop } = outcome := by
    have written : loop.port.result Side.recv = some outcome := by
      rw [port]
      exact Function.update_self Side.recv (some outcome)
        outside.loop.port.result
    exact congrArg (Option.getD · _) written
  rw [waiting, if_pos told, result]

theorem waiting_complete_send {outside : Outside watcher} {outcome : Outcome}
    {loop : IocpLoop Side Side Outcome} {told : Bool}
    (port : loop.port = outside.loop.port.complete (component watcher).record
      told Side.send outcome) :
    waiting { outside with loop } = waiting outside := by
  have same : Side.recv ∈ announced { outside with loop } ↔
      Side.recv ∈ announced outside := by
    have more : announced { outside with loop } =
        announced outside ++ if told then [Side.send] else [] := by
      unfold announced
      rw [port]
      cases told with
      | false => exact (List.append_nil _).symm
      | true => exact (List.append_assoc _ _ _).symm
    rw [more, List.mem_append]
    cases told with
    | _ => simp
  have kept : received { outside with loop } = received outside := by
    have unwritten : loop.port.result Side.recv =
        outside.loop.port.result Side.recv := by
      rw [port]
      exact Function.update_of_ne (show Side.recv ≠ Side.send by decide)
        (some outcome) outside.loop.port.result
    exact congrArg (Option.getD · _) unwritten
  simp only [waiting, same, kept]

theorem streams_completed {op : Side} {result : Outcome}
    (streams : Streams scene arrived)
    (kept : NothingLost scene (.complete op result))
    (member : op ∈ pending scene.store.toOutside)
    (flows : Flows (IocpComponent.withLoop scene { scene.store.loop with
      port := scene.store.loop.port.complete (component watcher).record
        scene.store.loop.associated op result })) :
    Streams (IocpComponent.withLoop scene { scene.store.loop with
      port := scene.store.loop.port.complete (component watcher).record
        scene.store.loop.associated op result })
      (arrived ++ brings (State.closed scene.store.state) op result) := by
  cases closed : State.closed scene.store.state with
  | true =>
      have nothing : brings true op result = [] := by
        cases op with
        | _ => rfl
      rw [nothing, List.append_nil]
      apply streams_withLoop streams flows
      intro isOpen
      exact Bool.noConfusion (closed.symm.trans isOpen)
  | false =>
      have associated : scene.store.loop.associated = true :=
        kept.resolve_left fun isClosed =>
          Bool.noConfusion (closed.symm.trans isClosed)
      cases op with
      | send =>
          have nothing : brings false .send result = [] := rfl
          rw [nothing, List.append_nil]
          exact streams_withLoop streams flows fun _ =>
            waiting_complete_send rfl
      | recv =>
          have stays := streams.kept.isOpen closed
          have none : waiting scene.store.toOutside = [] := by
            apply if_neg
            intro announced
            have atMost := streams.flows.bounded .recv
            have some := List.count_pos_iff.mpr member
            have more := List.count_pos_iff.mpr announced
            have flag := Bool.toNat_le
              (State.flag scene.store.state Side.recv)
            rw [count_inFlight] at atMost
            omega
          rw [none, List.append_nil] at stays
          have brought : brings false .recv result = result.bytes := rfl
          have whole : arrived ++ brings false .recv result =
              delivered scene.log ++ result.bytes := by
            rw [stays, brought]
          refine ⟨flows, ⟨?_, ?_, ?_⟩, streams.noticed⟩
          · rw [whole]
            exact List.prefix_append _ _
          · intro _
            rw [whole]
            have waits := @waiting_complete_recv watcher
              scene.store.toOutside result { scene.store.loop with
                port := scene.store.loop.port.complete
                  (component watcher).record scene.store.loop.associated
                  Side.recv result } (by rw [associated])
            exact congrArg (delivered scene.log ++ ·) waits.symm
          · intro noticed
            exact Bool.noConfusion
              (closed.symm.trans (streams.noticed noticed))

theorem waiting_dispatch {outside : Outside watcher} {flags : Side → Bool}
    {op : Side} {loop : IocpLoop Side Side Outcome}
    (bounded : Bounded flags (inFlight outside))
    (dispatched : outside.loop.dispatch = some (op, loop)) :
    waiting outside =
        brings false op ((component watcher).overlappedResult loop op) ++
          waiting { outside with loop } ∧
      (op = .recv → waiting { outside with loop } = []) := by
  obtain ⟨rest, batch, port⟩ :=
    CompletionPort.next_cases (IocpLoop.dispatch_next dispatched)
  have shape : announced outside = op :: announced { outside with loop } := by
    unfold announced
    rw [batch, port]
    rfl
  have same : received { outside with loop } = received outside := by
    have result : loop.port.result = outside.loop.port.result := by
      rw [port]
    exact congrArg (fun result : Side → Option Outcome =>
      (result Side.recv).getD _) result
  cases op with
  | recv =>
      have gone : Side.recv ∉ announced { outside with loop } := by
        intro member
        have atMost := bounded .recv
        have flag := Bool.toNat_le (flags .recv)
        have more := List.count_pos_iff.mpr member
        rw [count_inFlight, shape, List.count_cons_self] at atMost
        omega
      have none : waiting { outside with loop } = [] := if_neg gone
      have member : Side.recv ∈ announced outside := by
        rw [shape]
        exact List.mem_cons_self
      have whole : waiting outside = (received outside).bytes := if_pos member
      refine ⟨?_, fun _ => none⟩
      rw [whole, none, List.append_nil, ← same]
      rfl
  | send =>
      refine ⟨?_, nofun⟩
      have other : Side.recv ∈ announced outside ↔
          Side.recv ∈ announced { outside with loop } := by
        rw [shape, List.mem_cons]
        simp
      simp only [waiting, other, same]
      rfl

theorem streams_handled {op : Side}
    {loop : IocpLoop Side Side Outcome}
    (streams : Streams scene arrived)
    (onRecv : watcher.callbacks.onRecv = true)
    (dispatched : scene.store.loop.dispatch = some (op, loop))
    (flows : Flows (scene.take ((component watcher).lift
      { scene.store.toOutside with loop }
      (onCompletion watcher scene.store.state op
        ((component watcher).overlappedResult loop op))) [])) :
    Streams (scene.take ((component watcher).lift
      { scene.store.toOutside with loop }
      (onCompletion watcher scene.store.state op
        ((component watcher).overlappedResult loop op))) []) arrived := by
  obtain ⟨taken, last⟩ := waiting_dispatch streams.flows.bounded dispatched
  cases closed : State.closed scene.store.state with
  | true =>
      have same := @onCompletion_of_closed watcher _ closed op
        ((component watcher).overlappedResult loop op)
      rw [same] at flows ⊢
      have mute := @mute_rest scene.store.state
      refine ⟨flows, kept_taken mute.silent ?_ ?_ ?_, streams.noticed⟩
      · rw [List.append_nil]
        exact streams.kept.inOrder
      · intro isOpen
        exact Bool.noConfusion (closed.symm.trans isOpen)
      · rw [List.append_nil]
        exact streams.kept.ended
  | false =>
      have handsUp := handsUp_onCompletion onRecv streams.flows.valid closed op
        ((component watcher).overlappedResult loop op)
      have ended : (inFlight scene.store.toOutside).Perm
          (op :: loop.port.inFlight) :=
        CompletionPort.inFlight_next (IocpLoop.dispatch_next dispatched)
      obtain ⟨conducts, -⟩ := @conducts_onCompletion watcher _
        streams.flows.valid closed op
        ((component watcher).overlappedResult loop op)
      have stays := streams.kept.isOpen closed
      rw [taken, ← List.append_assoc] at stays
      refine ⟨flows, kept_taken handsUp.handed ?_ ?_ ?_, ?_⟩
      · rw [stays]
        exact List.prefix_append _ _
      · intro _
        rw [waiting_turn (streams.flows.bounded.ended ended) conducts.heard]
        exact stays
      · intro noticed
        cases handsUp.noticed noticed with
        | inl before =>
            exact Bool.noConfusion ((streams.open closed).symm.trans before)
        | inr ends =>
            rw [last ends.1, List.append_nil] at stays
            exact stays
      · intro noticed
        cases handsUp.noticed noticed with
        | inl before =>
            exact Bool.noConfusion ((streams.open closed).symm.trans before)
        | inr ends => exact ends.2

theorem waiting_wait {outside : Outside watcher} {count : Nat}
    {loop : IocpLoop Side Side Outcome}
    (waited : outside.loop.wait count = some loop) :
    waiting { outside with loop } = waiting outside := by
  obtain ⟨⟨_, dealt⟩, same⟩ := Option.ite_none_right_eq_some.mp waited
  cases same
  refine waiting_congr ?_ fun _ => rfl
  have none : outside.loop.port.batch = [] := List.isEmpty_iff.mp dealt
  unfold announced
  rw [none]
  exact List.take_append_drop count _

theorem streams_step {label : (component watcher).SceneLabel}
    (streams : Streams scene arrived)
    (onRecv : watcher.callbacks.onRecv = true)
    (kept : NothingLost scene label)
    (stepped : IocpComponent.sceneStep scene label = some after) :
    Streams after (observeArrivals scene label after arrived) := by
  have flows := flows_step streams.flows kept stepped
  cases IocpComponent.moves_of_step stepped with
  | completed member => exact streams_completed streams kept member flows
  | waited waited =>
      exact streams_withLoop streams flows fun _ => waiting_wait waited
  | dropped dropped =>
      apply streams_withLoop streams flows
      intro isOpen
      exact Bool.noConfusion (isOpen.symm.trans kept)
  | finished finished =>
      apply streams_withLoop streams flows
      intro _
      have port := IocpLoop.port_finishDispatch finished
      exact waiting_of_port (congrArg CompletionPort.batch port)
        (congrArg CompletionPort.queued port)
        fun _ => congrFun (congrArg CompletionPort.result port) _
  | called userOnTop called =>
      cases called
      exact streams_mute streams flows (mute_call _)
        (conducts_call streams.flows.valid _)
        fun closed => closed_call closed streams.flows.valid _
  | handled outside dispatched handled =>
      cases handled
      exact streams_handled streams onRecv dispatched flows
  | resumed shape resumed =>
      exact streams_mute streams flows (mute_resume resumed)
        (conducts_resume streams.flows.valid resumed)
        fun closed => closed_resume closed resumed
  | left shape =>
      exact ⟨flows, ⟨streams.kept.inOrder, streams.kept.isOpen,
        streams.kept.ended⟩, streams.noticed⟩

theorem streams_of_initial
    (isInitial : (component watcher).scenes.initial scene) :
    Streams scene [] := by
  have flows := flows_of_initial isInitial
  obtain ⟨⟨outside, state⟩, stack, log⟩ := scene
  obtain ⟨⟨fd, rfl⟩, rfl, rfl, rfl⟩ := isInitial
  exact ⟨flows, ⟨List.prefix_rfl, fun _ => rfl, fun _ => rfl⟩, nofun⟩

/-- Where nothing is lost, `on_recv_` is given the bytes that the kernel
receives as they come. -/
theorem stream_kept (onRecv : watcher.callbacks.onRecv = true)
    (reached : ((component watcher).scenes.withHistory []
      observeArrivals).ReachableUnder
        (fun observed => NothingLost observed.1) (scene, arrived)) :
    StreamKept scene arrived := by
  have streams : Streams scene arrived :=
    System.withHistory_invariant Streams (fun _ => streams_of_initial)
      (fun _ _ _ _ streams kept stepped =>
        streams_step streams onRecv kept stepped) reached
  exact streams.kept

end Runs

section Samples

def byteThenEnd : List sampleComponent.SceneLabel :=
  asked (.start .ok) :: byteArrives ++ byteHandled ++
    [IocpComponent.SceneLabel.finishDispatch,
      .complete Side.recv (Outcome.done []), .wait 1, .code (.ready ())]

theorem stream_kept_byteThenEnd :
    ∃ scene : sampleComponent.Scene,
      State.peerClosed scene.store.state = true ∧
        StreamKept scene [(1 : Byte)] := by
  obtain ⟨⟨scene, arrived⟩, run, peerClosed, came⟩ : ∃ after,
      (sampleComponent.scenes.withHistory [] observeArrivals).replay
        (freshScene, []) byteThenEnd = some after ∧
      State.peerClosed after.1.store.state = true ∧
      after.2 = [(1 : Byte)] := ⟨_, rfl, rfl, rfl⟩
  have kept : (sampleComponent.scenes.withHistory []
      observeArrivals).Follows (fun observed => NothingLost observed.1)
        (freshScene, []) byteThenEnd := by
    decide +kernel
  refine ⟨scene, peerClosed, came ▸ stream_kept rfl ?_⟩
  exact System.ReachableUnder.replay _ (.start ⟨freshScene_initial, rfl⟩) kept
    run

end Samples

end RopHive.Network.IocpConnection
