import RopHive.Network.Connection
import RopHive.Schedule.EventLoopCore

namespace RopHive.Network.Connection

open Transition

/-! The write interest of a connection: cached in the watcher, in its source
and in the table of the backend. -/

section Turns

/-- What the core is told by the watcher: whether its source is to be there,
and with which events. -/
structure Told where
  attached : Bool
  events : Events
  deriving DecidableEq, Repr

def Told.hear (told : Told) : Action → Told
  | .attachSource => { told with attached := true }
  | .detachSource => { told with attached := false }
  | .setEvents events => { told with events }
  | _ => told

def State.told (state : State) : Told :=
  ⟨state.attached, state.armedEvents⟩

/-- Whether a `would_block` has been returned since the last call of
`on_send_ready_`. -/
def unanswered (pending : Bool) : Action → Bool
  | .returned result => result.wouldBlock || pending
  | .onSendReady => false
  | _ => pending

variable (watcher : TcpConnectionWatcher)

def wanted (want : Bool) : Events :=
  Events.union { writable := want } (interest watcher.backend)

/-- What a turn does to the caches and to the answers that are due. -/
structure Tells (before : State) (turn : Turn) : Prop where
  told : turn.emitted.foldl Told.hear before.told = turn.store.told
  armed : before.armedEvents = wanted watcher before.wantSendReady →
    turn.store.armedEvents = wanted watcher turn.store.wantSendReady
  due : ∀ pending, (before.wantSendReady = true → pending = true) →
    (turn.store.wantSendReady = true →
      turn.emitted.foldl unanswered pending = true)
  answers : ∀ front rest, turn.emitted = front ++ Action.onSendReady :: rest →
    ∀ pending, (before.wantSendReady = true → pending = true) →
      front.foldl unanswered pending = true
  kept : watcher.callbacks.onSendReady = true →
    turn.emitted.foldl unanswered before.wantSendReady =
      turn.store.wantSendReady

/-- The action has nothing to do with a `would_block`. -/
def settled : Action → Bool
  | .returned result => !result.wouldBlock
  | .onSendReady => false
  | _ => true

theorem unanswered_of_settled {action : Action}
    (isSettled : settled action = true) (pending : Bool) :
    unanswered pending action = pending := by
  cases action with
  | returned result =>
      have blocked : result.wouldBlock = false := by simpa [settled] using isSettled
      simp [unanswered, blocked]
  | onSendReady => cases isSettled
  | _ => rfl

theorem foldl_unanswered_of_settled {actions : List Action}
    (allSettled : ∀ action ∈ actions, settled action = true)
    (pending : Bool) : actions.foldl unanswered pending = pending := by
  induction actions with
  | nil => rfl
  | cons action actions ih =>
      rw [List.foldl_cons, unanswered_of_settled (allSettled _ (by simp))]
      exact ih fun other member => allSettled other (by simp [member])

variable {watcher} {state before : State} {turn : Turn}

theorem Tells.of_settled (told : turn.emitted.foldl Told.hear before.told =
      turn.store.told)
    (events : turn.store.armedEvents = before.armedEvents)
    (want : turn.store.wantSendReady = before.wantSendReady)
    (allSettled : ∀ action ∈ turn.emitted, settled action = true) :
    Tells watcher before turn where
  told := told
  armed := by
    rw [events, want]
    exact id
  due := by
    intro pending isDue
    rw [want, foldl_unanswered_of_settled allSettled]
    exact isDue
  answers := by
    intro front rest shape
    have answered := allSettled .onSendReady (by rw [shape]; simp)
    cases answered
  kept := by
    intro _
    rw [foldl_unanswered_of_settled allSettled, want]

theorem Tells.plain (told : turn.store.told = before.told)
    (want : turn.store.wantSendReady = before.wantSendReady)
    (silent : ∀ action ∈ turn.emitted, settled action = true ∧
      ∀ told, Told.hear told action = told) :
    Tells watcher before turn := by
  have events : turn.store.armedEvents = before.armedEvents :=
    congrArg Told.events told
  refine .of_settled ?_ events want fun action member => (silent action member).1
  rw [told]
  generalize before.told = start
  revert silent
  generalize turn.emitted = actions
  intro silent
  induction actions with
  | nil => rfl
  | cons action actions ih =>
      rw [List.foldl_cons, (silent action (by simp)).2]
      exact ih fun other member => silent other (by simp [member])

theorem tells_start : Tells watcher state
    ((Turn.rest (start state).1).preceded (start state).2) := by
  unfold start
  split
  · exact .plain rfl rfl (by simp [settled, Told.hear])
  · exact .of_settled rfl rfl rfl (by simp [settled])

theorem tells_stop : Tells watcher state
    ((Turn.rest (stop state).1).preceded (stop state).2) := by
  unfold stop
  split
  · exact .of_settled rfl rfl rfl (by simp [settled])
  · exact .plain rfl rfl (by simp [settled, Told.hear])

theorem tells_closeNow : Tells watcher state (closeNow watcher state) := by
  cases closed : state.closed with
  | true =>
      rw [closeNow_of_closed watcher closed]
      exact .plain rfl rfl nofun
  | false =>
      rw [closeNow_of_open watcher closed]
      refine .of_settled ?_ rfl rfl ?_
      · cases attached : state.attached <;> cases fd : state.fd <;>
          cases watcher.callbacks.onClose <;>
            simp [State.told, Told.hear, attached, closeFd]
      · cases attached : state.attached <;> cases fd : state.fd <;>
          cases watcher.callbacks.onClose <;> simp [settled, closeFd]

theorem tells_sendWhile (data : List Byte) (limit total : Nat) :
    Tells watcher state (sendWhile state data limit total) := by
  unfold sendWhile
  split
  · exact .plain rfl rfl nofun
  · exact .plain rfl rfl (by simp [settled, Told.hear])

theorem tells_trySend (data : List Byte) :
    Tells watcher state (trySend watcher state data) := by
  unfold trySend
  split
  · exact .plain rfl rfl (by simp [settled, Told.hear])
  · split
    · exact .plain rfl rfl (by simp [settled, Told.hear])
    · exact tells_sendWhile ..

theorem tells_callBack {present : Bool} {action : Action}
    (silent : settled action = true ∧ ∀ told, Told.hear told action = told)
    (frames : List (Frame Point)) :
    Tells watcher state
      ((Turn.callBack state present action).andThen frames) := by
  refine .plain (by simp) (by simp) ?_
  intro other member
  cases present with
  | false => simp at member
  | true =>
      obtain rfl : other = action := by simpa using member
      exact silent

@[simp] theorem rearm_armedEvents (want : Events) :
    (rearm state want).1.armedEvents = want := by
  unfold rearm
  split
  · next same => exact same.symm
  · rfl

@[simp] theorem rearm_wantSendReady (want : Events) :
    (rearm state want).1.wantSendReady = state.wantSendReady := by
  unfold rearm
  split <;> rfl

theorem rearm_told (want : Events) :
    (rearm state want).2.foldl Told.hear state.told =
      (rearm state want).1.told := by
  unfold rearm
  split <;> rfl

theorem settled_of_rearm {want : Events} {action : Action}
    (member : action ∈ (rearm state want).2) : settled action = true := by
  unfold rearm at member
  split at member
  · cases member
  · rw [List.mem_singleton.mp member]
    rfl

theorem armWritable_wanted (want : Bool)
    (armed : state.armedEvents = wanted watcher want) :
    (state.armedEvents.union { writable := true }).union
      (interest watcher.backend) = wanted watcher true := by
  rw [armed]
  unfold wanted
  cases watcher.backend <;> cases want <;> rfl

theorem disarmWritable_wanted (want : Bool)
    (armed : state.armedEvents = wanted watcher want) :
    Events.union { state.armedEvents with writable := false }
      (interest watcher.backend) = wanted watcher false := by
  rw [armed]
  unfold wanted
  cases watcher.backend <;> cases want <;> rfl

theorem settled_of_first_answer {actions tail front rest : List Action}
    (allSettled : ∀ action ∈ actions, settled action = true)
    (single : tail = [] ∨ tail = [.onSendReady])
    (shape : actions ++ tail = front ++ .onSendReady :: rest) :
    ∀ action ∈ front, settled action = true := by
  obtain ⟨more, isFront, isTail⟩ | ⟨more, isActions, isRest⟩ :=
    List.append_eq_append_iff.mp shape
  · obtain rfl | rfl := single
    · simp at isTail
    · cases more with
      | nil => simpa [isFront] using allSettled
      | cons first more => simp at isTail
  · intro action member
    exact allSettled action (by simp [isActions, member])

theorem tells_wouldBlock (total : Nat) :
    Tells watcher state
      ((Turn.rest (armWritable watcher
        { state with wantSendReady := true }).1).preceded
          ((armWritable watcher { state with wantSendReady := true }).2 ++
            [Action.returned { n := total, wouldBlock := true }])) where
  told := by
    have told : (armWritable watcher
        { state with wantSendReady := true }).2.foldl Told.hear state.told =
          (armWritable watcher { state with wantSendReady := true }).1.told :=
      @rearm_told { state with wantSendReady := true } _
    simp [told, Told.hear]
  armed := by
    intro armed
    simp only [Turn.preceded_store, Turn.rest_store, armWritable,
      rearm_armedEvents, rearm_wantSendReady]
    exact armWritable_wanted state.wantSendReady armed
  due := by
    intro pending _ _
    simp [unanswered]
  answers := by
    intro front rest shape
    have member : Action.onSendReady ∈ (armWritable watcher
        { state with wantSendReady := true }).2 ++
          [Action.returned { n := total, wouldBlock := true }] := by
      have inFront :
          Action.onSendReady ∈ front ++ Action.onSendReady :: rest := by
        simp
      rw [← shape] at inFront
      simpa using inFront
    obtain rearmed | returned := List.mem_append.mp member
    · cases settled_of_rearm rearmed
    · simp at returned
  kept := by
    intro _
    simp [unanswered, armWritable]

theorem tells_answer (wants : state.wantSendReady = true) :
    Tells watcher state
      ((Turn.callBack (disarmWritable watcher
        { state with wantSendReady := false }).1 watcher.callbacks.onSendReady
          .onSendReady).preceded
            (disarmWritable watcher
              { state with wantSendReady := false }).2) where
  told := by
    have told : (disarmWritable watcher
        { state with wantSendReady := false }).2.foldl Told.hear state.told =
          (disarmWritable watcher { state with wantSendReady := false }).1.told :=
      @rearm_told { state with wantSendReady := false } _
    cases watcher.callbacks.onSendReady with
    | false => simp [told]
    | true => simp [told, Told.hear]
  armed := by
    intro armed
    simp only [Turn.preceded_store, Turn.callBack_store, disarmWritable,
      rearm_armedEvents, rearm_wantSendReady]
    exact disarmWritable_wanted state.wantSendReady armed
  due := by
    intro pending _ still
    simp [disarmWritable] at still
  answers := by
    intro front rest shape pending isDue
    rw [isDue wants]
    apply foldl_unanswered_of_settled
    apply settled_of_first_answer (fun _ => settled_of_rearm) _ shape
    cases watcher.callbacks.onSendReady with
    | false => exact .inl rfl
    | true => exact .inr rfl
  kept := by
    intro present
    simp [unanswered, disarmWritable, present]

theorem Tells.andThen (tells : Tells watcher before turn)
    (frames : List (Frame Point)) :
    Tells watcher before (turn.andThen frames) :=
  ⟨tells.told, tells.armed, tells.due, tells.answers, tells.kept⟩

theorem tells_sendAnswered {data : List Byte} {limit total : Nat}
    {result : SendResult}
    (answered : sendAnswered watcher state data limit total result =
      some turn) : Tells watcher state turn := by
  cases result with
  | accepted count =>
      simp only [sendAnswered] at answered
      split at answered
      · cases answered
        unfold sendWhile
        split
        · exact .plain rfl rfl (by simp [settled, Told.hear])
        · exact .plain rfl rfl (by simp [settled, Told.hear])
      · cases answered
  | nothing =>
      cases answered
      exact tells_callBack (by simp [settled, Told.hear]) _
  | failed errno =>
      simp only [sendAnswered] at answered
      split at answered
      · cases answered
        exact tells_sendWhile ..
      · split at answered
        · cases answered
          exact tells_wouldBlock total
        · cases answered
          exact tells_callBack (by simp [settled, Told.hear]) _

theorem tells_recvAnswered {remaining : Nat} {result : RecvResult}
    (answered : recvAnswered watcher state remaining result = some turn) :
    Tells watcher state turn := by
  cases result with
  | received chunk =>
      simp only [recvAnswered] at answered
      split at answered
      · cases answered
        exact tells_callBack (by simp [settled, Told.hear]) _
      · cases answered
  | endOfStream =>
      simp only [recvAnswered] at answered
      split at answered
      · cases answered
        exact .plain rfl rfl nofun
      · cases answered
  | failed errno =>
      simp only [recvAnswered] at answered
      split at answered
      · split at answered
        · cases answered
          exact .plain rfl rfl nofun
        · split at answered
          · cases answered
            exact .plain rfl rfl nofun
          · cases answered
            exact tells_callBack (by simp [settled, Told.hear]) _
      · cases answered

theorem tells_onReady (events : Events) :
    Tells watcher state (onReady watcher state events) := by
  unfold onReady
  split
  · exact .plain rfl rfl nofun
  · split
    · exact .plain rfl rfl nofun
    · exact .plain rfl rfl nofun

theorem tells_afterRead (writable : Bool) :
    Tells watcher state (afterRead watcher state writable) := by
  unfold afterRead
  split
  · exact tells_closeNow
  · split
    · next answering => exact tells_answer answering.2
    · exact .plain rfl rfl nofun

theorem tells_call (request : Request) :
    Tells watcher state (call watcher state request) := by
  cases request with
  | start => exact tells_start
  | stop => exact tells_stop
  | trySend data => exact tells_trySend data
  | shutdownWrite =>
      simp only [call]
      split
      · exact .plain rfl rfl nofun
      · exact .plain rfl rfl (by simp [settled, Told.hear])
  | close => exact tells_closeNow

def Point.settled : Point → Bool
  | .sendReturn result => !result.wouldBlock
  | _ => true

theorem tells_resume {point : Point} {input : Input}
    (isSettled : point.settled = true)
    (resumed : resume watcher state point input = some turn) :
    Tells watcher state turn := by
  revert resumed
  fun_cases resume watcher state point input with
  | case1 data limit total result => exact tells_sendAnswered
  | case2 err total =>
      rintro ⟨⟩
      exact tells_closeNow.andThen _
  | case3 result =>
      rintro ⟨⟩
      exact .plain rfl rfl (by simpa [Connection.settled, Told.hear, Point.settled]
        using isSettled)
  | case4 answer =>
      rintro ⟨⟩
      exact tells_callBack (by simp [Connection.settled, Told.hear]) _
  | case5 =>
      rintro ⟨⟩
      exact tells_closeNow
  | case6 remaining result => exact tells_recvAnswered
  | case7 =>
      rintro ⟨⟩
      exact tells_closeNow
  | case8 writable =>
      rintro ⟨⟩
      exact tells_afterRead writable
  | case9 => nofun

theorem settled_push_closeNow {point : Point}
    (member : .code point ∈ (closeNow watcher state).push) :
    point.settled = true := by
  cases closed : state.closed with
  | true => simp [closeNow_of_closed watcher closed] at member
  | false => simp [closeNow_of_open watcher closed] at member

theorem settled_push_resume {point waiting : Point} {input : Input}
    (resumed : resume watcher state point input = some turn)
    (member : .code waiting ∈ turn.push) : waiting.settled = true := by
  revert resumed
  fun_cases resume watcher state point input with
  | case1 data limit total result =>
      intro answered
      cases result <;>
        grind -linarith [sendAnswered, sendWhile, sendError, armWritable, rearm,
          Point.settled]
  | case2 err total =>
      rintro ⟨⟩
      obtain inClose | last := List.mem_append.mp member
      · exact settled_push_closeNow inClose
      · cases List.mem_singleton.mp last
        rfl
  | case6 remaining result =>
      intro answered
      cases result <;> grind -linarith [recvAnswered, handleRead, Point.settled]
  | case5 | case7 =>
      rintro ⟨⟩
      exact settled_push_closeNow member
  | case8 writable =>
      rintro ⟨⟩
      unfold afterRead at member
      split at member
      · exact settled_push_closeNow member
      · grind -linarith [disarmWritable, rearm, Point.settled]
  | case3 | case4 => grind -linarith [Point.settled]
  | case9 => nofun

theorem settled_push_call {request : Request} {point : Point}
    (member : .code point ∈ (call watcher state request).push) :
    point.settled = true := by
  cases request with
  | close => exact settled_push_closeNow member
  | _ => grind -linarith [call, start, stop, trySend, sendWhile, Point.settled]

theorem settled_push_onReady {events : Events} {point : Point}
    (member : .code point ∈ (onReady watcher state events).push) :
    point.settled = true := by
  grind -linarith [onReady, noticeHangUp, handleRead, Point.settled]

theorem tells_takes {config : Config State Point Action}
    {label : Label Request Events Input} {below : List (Frame Point)}
    (points : ∀ point, .code point ∈ config.stack → point.settled = true)
    (takes : (program watcher).Takes config label turn below) :
    Tells watcher config.store turn := by
  cases takes with
  | call _ called =>
      cases called
      exact tells_call _
  | ready _ readied =>
      cases readied
      exact tells_onReady _
  | resume shape resumed =>
      exact tells_resume (points _ (by simp [shape])) resumed

theorem settled_takes {config : Config State Point Action}
    {label : Label Request Events Input} {below : List (Frame Point)}
    (points : ∀ point, .code point ∈ config.stack → point.settled = true)
    (takes : (program watcher).Takes config label turn below) :
    ∀ point, .code point ∈ turn.push ++ below → point.settled = true := by
  intro point member
  obtain pushed | old := List.mem_append.mp member
  · cases takes with
    | call _ called =>
        cases called
        exact settled_push_call pushed
    | ready _ readied =>
        cases readied
        exact settled_push_onReady pushed
    | resume shape resumed => exact settled_push_resume resumed pushed
  · apply points
    cases takes with
    | call => exact old
    | ready => cases old
    | resume shape => simp [shape, old]

end Turns

end RopHive.Network.Connection
