import RopHive.Network.CloseOnce

namespace RopHive.Network.Connection

open Transition

/-- The kernel's side of the connection: the bytes that arrived and were not
read, whether the peer's FIN came and the write side was shut, and the event
the last wait returned, until it is dispatched.  `arrived` keeps every byte
that ever came. -/
structure Kernel where
  unread : List Byte := []
  fin : Bool := false
  writeShut : Bool := false
  event : Option Events := none
  arrived : List Byte := []
  deriving DecidableEq

namespace Kernel

/-- What a wait reports.  Poll watchers do not ask for RDHUP. -/
def report (backend : Backend) (kernel : Kernel) (writable : Bool) :
    Events where
  readable := !kernel.unread.isEmpty || kernel.fin
  writable := writable
  hangUp := kernel.fin && kernel.writeShut
  readHangUp := kernel.fin && (interest backend).readHangUp

/-- The answers the kernel may give, as long as no error occurs. -/
def answers (kernel : Kernel) : Input → Option Kernel
  | .recv (.received chunk) =>
      if chunk <+: kernel.unread then
        some { kernel with unread := kernel.unread.drop chunk.length }
      else none
  | .recv .endOfStream =>
      if kernel.unread = [] ∧ kernel.fin then some kernel else none
  | .recv (.failed errno) =>
      if errno = Errno.eintr ∨
          errno = Errno.eagain ∧ kernel.unread = [] ∧ ¬ kernel.fin then
        some kernel
      else none
  | .send (.accepted _) => some kernel
  | .send .nothing => none
  | .send (.failed errno) =>
      if errno = Errno.eintr ∨ errno = Errno.eagain then some kernel else none
  | .socketError _ => none
  | .proceed => some kernel

/-- The user calls neither `stop` nor `close`, and the loop dispatches the
event of the last wait. -/
def permits (kernel : Kernel) :
    Label Request Events Input → Option Kernel
  | .call .stop | .call .close => none
  | .call .shutdownWrite => some { kernel with writeShut := true }
  | .call .start | .call (.trySend _) => some kernel
  | .ready events =>
      if kernel.event = some events then some { kernel with event := none }
      else none
  | .resume input => kernel.answers input
  | .leave => some kernel

theorem fin_of_hungUp {backend : Backend} {kernel : Kernel}
    {writable : Bool} (hung : hungUp backend (kernel.report backend writable)) :
    kernel.fin := by
  cases backend <;>
    simp only [hungUp, report, Bool.or_eq_true, Bool.and_eq_true] at hung
  case epoll => exact hung.elim And.left And.left
  case poll => exact hung.1

end Kernel

structure Joint where
  config : Config State Point Action
  kernel : Kernel

inductive JointLabel where
  | arrive (chunk : List Byte)
  | finish
  | wait (writable : Bool)
  | code (label : Label Request Events Input)

variable (watcher : TcpConnectionWatcher)

def Joint.step (joint : Joint) : JointLabel → Option Joint
  | .arrive chunk =>
      if joint.kernel.fin then none
      else some { joint with kernel := { joint.kernel with
        unread := joint.kernel.unread ++ chunk
        arrived := joint.kernel.arrived ++ chunk } }
  | .finish => some { joint with kernel := { joint.kernel with fin := true } }
  | .wait writable =>
      if joint.config.stack = [] ∧ joint.config.store.attached then
        some { joint with kernel := { joint.kernel with
          event := some (joint.kernel.report watcher.backend writable) } }
      else none
  | .code label =>
      (joint.kernel.permits label).bind fun kernel =>
        ((program watcher).step joint.config label).map fun config =>
          ⟨config, kernel⟩

def jointSystem : System Joint JointLabel where
  initial joint :=
    (system watcher).initial joint.config ∧ joint.kernel = {}
  step := Joint.step watcher

def delivered (log : List Action) : List Byte :=
  log.flatMap fun action =>
    match action with
    | .onRecv chunk => chunk
    | _ => []

@[simp] theorem delivered_append (log more : List Action) :
    delivered (log ++ more) = delivered log ++ delivered more :=
  List.flatMap_append

/-- A hang-up is dispatched only when what is unread fits into the cap of one
round, and no byte is read without an `on_recv_` to take it. -/
def KeepsUp (joint : Joint) : JointLabel → Prop
  | .code (.ready events) =>
      hungUp watcher.backend events →
        joint.kernel.unread.length ≤ watcher.option.maxReadBytesPerTick
  | .code (.resume (.recv (.received _))) => watcher.callbacks.onRecv = true
  | _ => True

instance (joint : Joint) (label : JointLabel) :
    Decidable (KeepsUp watcher joint label) := by
  unfold KeepsUp
  split <;> infer_instance

def budget : List (Frame Point) → Nat
  | [] => 0
  | .user :: below => budget below
  | .code (.readLoop remaining) :: below => remaining + budget below
  | .code (.afterRead _) :: _ => 0
  | .code _ :: below => budget below

def Failing : Point → Prop
  | .sendFailed _ _ | .sendReturn _ | .socketError | .readyFailed
  | .readFailed => True
  | _ => False

/-- Nothing is lost, and once the peer is seen to have closed, what is left to
read is covered by the round going on. -/
structure Accounted (joint : Joint) : Prop where
  calm : ∀ point, .code point ∈ joint.config.stack → ¬ Failing point
  honest : ∀ events, joint.kernel.event = some events →
    events.error = false ∧
      (hungUp watcher.backend events → joint.kernel.fin)
  bytes : delivered joint.config.log ++ joint.kernel.unread =
    joint.kernel.arrived
  peerClosed : joint.config.store.peerClosed → joint.kernel.fin ∧
    joint.kernel.unread.length ≤ budget joint.config.stack
  closed : joint.config.store.closed →
    joint.kernel.fin ∧ joint.kernel.unread = []
  announced : Action.onClose ∈ joint.config.log → joint.config.store.closed

section Budget

theorem budget_append {push : List (Frame Point)}
    (within : ∀ writable, .code (.afterRead writable) ∉ push)
    (below : List (Frame Point)) :
    budget (push ++ below) = budget push + budget below := by
  induction push with
  | nil => simp [budget]
  | cons frame others ih =>
      simp only [List.mem_cons, not_or] at within
      have ih := ih fun writable => (within writable).2
      cases frame with
      | user => simpa [budget] using ih
      | code point =>
          cases point with
          | readLoop remaining => simp [budget, ih, Nat.add_assoc]
          | afterRead writable => exact absurd rfl (within writable).1
          | _ => simpa [budget] using ih

theorem budget_handleRead (remaining : Nat) :
    budget (handleRead remaining) = remaining := by
  unfold handleRead
  split
  · simp [budget]
  · simp [budget]; omega

theorem of_mem_handleRead {remaining : Nat} {point : Point}
    (member : .code point ∈ handleRead remaining) :
    point = .readLoop remaining := by
  unfold handleRead at member
  split at member
  · simpa using member
  · cases member

end Budget

section Turns

structure Idle (before : State) (turn : Turn) : Prop where
  peerClosed : turn.store.peerClosed = before.peerClosed
  closed : turn.store.closed = before.closed
  budget : budget turn.push = 0
  plain : ∀ point, .code point ∈ turn.push →
    ¬ Failing point ∧ ∀ writable, point ≠ .afterRead writable
  silent : delivered turn.emitted = []
  noClose : Action.onClose ∉ turn.emitted

variable {watcher} {state : State} {turn : Turn}

theorem Idle.preceded (idle : Idle state turn) {actions : List Action}
    (silent : delivered actions = []) (noClose : Action.onClose ∉ actions) :
    Idle state (turn.preceded actions) where
  peerClosed := idle.peerClosed
  closed := idle.closed
  budget := idle.budget
  plain := idle.plain
  silent := by simp [silent, idle.silent]
  noClose := by simp [noClose, idle.noClose]

theorem rest_idle {after : State}
    (peerClosed : after.peerClosed = state.peerClosed)
    (closed : after.closed = state.closed) :
    Idle state (.rest after) := by
  constructor <;> simp [peerClosed, closed, budget, delivered]

theorem sendWhile_idle (state : State) (data : List Byte)
    (limit total : Nat) : Idle state (sendWhile state data limit total) := by
  unfold sendWhile
  split <;> constructor <;> simp [budget, Failing, delivered]

theorem trySend_idle (state : State) (data : List Byte) :
    Idle state (trySend watcher state data) := by
  unfold trySend
  split
  · exact (rest_idle rfl rfl).preceded rfl (by simp)
  · split
    · exact (rest_idle rfl rfl).preceded rfl (by simp)
    · exact sendWhile_idle state data _ _

theorem sendAnswered_idle {data : List Byte} {limit total : Nat}
    {result : SendResult} {kernel after : Kernel}
    (possible : kernel.answers (.send result) = some after)
    (answered : sendAnswered watcher state data limit total result =
      some turn) : Idle state turn ∧ after = kernel := by
  cases result with
  | nothing => cases possible
  | accepted count =>
      cases possible
      simp only [sendAnswered, Option.ite_none_right_eq_some,
        Option.some.injEq] at answered
      obtain ⟨-, rfl⟩ := answered
      exact ⟨(sendWhile_idle state data _ _).preceded rfl (by simp), rfl⟩
  | failed errno =>
      simp only [Kernel.answers, Option.ite_none_right_eq_some,
        Option.some.injEq] at possible
      obtain ⟨temporary, rfl⟩ := possible
      refine ⟨?_, rfl⟩
      cases temporary with
      | inl interrupted =>
          simp only [sendAnswered, interrupted, if_true, Option.some.injEq]
            at answered
          cases answered
          exact sendWhile_idle state data limit total
      | inr wouldBlock =>
          simp only [sendAnswered, wouldBlock, Errno.eagain, Errno.eintr,
            true_or, if_true, Option.some.injEq, Nat.reduceEqDiff, if_false]
            at answered
          cases answered
          unfold armWritable rearm
          split
          · refine Idle.preceded (rest_idle ?_ ?_) ?_ ?_ <;> simp [delivered]
          · refine Idle.preceded (rest_idle ?_ ?_) ?_ ?_ <;> simp [delivered]

theorem callBack_idle {after : State}
    (peerClosed : after.peerClosed = state.peerClosed)
    (closed : after.closed = state.closed) (present : Bool)
    (action : Action) (silent : delivered [action] = [])
    (noClose : action ≠ .onClose) :
    Idle state (.callBack after present action) := by
  cases present with
  | false => exact rest_idle peerClosed closed
  | true =>
      exact ⟨peerClosed, closed, rfl, by simp, silent,
        by simpa using noClose.symm⟩

theorem afterRead_idle (peerOpen : state.peerClosed = false)
    (writable : Bool) :
    Idle state (afterRead watcher state writable) := by
  unfold afterRead
  split
  · next isClosed => simp [peerOpen] at isClosed
  · split
    · have idle (after : State)
          (peerClosed : after.peerClosed = state.peerClosed)
          (closed : after.closed = state.closed) : Idle state (.callBack after
            watcher.callbacks.onSendReady .onSendReady) :=
        callBack_idle peerClosed closed _ .onSendReady rfl (by simp)
      simp only [disarmWritable, rearm]
      split
      · refine Idle.preceded (idle _ ?_ ?_) ?_ ?_ <;> simp [delivered]
      · refine Idle.preceded (idle _ ?_ ?_) ?_ ?_ <;> simp [delivered]
    · exact rest_idle rfl rfl

end Turns

section Run

variable {watcher} {config : Config State Point Action}
  {kernel after : Kernel} {turn : Turn} {below : List (Frame Point)}

theorem Accounted.idle (accounted : Accounted watcher ⟨config, kernel⟩)
    (idle : Idle config.store turn)
    (calm : ∀ point, .code point ∈ below → ¬ Failing point)
    (reads : config.store.peerClosed → budget config.stack ≤ budget below)
    (unread : after.unread = kernel.unread)
    (fin : after.fin = kernel.fin) (arrived : after.arrived = kernel.arrived)
    (event : ∀ events, after.event = some events →
      kernel.event = some events) :
    Accounted watcher ⟨config.take turn below, after⟩ where
  calm point member := by
    cases List.mem_append.mp member with
    | inl pushed => exact (idle.plain point pushed).1
    | inr old => exact calm point old
  honest events returned := by
    obtain ⟨noError, hangUp⟩ := accounted.honest events (event _ returned)
    exact ⟨noError, fin ▸ hangUp⟩
  bytes := by
    simp only [Config.take, delivered_append, idle.silent, List.append_nil]
    rw [unread, arrived]
    exact accounted.bytes
  peerClosed seen := by
    simp only [Config.take, idle.peerClosed] at seen
    obtain ⟨finished, within⟩ := accounted.peerClosed seen
    simp only [Config.take]
    rw [unread, fin, budget_append
      (fun writable member => (idle.plain _ member).2 writable rfl),
      idle.budget, Nat.zero_add]
    exact ⟨finished, Nat.le_trans within (reads seen)⟩
  closed := by
    simp only [Config.take]
    rw [idle.closed, unread, fin]
    exact accounted.closed
  announced member := by
    simp only [Config.take]
    rw [idle.closed]
    cases List.mem_append.mp member with
    | inl old => exact accounted.announced old
    | inr new => exact absurd new idle.noClose

theorem onReady_accounted {events : Events}
    (accounted : Accounted watcher ⟨config, kernel⟩)
    (outside : config.stack = [])
    (returned : kernel.event = some events)
    (keepsUp : hungUp watcher.backend events →
      kernel.unread.length ≤ watcher.option.maxReadBytesPerTick) :
    Accounted watcher ⟨config.take (onReady watcher config.store events) [],
      { kernel with event := none }⟩ := by
  obtain ⟨noError, hangUp⟩ := accounted.honest events returned
  have peerClosed := accounted.peerClosed
  simp only [outside, budget, Nat.le_zero_eq] at peerClosed
  unfold onReady
  split
  · exact accounted.idle (rest_idle rfl rfl) (by simp) (by simp [outside])
      rfl rfl rfl (by simp)
  · rw [noError, if_neg (by simp)]
    constructor
    · intro point member
      simp only [Config.take, Turn.andThen_push, Turn.rest_push,
        List.nil_append, List.append_nil, List.mem_append] at member
      cases member with
      | inl inLoop =>
          split at inLoop
          · rw [of_mem_handleRead inLoop]
            exact id
          · cases inLoop
      | inr last =>
          obtain rfl : point = .afterRead events.writable := by
            simpa using last
          exact id
    · simp
    · simpa [Config.take] using accounted.bytes
    · intro seen
      have readsAll : budget (handleRead
          watcher.option.maxReadBytesPerTick ++
            [Frame.code (.afterRead events.writable)]) =
          watcher.option.maxReadBytesPerTick := by
        rw [budget_append, budget_handleRead]
        · rfl
        · intro writable member
          cases of_mem_handleRead member
      simp only [Config.take, Turn.andThen_store, Turn.rest_store,
        noticeHangUp, Bool.or_eq_true] at seen
      simp only [Config.take, Turn.andThen_push, Turn.rest_push,
        List.nil_append, List.append_nil, noticeHangUp, Bool.or_eq_true,
        seen, or_true, if_true, readsAll]
      cases seen with
      | inl hung => exact ⟨hangUp hung, keepsUp hung⟩
      | inr before =>
          obtain ⟨fin, none⟩ := peerClosed before
          exact ⟨fin, by simp [none]⟩
    · exact accounted.closed
    · simpa [Config.take, noticeHangUp] using accounted.announced

theorem recvAnswered_accounted {remaining : Nat} {result : RecvResult}
    (accounted : Accounted watcher ⟨config, kernel⟩)
    (shape : config.stack = .code (.readLoop remaining) :: below)
    (hasOnRecv : ∀ chunk, result = .received chunk →
      watcher.callbacks.onRecv = true)
    (possible : kernel.answers (.recv result) = some after)
    (answered : recvAnswered watcher config.store remaining result =
      some turn) :
    Accounted watcher ⟨config.take turn below, after⟩ := by
  have peerClosed := accounted.peerClosed
  have calm : ∀ point, .code point ∈ below → ¬ Failing point := by
    intro point member
    apply accounted.calm point
    rw [shape]
    exact List.mem_cons_of_mem _ member
  simp only [shape, budget] at peerClosed
  cases result with
  | received chunk =>
      simp only [Kernel.answers, Option.ite_none_right_eq_some,
        Option.some.injEq] at possible
      obtain ⟨⟨rest, unread⟩, rfl⟩ := possible
      simp only [recvAnswered, Option.ite_none_right_eq_some,
        Option.some.injEq, hasOnRecv chunk rfl] at answered
      obtain ⟨⟨-, -, fits⟩, rfl⟩ := answered
      have left : kernel.unread.drop chunk.length = rest := by
        simp [← unread]
      have reads : budget ([Frame.user] ++
          handleRead (remaining - chunk.length) ++ below) =
          remaining - chunk.length + budget below := by
        rw [budget_append]
        · simp [budget, budget_handleRead]
        · intro writable member
          cases of_mem_handleRead (List.mem_of_ne_of_mem (by simp) member)
      have size := congrArg List.length unread
      simp only [List.length_append] at size
      constructor
      · intro point member
        simp only [Config.take, Turn.andThen_push, Turn.callBack_push,
          if_true, List.mem_append, List.mem_singleton, reduceCtorEq,
          false_or] at member
        cases member with
        | inl inLoop =>
            rw [of_mem_handleRead inLoop]
            exact id
        | inr old => exact calm point old
      · exact accounted.honest
      · have bytes := accounted.bytes
        simp only [← unread] at bytes
        simp [Config.take, left, delivered, ← bytes]
      · intro seen
        obtain ⟨fin, within⟩ := peerClosed seen
        refine ⟨fin, ?_⟩
        simp only [Config.take, Turn.andThen_push, Turn.callBack_push,
          if_true, reads, left]
        omega
      · intro closed
        obtain ⟨fin, none⟩ := accounted.closed closed
        have none : kernel.unread = [] := none
        exact ⟨fin, by simp [none]⟩
      · simpa [Config.take] using accounted.announced
  | endOfStream =>
      simp only [Kernel.answers, Option.ite_none_right_eq_some,
        Option.some.injEq] at possible
      obtain ⟨⟨none, fin⟩, rfl⟩ := possible
      simp only [recvAnswered, Option.ite_none_right_eq_some,
        Option.some.injEq] at answered
      obtain ⟨-, rfl⟩ := answered
      constructor
      · exact calm
      · exact accounted.honest
      · simpa [Config.take] using accounted.bytes
      · intro _
        exact ⟨fin, by simp [none]⟩
      · exact accounted.closed
      · simpa [Config.take] using accounted.announced
  | failed errno =>
      simp only [Kernel.answers, Option.ite_none_right_eq_some,
        Option.some.injEq] at possible
      obtain ⟨temporary, rfl⟩ := possible
      simp only [recvAnswered, Option.ite_none_right_eq_some] at answered
      obtain ⟨-, answered⟩ := answered
      cases temporary with
      | inl interrupted =>
          simp only [interrupted, if_true, Option.some.injEq] at answered
          cases answered
          constructor
          · simpa [Config.take, Failing] using calm
          · exact accounted.honest
          · simpa [Config.take] using accounted.bytes
          · simpa [Config.take, budget] using peerClosed
          · exact accounted.closed
          · simpa [Config.take] using accounted.announced
      | inr drained =>
          obtain ⟨wouldBlock, -, open_⟩ := drained
          simp only [wouldBlock, Errno.eagain, Errno.eintr, true_or, if_true,
            Option.some.injEq, Nat.reduceEqDiff, if_false] at answered
          cases answered
          constructor
          · exact calm
          · exact accounted.honest
          · simpa [Config.take] using accounted.bytes
          · intro seen
            exact absurd (peerClosed seen).1 open_
          · exact accounted.closed
          · simpa [Config.take] using accounted.announced

theorem closeNow_silent (state : State) :
    delivered (closeNow watcher state).emitted = [] ∧
      (∀ point, .code point ∉ (closeNow watcher state).push) ∧
      (closeNow watcher state).store.closed := by
  cases closed : state.closed with
  | true =>
      rw [closeNow_of_closed watcher closed]
      simp [delivered, closed]
  | false =>
      rw [closeNow_of_open watcher closed]
      refine ⟨?_, ?_, rfl⟩
      · cases state.attached <;> cases state.fd <;>
          cases watcher.callbacks.onClose <;> simp [delivered, closeFd]
      · cases watcher.callbacks.onClose <;> simp

theorem closeNow_accounted (accounted : Accounted watcher ⟨config, kernel⟩)
    (calm : ∀ point, .code point ∈ below → ¬ Failing point)
    (finished : kernel.fin) (drained : kernel.unread = []) :
    Accounted watcher
      ⟨config.take (closeNow watcher config.store) below, kernel⟩ := by
  obtain ⟨silent, onlyUser, closes⟩ := closeNow_silent config.store
  constructor
  · intro point member
    cases List.mem_append.mp member with
    | inl pushed => exact absurd pushed (onlyUser point)
    | inr old => exact calm point old
  · exact accounted.honest
  · simpa [Config.take, silent] using accounted.bytes
  · intro _
    exact ⟨finished, by simp [drained]⟩
  · intro _
    exact ⟨finished, drained⟩
  · intro _
    exact closes

theorem afterRead_accounted {writable : Bool}
    (accounted : Accounted watcher ⟨config, kernel⟩)
    (shape : config.stack = .code (.afterRead writable) :: below) :
    Accounted watcher
      ⟨config.take (afterRead watcher config.store writable) below,
        kernel⟩ := by
  have calm : ∀ point, .code point ∈ below → ¬ Failing point := by
    intro point member
    apply accounted.calm point
    rw [shape]
    exact List.mem_cons_of_mem _ member
  cases peerClosed : config.store.peerClosed with
  | true =>
      obtain ⟨finished, within⟩ := accounted.peerClosed peerClosed
      simp only [shape, budget, Nat.le_zero_eq, List.length_eq_zero_iff]
        at within
      rw [afterRead, if_pos peerClosed]
      exact closeNow_accounted accounted calm finished within
  | false =>
      exact accounted.idle (afterRead_idle peerClosed writable) calm
        (by simp [peerClosed]) rfl rfl rfl fun _ => id

theorem call_accounted {request : Request}
    (accounted : Accounted watcher ⟨config, kernel⟩)
    (permitted : kernel.permits (.call request) = some after) :
    Accounted watcher ⟨config.take (call watcher config.store request)
      config.stack, after⟩ := by
  cases request with
  | stop | close => cases permitted
  | start =>
      cases permitted
      refine accounted.idle ?_ accounted.calm (fun _ => Nat.le_refl _) rfl rfl rfl
        fun _ => id
      simp only [call, start]
      split
      · refine Idle.preceded (rest_idle ?_ ?_) ?_ ?_ <;> simp [delivered]
      · refine Idle.preceded (rest_idle ?_ ?_) ?_ ?_ <;> simp [delivered]
  | trySend data =>
      cases permitted
      exact accounted.idle (trySend_idle _ _) accounted.calm (fun _ => Nat.le_refl _) rfl rfl rfl
        fun _ => id
  | shutdownWrite =>
      cases permitted
      refine accounted.idle ?_ accounted.calm (fun _ => Nat.le_refl _) rfl rfl rfl
        fun _ => id
      simp only [call]
      split
      · exact rest_idle rfl rfl
      · refine Idle.preceded (rest_idle ?_ ?_) ?_ ?_ <;> simp [delivered]

theorem resume_accounted {point : Point} {input : Input}
    (accounted : Accounted watcher ⟨config, kernel⟩)
    (shape : config.stack = .code point :: below)
    (keepsUp : ∀ chunk, input = .recv (.received chunk) →
      watcher.callbacks.onRecv = true)
    (permitted : kernel.answers input = some after)
    (resumed : resume watcher config.store point input = some turn) :
    Accounted watcher ⟨config.take turn below, after⟩ := by
  have calm := accounted.calm
  simp only [shape, List.mem_cons] at calm
  have failing := calm point (.inl rfl)
  unfold resume at resumed
  split at resumed
  case h_1 =>
      obtain ⟨idle, rfl⟩ := sendAnswered_idle permitted resumed
      refine accounted.idle idle ?_ ?_ rfl rfl rfl fun _ => id
      · intro point member
        exact calm point (.inr member)
      · simp [shape, budget]
  case h_6 =>
      apply recvAnswered_accounted accounted shape ?_ permitted resumed
      rintro chunk rfl
      exact keepsUp chunk rfl
  case h_8 =>
      cases permitted
      cases resumed
      exact afterRead_accounted accounted shape
  case h_9 => cases resumed
  all_goals exact absurd trivial failing

theorem code_accounted {label : Label Request Events Input}
    {next : Config State Point Action}
    (accounted : Accounted watcher ⟨config, kernel⟩)
    (keepsUp : KeepsUp watcher ⟨config, kernel⟩ (.code label))
    (permitted : kernel.permits label = some after)
    (stepped : (program watcher).step config label = some next) :
    Accounted watcher ⟨next, after⟩ := by
  cases Program.step_cases stepped with
  | inl taken =>
      obtain ⟨turn, below, takes, rfl⟩ := taken
      cases takes with
      | call _ called =>
          cases called
          exact call_accounted accounted permitted
      | ready outside readied =>
          cases readied
          simp only [Kernel.permits, Option.ite_none_right_eq_some,
            Option.some.injEq] at permitted
          obtain ⟨returned, rfl⟩ := permitted
          exact onReady_accounted accounted outside returned keepsUp
      | resume shape resumed =>
          apply resume_accounted accounted shape ?_ permitted resumed
          rintro chunk rfl
          exact keepsUp
  | inr left =>
      obtain ⟨rfl, below, shape, rfl⟩ := left
      cases permitted
      have calm := accounted.calm
      have peerClosed := accounted.peerClosed
      simp only [shape, List.mem_cons, reduceCtorEq, false_or] at calm
      simp only [shape, budget] at peerClosed
      exact ⟨calm, accounted.honest, accounted.bytes, peerClosed,
        accounted.closed, accounted.announced⟩

theorem step_accounted {joint next : Joint} {label : JointLabel}
    (accounted : Accounted watcher joint)
    (keepsUp : KeepsUp watcher joint label)
    (stepped : joint.step watcher label = some next) :
    Accounted watcher next := by
  cases label with
  | arrive chunk =>
      simp only [Joint.step, Option.ite_none_left_eq_some,
        Option.some.injEq] at stepped
      obtain ⟨unfinished, rfl⟩ := stepped
      constructor
      · exact accounted.calm
      · exact accounted.honest
      · simp [← accounted.bytes]
      · intro seen
        exact absurd (accounted.peerClosed seen).1 unfinished
      · intro closed
        exact absurd (accounted.closed closed).1 unfinished
      · exact accounted.announced
  | finish =>
      cases stepped
      exact ⟨accounted.calm,
        fun events returned => ⟨(accounted.honest events returned).1,
          fun _ => rfl⟩,
        accounted.bytes, fun seen => ⟨rfl, (accounted.peerClosed seen).2⟩,
        fun closed => ⟨rfl, (accounted.closed closed).2⟩,
        accounted.announced⟩
  | wait writable =>
      simp only [Joint.step, Option.ite_none_right_eq_some,
        Option.some.injEq] at stepped
      obtain ⟨-, rfl⟩ := stepped
      refine ⟨accounted.calm, ?_, accounted.bytes, accounted.peerClosed,
        accounted.closed, accounted.announced⟩
      intro events returned
      obtain rfl := Option.some.inj returned
      exact ⟨rfl, Kernel.fin_of_hungUp⟩
  | code label =>
      simp only [Joint.step, Option.bind_eq_some_iff,
        Option.map_eq_some_iff] at stepped
      obtain ⟨after, permitted, config, stepped, rfl⟩ := stepped
      exact code_accounted accounted keepsUp permitted stepped

/-- As long as every hang-up finds no more unread bytes than one round may
read, all that the peer sent before its FIN has been handed to `on_recv_` when
`on_close_` is called. -/
theorem delivered_all_of_keepsUp {joint : Joint}
    (reached : (jointSystem watcher).ReachableUnder (KeepsUp watcher) joint)
    (closed : Action.onClose ∈ joint.config.log) :
    joint.kernel.fin ∧
      delivered joint.config.log = joint.kernel.arrived := by
  have accounted : Accounted watcher joint := by
    apply reached.invariant (Accounted watcher)
    · rintro ⟨⟨store, stack, log⟩, kernel⟩ ⟨⟨⟨fd, rfl⟩, rfl, rfl⟩, rfl⟩
      constructor <;> simp [delivered]
    · intro state label after accounted keepsUp stepped
      exact step_accounted accounted keepsUp stepped
  obtain ⟨finished, drained⟩ := accounted.closed (accounted.announced closed)
  have bytes := accounted.bytes
  rw [drained, List.append_nil] at bytes
  exact ⟨finished, bytes⟩

end Run

def twoByteWatcher : TcpConnectionWatcher :=
  epollTcpConnectionWatcher { maxReadBytesPerTick := 2 }
    ⟨true, true, true, true⟩

def twoByteStart : Joint := ⟨⟨sampleState, [], []⟩, {}⟩

theorem twoByteStart_initial :
    (jointSystem twoByteWatcher).initial twoByteStart :=
  ⟨⟨⟨some 5, rfl⟩, rfl, rfl⟩, rfl⟩

/-- Two bytes are read, then the third comes with the FIN. -/
def finAfterTwoRounds : List JointLabel :=
  [.code (.call .start), .arrive [1, 2, 3], .wait false,
    .code (.ready { readable := true }),
    .code (.resume (.recv (.received [1, 2]))), .code .leave,
    .code (.resume .proceed), .finish, .wait false,
    .code (.ready { readable := true, readHangUp := true }),
    .code (.resume (.recv (.received [3]))), .code .leave,
    .code (.resume (.recv .endOfStream)), .code (.resume .proceed)]

theorem delivered_all_of_keepsUp_finAfterTwoRounds :
    ∃ joint : Joint, Action.onClose ∈ joint.config.log ∧
      joint.kernel.arrived = [1, 2, 3] ∧ joint.kernel.fin ∧
        delivered joint.config.log = joint.kernel.arrived := by
  have run : ((jointSystem twoByteWatcher).replay twoByteStart
      finAfterTwoRounds).map (fun joint => decide
        (Action.onClose ∈ joint.config.log ∧
          joint.kernel.arrived = [1, 2, 3])) = some true := by
    decide +kernel
  have guarded : (jointSystem twoByteWatcher).Follows
      (KeepsUp twoByteWatcher) twoByteStart finAfterTwoRounds := by
    decide +kernel
  obtain ⟨joint, ends, found⟩ := Option.map_eq_some_iff.mp run
  obtain ⟨closed, arrived⟩ := of_decide_eq_true found
  exact ⟨joint, closed, arrived, delivered_all_of_keepsUp
    (System.ReachableUnder.replay finAfterTwoRounds
      (.start twoByteStart_initial) guarded ends) closed⟩

/-- The FIN comes while three bytes are queued, one more than a round reads. -/
def finBehindThreeBytes : List JointLabel :=
  [.code (.call .start), .arrive [1, 2, 3], .finish, .wait false,
    .code (.ready { readable := true, readHangUp := true }),
    .code (.resume (.recv (.received [1, 2]))), .code .leave,
    .code (.resume .proceed)]

theorem finBehindThreeBytes_drops :
    ¬ ∀ joint, (jointSystem twoByteWatcher).Reachable joint →
      Action.onClose ∈ joint.config.log →
      joint.kernel.fin ∧
        delivered joint.config.log = joint.kernel.arrived := by
  have run : ((jointSystem twoByteWatcher).replay twoByteStart
      finBehindThreeBytes).map (fun joint =>
        (joint.config.log, joint.kernel.arrived)) =
      some ([.attachSource, .started, .onRecv [1, 2], .detachSource,
        .stopped, .closeFd 5, .onClose], [1, 2, 3]) := by
    decide +kernel
  obtain ⟨joint, ends, found⟩ := Option.map_eq_some_iff.mp run
  obtain ⟨log, arrived⟩ := Prod.mk.inj found
  intro claimed
  have all := (claimed joint (System.Reachable.replay finBehindThreeBytes
    (.start twoByteStart_initial) ends) (by simp [log])).2
  rw [log, arrived] at all
  simp [delivered] at all

end RopHive.Network.Connection
