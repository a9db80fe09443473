import RopHive.Data.Ownership
import RopHive.Network.Descriptors
import RopHive.Network.WriteInterest

namespace RopHive.Network

open Transition

/-! Each descriptor has one owner: what a turn of a watcher does to the
descriptors at its hands, and from it what a run does. -/

section Turns

/-- The descriptors before the turn are those after it, in the field, in a
stream or closed. -/
structure Holder.Balances (holder : Holder) (before : holder.State)
    (opened : Option Nat)
    (turn : Turn holder.State holder.Point holder.Action) : Prop where
  balance : ((holder.field before).toList ++ opened.toList).Perm
    ((turn.emitted.filterMap holder.transfer).map Transfer.fd ++
      (holder.field turn.store).toList)
  pins : PinnedTop holder.pinned (holder.field turn.store = none) turn.push

structure Holder.Accounts (holder : Holder) : Prop where
  made : ∀ fd, holder.field (holder.made fd) =
    if holder.origin = .unopened then none else fd
  call : ∀ state request turn, holder.heeds state request = true →
    holder.program.call state request = some turn →
    holder.Balances state none turn
  ready : ∀ state events turn,
    holder.program.ready state events = some turn →
    holder.Balances state none turn
  resume : ∀ state point input turn,
    (holder.pinned point → holder.field state = none) →
    holder.program.resume state point input = some turn →
    holder.Balances state (holder.opens point input) turn
  callUses : ∀ state request fd,
    holder.callUses state request = some fd → holder.field state = some fd
  pointUses : ∀ state point fd,
    holder.pointUses state point = some fd → holder.field state = some fd
  destroy : ∀ state,
    ((holder.destroy state).filterMap holder.transfer).map Transfer.fd =
      (holder.field state).toList

end Turns

namespace Accept

variable {watcher : TcpAcceptWatcher} {state : State} {turn : Turn}

theorem balances_of_same (same : turn.store.listenFd = state.listenFd)
    (silent : turn.emitted.filterMap transfer = []) :
    (holder watcher).Balances state none turn where
  balance := by
    simp only [holder, Option.toList_none, List.append_nil, silent, same]
    rfl
  pins := .of_plain nofun

theorem balances_call (request : Request) :
    (holder watcher).Balances state none (call watcher state request) := by
  cases request with
  | start =>
      apply balances_of_same <;> cases attached : state.attached <;>
        simp [call, start, attached, transfer]
  | stop =>
      apply balances_of_same <;> cases attached : state.attached <;>
        simp [call, stop, attached, transfer]

theorem balances_ready (events : Events) :
    (holder watcher).Balances state none (onReady watcher state events) := by
  apply balances_of_same <;> grind -linarith [onReady]

theorem balances_accepted (accepted fd : Nat) :
    (holder watcher).Balances state (some fd)
      (acceptAnswered watcher state accepted (.accepted fd)) where
  balance := by
    have emitted : ((acceptAnswered watcher state accepted
        (.accepted fd)).emitted.filterMap transfer).map Transfer.fd = [fd] := by
      cases present : watcher.onAccept <;>
        simp [acceptAnswered, handOver, present, transfer, Transfer.fd]
    have store : (acceptAnswered watcher state accepted
        (.accepted fd)).store = state := by
      cases present : watcher.onAccept <;>
        simp [acceptAnswered, handOver, present]
    simp only [holder, emitted, store, Option.toList_some]
    exact List.perm_append_comm
  pins := .of_plain nofun

theorem balances_resume {point : Point} {input : Input}
    (resumed : resume watcher state point input = some turn) :
    (holder watcher).Balances state (opens point input) turn := by
  revert resumed
  fun_cases resume watcher state point input with
  | case1 answer =>
      rintro ⟨⟩
      apply balances_of_same <;> cases present : watcher.onError <;>
        simp [transfer]
  | case2 accepted result =>
      rintro ⟨⟩
      cases result with
      | accepted fd => exact balances_accepted accepted fd
      | failed errno =>
          apply balances_of_same <;> grind -linarith [acceptAnswered, transfer]
  | case3 => simp

theorem accounts : (holder watcher).Accounts where
  made := fun _ => rfl
  call := by
    intro state request turn _ called
    cases called
    exact balances_call request
  ready := by
    intro state events turn readied
    cases readied
    exact balances_ready events
  resume := fun state point input turn _ resumed => balances_resume resumed
  callUses := nofun
  pointUses := by
    intro state point fd used
    cases point with
    | socketError => exact used
    | acceptLoop accepted => exact used
  destroy := by
    intro state
    obtain ⟨fd, attached⟩ := state
    cases attached <;> cases fd <;> rfl

end Accept

namespace Connection

variable {watcher : TcpConnectionWatcher} {state : State} {turn : Turn}

theorem balances_of_same (same : turn.store.fd = state.fd)
    (silent : turn.emitted.filterMap transfer = []) :
    (holder watcher).Balances state none turn where
  balance := by
    simp only [holder, Option.toList_none, List.append_nil, silent, same]
    rfl
  pins := .of_plain nofun

theorem Balances.andThen
    (balances : (holder watcher).Balances state none turn)
    (frames : List (Frame Point)) :
    (holder watcher).Balances state none (turn.andThen frames) where
  balance := balances.balance
  pins := .of_plain nofun

theorem balances_closeNow :
    (holder watcher).Balances state none (closeNow watcher state) := by
  cases closed : state.closed with
  | true =>
      rw [closeNow_of_closed watcher closed]
      exact balances_of_same rfl rfl
  | false =>
      rw [closeNow_of_open watcher closed]
      refine ⟨?_, .of_plain nofun⟩
      cases fd : state.fd <;> cases attached : state.attached <;>
        cases present : watcher.callbacks.onClose <;>
          simp [holder, transfer, closeFd, fd, Transfer.fd,
            List.filterMap_cons]

theorem balances_sendWhile (data : List Byte) (limit total : Nat) :
    (holder watcher).Balances state none
      (sendWhile state data limit total) := by
  unfold sendWhile
  split <;> exact balances_of_same rfl rfl

theorem balances_trySend (data : List Byte) :
    (holder watcher).Balances state none (trySend watcher state data) := by
  unfold trySend
  split
  · exact balances_of_same rfl rfl
  · split
    · exact balances_of_same rfl rfl
    · exact balances_sendWhile ..

theorem balances_call (request : Request) :
    (holder watcher).Balances state none (call watcher state request) := by
  cases request with
  | close => exact balances_closeNow
  | start | stop =>
      apply balances_of_same <;> cases attached : state.attached <;>
        simp [call, start, stop, attached, transfer]
  | trySend data => exact balances_trySend data
  | shutdownWrite =>
      apply balances_of_same <;> grind -linarith [call, transfer]

theorem balances_ready (events : Events) :
    (holder watcher).Balances state none (onReady watcher state events) := by
  apply balances_of_same <;> grind -linarith [onReady, noticeHangUp]

theorem balances_sendAnswered {data : List Byte} {limit total : Nat}
    {result : SendResult}
    (answered : sendAnswered watcher state data limit total result =
      some turn) : (holder watcher).Balances state none turn := by
  apply balances_of_same <;> cases result <;>
    grind -linarith [sendAnswered, sendWhile, sendError, armWritable, rearm,
      transfer]

theorem balances_recvAnswered {remaining : Nat} {result : RecvResult}
    (answered : recvAnswered watcher state remaining result = some turn) :
    (holder watcher).Balances state none turn := by
  apply balances_of_same <;> cases result <;>
    grind -linarith [recvAnswered, transfer]

theorem balances_afterRead (writable : Bool) :
    (holder watcher).Balances state none
      (afterRead watcher state writable) := by
  unfold afterRead
  split
  · exact balances_closeNow
  · apply balances_of_same <;>
      grind -linarith [disarmWritable, rearm, transfer]

theorem balances_resume {point : Point} {input : Input}
    (resumed : resume watcher state point input = some turn) :
    (holder watcher).Balances state none turn := by
  revert resumed
  fun_cases resume watcher state point input with
  | case1 data limit total result => exact balances_sendAnswered
  | case2 err total =>
      rintro ⟨⟩
      exact Balances.andThen balances_closeNow _
  | case3 result =>
      rintro ⟨⟩
      exact balances_of_same rfl rfl
  | case4 answer =>
      rintro ⟨⟩
      apply balances_of_same <;> grind -linarith [transfer]
  | case5 | case7 =>
      rintro ⟨⟩
      exact balances_closeNow
  | case6 remaining result => exact balances_recvAnswered
  | case8 writable =>
      rintro ⟨⟩
      exact balances_afterRead writable
  | case9 => simp

theorem accounts : (holder watcher).Accounts where
  made := fun _ => rfl
  call := by
    intro state request turn _ called
    cases called
    exact balances_call request
  ready := by
    intro state events turn readied
    cases readied
    exact balances_ready events
  resume := fun state point input turn _ resumed => balances_resume resumed
  callUses := by
    intro state request fd used
    cases request with
    | shutdownWrite => exact used
    | start | stop | close | trySend => cases used
  pointUses := by
    intro state point fd used
    cases point with
    | sendLoop | socketError | readLoop => exact used
    | sendFailed | sendReturn | readyFailed | readFailed | afterRead =>
        cases used
  destroy := by
    intro state
    have stopped : (stop state).1.fd = state.fd := by
      cases attached : state.attached <;> simp [stop, attached]
    have silent : (stop state).2.filterMap transfer = [] := by
      cases attached : state.attached <;> simp [stop, attached, transfer]
    cases fd : state.fd <;>
      simp [holder, destroy, stopped, silent, fd, closeFd, transfer,
        Transfer.fd]

end Connection

namespace Connect

variable {watcher : TcpConnectWatcher} {state : State} {turn : Turn}

theorem balances_of_same (same : turn.store.fd = state.fd)
    (silent : turn.emitted.filterMap transfer = [])
    (plain : ∀ point, .code point ∈ turn.push → ¬ Pinned point) :
    (holder watcher).Balances state none turn where
  balance := by
    simp only [holder, Option.toList_none, List.append_nil, silent, same]
    rfl
  pins := .of_plain plain

theorem stop_transfers :
    ((stop state).2.filterMap transfer).map Transfer.fd ++
      (stop state).1.fd.toList = state.fd.toList := by
  cases attached : state.attached <;> cases fd : state.fd <;>
    simp [stop, attached, fd, closeFd, transfer, Transfer.fd,
      List.filterMap_cons]

theorem balances_stop :
    (holder watcher).Balances state none
      ((Turn.rest (stop state).1).preceded (stop state).2) where
  balance := by
    have transfers := @stop_transfers state
    simp only [holder, Option.toList_none, List.append_nil,
      Turn.preceded_emitted, Turn.rest_emitted, Turn.preceded_store,
      Turn.rest_store, transfers]
    rfl
  pins := trivial

theorem balances_cancel :
    (holder watcher).Balances state none
      ((Turn.rest (cancel state).1).preceded (cancel state).2) where
  balance := by
    have transfers := @stop_transfers { state with canceled := true }
    cases canceled : state.canceled with
    | true => simp [holder, cancel, canceled, transfer, List.filterMap_cons]
    | false =>
        have emitted : ((stop { state with canceled := true }).2 ++
            [Action.cancelReturned]).filterMap transfer =
              (stop { state with canceled := true }).2.filterMap transfer := by
          simp [transfer, List.filterMap_cons]
        simp only [holder, cancel, canceled, Bool.false_eq_true, if_false,
          Turn.preceded_emitted, Turn.rest_emitted, List.append_nil, emitted,
          Turn.preceded_store, Turn.rest_store, transfers, Option.toList_none]
        rfl
  pins := trivial

theorem plain_fail {err : Nat} {point : Point}
    (member : .code point ∈ (fail watcher state err).push) :
    ¬ Pinned point := by
  cases canceled : state.canceled <;> cases present : watcher.onError <;>
    simp [fail, canceled, present] at member

theorem balances_fail (err : Nat) :
    (holder watcher).Balances state none (fail watcher state err) where
  balance := by
    have transfers := @stop_transfers state
    have emitted : (fail watcher state err).emitted.filterMap transfer =
        (stop state).2.filterMap transfer := by
      cases canceled : state.canceled <;> cases present : watcher.onError <;>
        simp [fail, canceled, present, transfer, List.filterMap_cons]
    have store : (fail watcher state err).store = (stop state).1 := by
      cases canceled : state.canceled <;> simp [fail, canceled]
    simp only [holder, emitted, store, transfers, Option.toList_none,
      List.append_nil]
    rfl
  pins := .of_plain fun _ member => plain_fail member

theorem balances_connected {fd : Nat} (held : state.fd = some fd) :
    (holder watcher).Balances state none (connected watcher state fd) := by
  have plain (point : Point)
      (member : .code point ∈ (connected watcher state fd).push) :
      ¬ Pinned point := by
    cases present : watcher.onConnected <;>
      simp [connected_eq, present] at member
  refine ⟨?_, .of_plain plain⟩
  rw [connected_eq]
  cases attached : state.attached <;> cases present : watcher.onConnected <;>
    simp [holder, held, transfer, Transfer.fd, List.filterMap_cons]

theorem balances_start
    (heeded : heeds state .start = true) :
    (holder watcher).Balances state none (start watcher state) := by
  unfold start
  split
  · exact balances_of_same rfl rfl nofun
  · next effective =>
      have empty : state.fd = none := by
        simp only [not_or, Bool.not_eq_true] at effective
        simpa [heeds, effective] using heeded
      obtain ⟨family, isSocket⟩ := createSocket_eq watcher state
      have pins : PinnedTop Pinned (state.fd = none)
          [.code (.socketCall family), .code .afterCreate] :=
        ⟨fun _ _ _ => empty, by simp [Pinned]⟩
      rw [isSocket]
      refine ⟨?_, pins⟩
      simp [holder, transfer, List.filterMap_cons]

theorem balances_call (request : Request)
    (heeded : heeds state request = true) :
    (holder watcher).Balances state none (call watcher state request) := by
  cases request with
  | start => exact balances_start heeded
  | stop => exact balances_stop
  | cancel => exact balances_cancel

theorem balances_checkConnectResult :
    (holder watcher).Balances state none (checkConnectResult state) := by
  unfold checkConnectResult
  split
  · exact balances_of_same rfl rfl nofun
  · exact balances_of_same rfl rfl (by simp [Pinned])

theorem balances_ready (events : Events) :
    (holder watcher).Balances state none (onReady state events) := by
  unfold onReady
  split
  · exact balances_of_same rfl rfl nofun
  · split
    · exact balances_checkConnectResult
    · exact balances_of_same rfl rfl nofun

theorem balances_bindLocal (family : Family) :
    (holder watcher).Balances state none (bindLocal watcher state family) := by
  rw [bindLocal_eq]
  split
  · exact balances_of_same rfl rfl (by simp [Pinned])
  · exact balances_of_same rfl rfl nofun

theorem balances_resume {point : Point} {input : Input}
    (empty : Pinned point → state.fd = none)
    (resumed : resume watcher state point input = some turn) :
    (holder watcher).Balances state (opens point input) turn := by
  revert resumed
  fun_cases resume watcher state point input with
  | case1 family fd =>
      rintro ⟨⟩
      have isEmpty := empty trivial
      have plain (point : Point) (member : .code point ∈
          ([.code (.nonBlockingCall family)] : List (Frame Point))) :
          ¬ Pinned point := by
        simp only [List.mem_singleton, Frame.code.injEq] at member
        simp [member, Pinned]
      refine ⟨?_, .of_plain plain⟩
      simp [holder, isEmpty, opens]
  | case2 family errno =>
      rintro ⟨⟩
      have same : ({ state with fd := none } : State) = state := by
        rw [← empty trivial]
      rw [same]
      exact balances_fail errno
  | case3 family =>
      rintro ⟨⟩
      exact balances_bindLocal family
  | case4 family errno | case6 errno =>
      rintro ⟨⟩
      exact balances_fail errno
  | case5 =>
      rintro ⟨⟩
      exact balances_of_same rfl rfl (by simp)
  | case7 | case10 | case12 =>
      rintro ⟨⟩
      exact balances_of_same rfl rfl (by simp)
  | case8 fd held =>
      rintro ⟨⟩
      rw [startConnect_eq]
      exact balances_of_same rfl rfl (by simp [Pinned])
  | case9 =>
      rintro ⟨⟩
      exact balances_checkConnectResult
  | case11 errno failed =>
      rintro ⟨⟩
      exact balances_fail errno
  | case13 fd held =>
      rintro ⟨⟩
      exact balances_of_same rfl rfl (by simp)
  | case14 errno =>
      rintro ⟨⟩
      exact balances_fail errno
  | case16 err fd held failed =>
      rintro ⟨⟩
      exact balances_fail err
  | case17 err fd held succeeded =>
      rintro ⟨⟩
      exact balances_connected held
  | case15 | case18 => simp

theorem accounts : (holder watcher).Accounts where
  made := fun _ => rfl
  call := by
    intro state request turn heeded called
    cases called
    exact balances_call request heeded
  ready := by
    intro state events turn readied
    cases readied
    exact balances_ready events
  resume := fun state point input turn empty resumed =>
    balances_resume empty resumed
  callUses := nofun
  pointUses := by
    intro state point fd used
    cases point with
    | nonBlockingCall | bindCall | connectCall | socketError => exact used
    | socketCall | afterCreate | afterConnect => cases used
  destroy := fun state => by
    have transfers := @stop_transfers state
    have closed : (closeFd (stop state).1.fd).filterMap transfer =
        (stop state).1.fd.toList.map .close := by
      cases fd : (stop state).1.fd <;> simp [closeFd, transfer]
    simp only [holder, destroy, List.filterMap_append, closed, List.map_append,
      List.map_map]
    rw [← transfers]
    cases (stop state).1.fd <;> rfl

end Connect

theorem TcpWatcher.accounts (watcher : TcpWatcher) :
    watcher.holder.Accounts := by
  cases watcher with
  | accept watcher => exact Accept.accounts
  | connect watcher => exact Connect.accounts
  | connection watcher => exact Connection.accounts

end RopHive.Network
