import RopHive.Async.AsyncTcpStream
import RopHive.Async.QueueOrder

namespace RopHive.Async

open Transition
open RopHive.Network (TrySendResult)

/-! The order in which calls of `sendAll` get the lock, and what becomes of
their bytes. -/

variable {Sender : Type}

abbrev Call (Sender : Type) := Sender × List Byte

def SendEvent.call : SendEvent Sender → Option (Call Sender)
  | .called sender data => some (sender, data)
  | _ => none

def SendEvent.entry : SendEvent Sender → Option (Call Sender)
  | .entered sender data => some (sender, data)
  | _ => none

def SendEvent.bytes : SendEvent Sender → List Byte
  | .took bytes => bytes
  | _ => []

namespace AsyncTcpStream

def called (log : List (SendEvent Sender)) : List (Call Sender) :=
  log.filterMap SendEvent.call

def entered (log : List (SendEvent Sender)) : List (Call Sender) :=
  log.filterMap SendEvent.entry

def appended (log : List (SendEvent Sender)) : List Byte :=
  (entered log).flatMap Prod.snd

def took (log : List (SendEvent Sender)) : List Byte :=
  log.flatMap SendEvent.bytes

/-- Calls get the lock in their order, and of their bytes in that order the
watcher has taken all but `out`.  None is left when a call returns from the end
of its loop. -/
structure Ordered (waiting : List (Call Sender)) (out : List Byte)
    (log : List (SendEvent Sender)) : Prop where
  fifo : called log = entered log ++ waiting
  bytes : appended log = took log ++ out
  complete : ∀ before sender,
    before ++ [SendEvent.returned sender .sent] <+: log →
      took before = appended before

section Logs

variable {waiting : List (Call Sender)} {out : List Byte}
  {log : List (SendEvent Sender)} {sender : Sender}

theorem called_concat (event : SendEvent Sender) :
    called (log ++ [event]) = called log ++ event.call.toList := by
  cases event with
  | called sender data => exact List.filterMap_append
  | _ => exact List.filterMap_append

theorem entered_concat (event : SendEvent Sender) :
    entered (log ++ [event]) = entered log ++ event.entry.toList := by
  cases event with
  | entered sender data => exact List.filterMap_append
  | _ => exact List.filterMap_append

theorem appended_concat (event : SendEvent Sender) :
    appended (log ++ [event]) =
      appended log ++ event.entry.toList.flatMap Prod.snd := by
  rw [appended, entered_concat, List.flatMap_append, appended]

theorem took_concat (event : SendEvent Sender) :
    took (log ++ [event]) = took log ++ event.bytes := by
  simp [took]

theorem complete_concat
    (complete : ∀ before sender,
      before ++ [SendEvent.returned sender .sent] <+: log →
        took before = appended before) {event : SendEvent Sender}
    (other : ∀ sender, event = .returned sender .sent →
      took log = appended log) (before : List (SendEvent Sender))
    (sender : Sender)
    (isPrefix : before ++ [SendEvent.returned sender .sent] <+:
      log ++ [event]) :
    took before = appended before := by
  cases List.prefix_concat_iff.mp isPrefix with
  | inl whole =>
      obtain ⟨rfl, last⟩ := List.append_inj' whole rfl
      cases last
      exact other sender rfl
  | inr earlier => exact complete before sender earlier

theorem Ordered.call (ordered : Ordered waiting out log) (sender : Sender)
    (data : List Byte) :
    Ordered (waiting ++ [(sender, data)]) out
      (log ++ [SendEvent.called sender data]) where
  fifo := by
    rw [called_concat, entered_concat, ordered.fifo]
    simp [SendEvent.call, SendEvent.entry]
  bytes := by
    rw [appended_concat, took_concat, ordered.bytes]
    simp [SendEvent.entry, SendEvent.bytes]
  complete := complete_concat ordered.complete nofun

theorem Ordered.enter {data : List Byte}
    (ordered : Ordered ((sender, data) :: waiting) out log) :
    Ordered waiting (out ++ data) (log ++ [SendEvent.entered sender data]) where
  fifo := by
    rw [called_concat, entered_concat, ordered.fifo]
    simp [SendEvent.call, SendEvent.entry]
  bytes := by
    rw [appended_concat, took_concat, ordered.bytes]
    simp [SendEvent.entry, SendEvent.bytes]
  complete := complete_concat ordered.complete nofun

theorem Ordered.takes (ordered : Ordered waiting out log) (n : Nat) :
    Ordered waiting (out.drop n) (log ++ [SendEvent.took (out.take n)]) where
  fifo := by
    rw [called_concat, entered_concat, ordered.fifo]
    simp [SendEvent.call, SendEvent.entry]
  bytes := by
    rw [appended_concat, took_concat, ordered.bytes]
    simp [SendEvent.entry, SendEvent.bytes]
  complete := complete_concat ordered.complete nofun

theorem Ordered.leave (ordered : Ordered waiting out log) (sender : Sender)
    {reason : SendReason} (sent : reason = .sent → out = []) :
    Ordered waiting out (log ++ [SendEvent.returned sender reason]) where
  fifo := by
    rw [called_concat, entered_concat, ordered.fifo]
    simp [SendEvent.call, SendEvent.entry]
  bytes := by
    rw [appended_concat, took_concat, ordered.bytes]
    simp [SendEvent.entry, SendEvent.bytes]
  complete := by
    apply complete_concat ordered.complete
    intro other same
    cases same
    rw [ordered.bytes, sent rfl, List.append_nil]

end Logs

section Holders

variable {frames : Sender → SendFrame} {waiters : List Sender}
  {queue : List (Call Sender)} {sender : Sender}

/-- All but one: they wait for the lock in `queue`, or are outside. -/
structure Others (frames : Sender → SendFrame) (waiters : List Sender)
    (sender : Sender) (queue : List (Call Sender)) : Prop where
  waiters : waiters = queue.map Prod.fst
  waiting : ∀ other data, other ≠ sender →
    (frames other = .waitingLock data ↔ (other, data) ∈ queue)
  outside : ∀ other, other ≠ sender →
    frames other ≠ .sending ∧ frames other ≠ .awaitingReady
  distinct : (sender :: queue.map Prod.fst).Nodup

theorem Others.update [DecidableEq Sender]
    (others : Others frames waiters sender queue) (frame : SendFrame) :
    Others (Function.update frames sender frame) waiters sender queue where
  waiters := others.waiters
  waiting := by
    intro other data different
    rw [Function.update_of_ne different]
    exact others.waiting other data different
  outside := by
    intro other different
    rw [Function.update_of_ne different]
    exact others.outside other different
  distinct := others.distinct

theorem Others.last (others : Others frames waiters sender [])
    (returned : frames sender = .returned) (other : Sender) :
    frames other = .idle ∨ frames other = .returned := by
  by_cases same : other = sender
  · subst same
    exact .inr returned
  · obtain ⟨notSending, notAwaiting⟩ := others.outside other same
    cases frame : frames other with
    | idle => exact .inl rfl
    | waitingLock data =>
        cases (others.waiting other data same).mp frame
    | sending => exact absurd frame notSending
    | awaitingReady => exact absurd frame notAwaiting
    | returned => exact .inr rfl

theorem Others.next {head : Sender} {data : List Byte}
    (others : Others frames waiters sender ((head, data) :: queue))
    (returned : frames sender = .returned) :
    frames head = .waitingLock data ∧
      Others frames (queue.map Prod.fst) head queue := by
  obtain ⟨outside, distinct⟩ := List.nodup_cons.mp others.distinct
  have different : head ≠ sender := fun same =>
    outside (same ▸ List.mem_cons_self)
  refine ⟨(others.waiting head data different).mpr List.mem_cons_self, rfl,
    ?_, ?_, distinct⟩
  · intro other more apart
    by_cases same : other = sender
    · subst same
      rw [returned]
      constructor
      · nofun
      · intro member
        exact absurd (List.mem_cons_of_mem _ (List.mem_map_of_mem member))
          outside
    · rw [others.waiting other more same, List.mem_cons]
      constructor
      · rintro (own | member)
        · exact absurd (Prod.ext_iff.mp own).1 apart
        · exact member
      · exact .inr
  · intro other _
    by_cases same : other = sender
    · subst same
      rw [returned]
      exact ⟨nofun, nofun⟩
    · exact others.outside other same

theorem Others.wait [DecidableEq Sender] {last : Sender} {data : List Byte}
    (others : Others frames waiters sender queue)
    (idle : frames last = .idle) (different : last ≠ sender) :
    Others (Function.update frames last (.waitingLock data))
      (waiters ++ [last]) sender (queue ++ [(last, data)]) where
  waiters := by
    rw [others.waiters, List.map_append]
    rfl
  waiting := by
    intro other more apart
    rw [List.mem_append, List.mem_singleton]
    by_cases same : other = last
    · subst same
      have fresh : (other, more) ∉ queue := fun member =>
        SendFrame.noConfusion
          (idle.symm.trans ((others.waiting other more apart).mpr member))
      rw [Function.update_self]
      simp [fresh, eq_comm]
    · rw [Function.update_of_ne same, others.waiting other more apart]
      simp [same]
  outside := by
    intro other apart
    by_cases same : other = last
    · subst same
      rw [Function.update_self]
      exact ⟨nofun, nofun⟩
    · rw [Function.update_of_ne same]
      exact others.outside other apart
  distinct := by
    have fresh : last ∉ queue.map Prod.fst := by
      intro member
      obtain ⟨⟨same, more⟩, found, rfl⟩ := List.mem_map.mp member
      have waits := (others.waiting same more different).mpr found
      exact SendFrame.noConfusion (idle.symm.trans waits)
    rw [List.map_append]
    apply List.nodup_cons.mpr
    obtain ⟨outside, distinct⟩ := List.nodup_cons.mp others.distinct
    constructor
    · simpa [outside] using Ne.symm different
    · simpa [List.nodup_append, distinct] using fun other data member same =>
        fresh (List.mem_map.mpr ⟨_, member, same⟩)

end Holders

section Runs

variable {stream after : AsyncTcpStream Sender}
  {queue : List (Call Sender)} {sender : Sender}

/-- Where the coroutine stands that has the lock, or is the next to have it;
`claim` is its call while it is yet to enter. -/
inductive Stage (stream : AsyncTcpStream Sender) (sender : Sender) :
    List (Call Sender) → Prop
  | granted (data : List Byte) :
      stream.frames sender = .waitingLock data →
      stream.scheduled = [sender] → stream.sendReadyQ.waiter = none →
      Stage stream sender [(sender, data)]
  | sending : stream.frames sender = .sending →
      stream.scheduled = [] → stream.sendReadyQ.waiter = none →
      Stage stream sender []
  | asleep : stream.frames sender = .awaitingReady →
      stream.scheduled = [] → stream.sendReadyQ.waiter = some sender →
      stream.sendReadyQ.awaitReady = false → Stage stream sender []
  | woken : stream.frames sender = .awaitingReady →
      stream.scheduled = [sender] → stream.sendReadyQ.waiter = none →
      Stage stream sender []

inductive Held (stream : AsyncTcpStream Sender) : Prop
  | free : stream.sendLocked = false → stream.scheduled = [] →
      stream.sendReadyQ.waiter = none → stream.sendLockWaiters = [] →
      (∀ sender, stream.frames sender = .idle ∨
        stream.frames sender = .returned) →
      Ordered [] stream.out stream.log → Held stream
  | held (sender : Sender) (queue claim : List (Call Sender)) :
      stream.sendLocked = true →
      Others stream.frames stream.sendLockWaiters sender queue →
      Stage stream sender claim →
      Ordered (claim ++ queue) stream.out stream.log → Held stream

structure Kept (stream : AsyncTcpStream Sender) : Prop where
  held : Held stream
  exec : stream.sendReadyQ.exec = some ()
  awake : stream.misused = false

/-- What the coroutine with the lock goes on from. -/
structure Goes (stream : AsyncTcpStream Sender) (sender : Sender)
    (queue : List (Call Sender)) : Prop where
  locked : stream.sendLocked = true
  others : Others stream.frames stream.sendLockWaiters sender queue
  scheduled : stream.scheduled = []
  waiter : stream.sendReadyQ.waiter = none
  exec : stream.sendReadyQ.exec = some ()
  awake : stream.misused = false

theorem kept_sending (goes : Goes stream sender queue)
    (sends : stream.frames sender = .sending)
    (ordered : Ordered queue stream.out stream.log) : Kept stream :=
  ⟨.held sender queue [] goes.locked goes.others
    (.sending sends goes.scheduled goes.waiter) ordered, goes.exec, goes.awake⟩

theorem kept_withQueue (kept : Kept stream)
    {served : AsyncQueue Unit Unit Sender × Wake Unit Sender}
    (isServed : Served stream.sendReadyQ served.1 served.2)
    (exec : served.1.exec = stream.sendReadyQ.exec) :
    Kept (stream.withQueue served) := by
  have bound := exec.trans kept.exec
  have idle : stream.sendReadyQ.waiter = none →
      served.1.waiter = none ∧
        (stream.withQueue served).scheduled = stream.scheduled := by
    intro nobody
    cases isServed with
    | taken gone wake ready =>
        refine ⟨gone, ?_⟩
        rw [withQueue, wake, nobody, bound]
        exact List.append_nil _
    | passed waiter wake ready =>
        refine ⟨waiter.trans nobody, ?_⟩
        rw [withQueue, wake]
        exact List.append_nil _
  cases kept.held with
  | free unlocked scheduled waiter waiters outside ordered =>
      obtain ⟨gone, same⟩ := idle waiter
      exact ⟨.free unlocked (same.trans scheduled) gone waiters outside
        ordered, bound, kept.awake⟩
  | held holder queue claim locked others stage ordered =>
      refine ⟨.held holder queue claim locked others ?_ ordered, bound,
        kept.awake⟩
      cases stage with
      | granted data frame scheduled waiter =>
          obtain ⟨gone, same⟩ := idle waiter
          exact .granted data frame (same.trans scheduled) gone
      | sending frame scheduled waiter =>
          obtain ⟨gone, same⟩ := idle waiter
          exact .sending frame (same.trans scheduled) gone
      | woken frame scheduled waiter =>
          obtain ⟨gone, same⟩ := idle waiter
          exact .woken frame (same.trans scheduled) gone
      | asleep frame scheduled waiter nothing =>
          cases isServed with
          | taken gone wake ready =>
              refine .woken frame ?_ gone
              rw [withQueue, wake, waiter, bound, scheduled]
              rfl
          | passed same wake ready =>
              refine .asleep frame ?_ (same.trans waiter) (ready.trans nothing)
              rw [withQueue, wake, scheduled]
              rfl

theorem exec_push (queue : AsyncQueue Unit Unit Sender) :
    (queue.push ()).1.exec = queue.exec := by
  unfold AsyncQueue.push
  split
  · rfl
  · rfl

variable [DecidableEq Sender]

theorem kept_leave (goes : Goes stream sender queue) {reason : SendReason}
    (ordered : Ordered queue stream.out stream.log)
    (sent : reason = .sent → stream.out = []) :
    Kept (stream.leave sender reason) := by
  have left := ordered.leave sender sent
  have others := goes.others.update SendFrame.returned
  have returned : Function.update stream.frames sender .returned sender =
      .returned := Function.update_self _ _ _
  cases queue with
  | nil =>
      have nobody : stream.sendLockWaiters = [] := goes.others.waiters
      have same : stream.leave sender reason = { stream with
          frames := Function.update stream.frames sender .returned
          log := stream.log ++ [.returned sender reason]
          sendLocked := false } := by
        simp [leave, unlockSend, setFrame, nobody]
      rw [same]
      exact ⟨.free rfl goes.scheduled goes.waiter nobody
        (others.last returned) left, goes.exec, goes.awake⟩
  | cons head rest =>
      obtain ⟨next, data⟩ := head
      have somebody : stream.sendLockWaiters =
          next :: rest.map Prod.fst := goes.others.waiters
      have same : stream.leave sender reason = { stream with
          frames := Function.update stream.frames sender .returned
          log := stream.log ++ [.returned sender reason]
          sendLockWaiters := rest.map Prod.fst
          scheduled := [next] } := by
        simp [leave, unlockSend, setFrame, somebody, goes.scheduled]
      rw [same]
      obtain ⟨waits, others⟩ := others.next returned
      exact ⟨.held next rest [(next, data)] goes.locked others
        (.granted data waits rfl goes.waiter) left, goes.exec, goes.awake⟩

theorem kept_enter {data : List Byte}
    (others : Others stream.frames stream.sendLockWaiters sender queue)
    (scheduled : stream.scheduled = [])
    (waiter : stream.sendReadyQ.waiter = none)
    (exec : stream.sendReadyQ.exec = some ())
    (awake : stream.misused = false)
    (ordered : Ordered ((sender, data) :: queue) stream.out stream.log) :
    Kept (stream.enter sender data) := by
  have goes : Goes ({ stream with
      sendLocked := true
      out := stream.out ++ data
      log := stream.log ++ [SendEvent.entered sender data] }.setFrame sender
        .sending) sender queue :=
    ⟨rfl, others.update _, scheduled, waiter, exec, awake⟩
  unfold enter
  simp only
  split
  · exact kept_sending goes (Function.update_self _ _ _) ordered.enter
  · apply kept_leave goes ordered.enter
    nofun

theorem kept_sendAll (kept : Kept stream) (idle : stream.frames sender = .idle)
    (data : List Byte) : Kept (stream.sendAll sender data) := by
  cases kept.held with
  | free unlocked scheduled waiter waiters outside ordered =>
      have enters : stream.sendAll sender data = ({ stream with
          log := stream.log ++ [SendEvent.called sender data] }).enter sender
            data := if_neg (ne_true_of_eq_false unlocked)
      have others : Others stream.frames stream.sendLockWaiters sender [] := by
        refine ⟨waiters, ?_, ?_, by simp⟩
        · intro other more _
          cases outside other with
          | inl isIdle => simp [isIdle]
          | inr returned => simp [returned]
        · intro other _
          cases outside other with
          | inl isIdle => simp [isIdle]
          | inr returned => simp [returned]
      rw [enters]
      exact kept_enter others scheduled waiter kept.exec kept.awake
        (ordered.call sender data)
  | held holder queue claim locked others stage ordered =>
      have waits : stream.sendAll sender data = { stream with
          log := stream.log ++ [SendEvent.called sender data]
          sendLockWaiters := stream.sendLockWaiters ++ [sender] }.setFrame
            sender (.waitingLock data) := if_pos locked
      rw [waits]
      have different : sender ≠ holder := by
        rintro rfl
        cases stage with
        | granted _ frame => exact SendFrame.noConfusion (idle.symm.trans frame)
        | sending frame => exact SendFrame.noConfusion (idle.symm.trans frame)
        | asleep frame => exact SendFrame.noConfusion (idle.symm.trans frame)
        | woken frame => exact SendFrame.noConfusion (idle.symm.trans frame)
      have same : Function.update stream.frames sender (.waitingLock data)
          holder = stream.frames holder :=
        Function.update_of_ne (Ne.symm different) _ _
      refine ⟨.held holder (queue ++ [(sender, data)]) claim locked
        (others.wait idle different) ?_ ?_, kept.exec, kept.awake⟩
      · cases stage with
        | granted data frame scheduled waiter =>
            exact .granted data (same.trans frame) scheduled waiter
        | sending frame scheduled waiter =>
            exact .sending (same.trans frame) scheduled waiter
        | asleep frame scheduled waiter nothing =>
            exact .asleep (same.trans frame) scheduled waiter nothing
        | woken frame scheduled waiter =>
            exact .woken (same.trans frame) scheduled waiter
      · have called := ordered.call sender data
        rw [List.append_assoc] at called
        exact called

theorem kept_readyPopped (goes : Goes stream sender queue)
    (ordered : Ordered queue stream.out stream.log) :
    Kept (stream.readyPopped sender) := by
  have popped : stream.sendReadyQ.awaitResume.2.waiter =
        stream.sendReadyQ.waiter ∧
      stream.sendReadyQ.awaitResume.2.exec = stream.sendReadyQ.exec := by
    unfold AsyncQueue.awaitResume
    split
    · exact ⟨rfl, rfl⟩
    · exact ⟨rfl, rfl⟩
  have goes : Goes ({ stream with
      sendReadyQ := stream.sendReadyQ.awaitResume.2 }.setFrame sender .sending)
        sender queue :=
    ⟨goes.locked, goes.others.update _, goes.scheduled,
      popped.1.trans goes.waiter, popped.2.trans goes.exec, goes.awake⟩
  unfold readyPopped
  simp only
  split
  · exact kept_sending goes (Function.update_self _ _ _) ordered
  · apply kept_leave goes ordered
    nofun

theorem kept_awaitReady (goes : Goes stream sender queue)
    (ordered : Ordered queue stream.out stream.log) :
    Kept (stream.awaitReady sender) := by
  unfold awaitReady
  split
  · exact kept_readyPopped goes ordered
  · next nothing =>
      have frame : Function.update stream.frames sender .awaitingReady sender =
          .awaitingReady := Function.update_self _ _ _
      exact ⟨.held sender queue [] goes.locked (goes.others.update _)
        (.asleep frame goes.scheduled rfl (Bool.eq_false_iff.mpr nothing))
        ordered, goes.exec, goes.awake⟩

theorem goes_of_sending (kept : Kept stream)
    (sends : stream.frames sender = .sending) :
    ∃ queue, Goes stream sender queue ∧
      Ordered queue stream.out stream.log := by
  cases kept.held with
  | free unlocked scheduled waiter waiters outside ordered =>
      cases outside sender with
      | inl idle => exact SendFrame.noConfusion (sends.symm.trans idle)
      | inr returned => exact SendFrame.noConfusion (sends.symm.trans returned)
  | held holder queue claim locked others stage ordered =>
      have same : sender = holder := by
        by_contra different
        exact (others.outside sender different).1 sends
      subst same
      cases stage with
      | granted data frame => exact SendFrame.noConfusion (sends.symm.trans frame)
      | sending frame scheduled waiter =>
          exact ⟨queue, ⟨locked, others, scheduled, waiter, kept.exec,
            kept.awake⟩, ordered⟩
      | asleep frame => exact SendFrame.noConfusion (sends.symm.trans frame)
      | woken frame => exact SendFrame.noConfusion (sends.symm.trans frame)

theorem kept_round (kept : Kept stream)
    (sends : stream.frames sender = .sending) (result : TrySendResult) :
    Kept (stream.round sender result) := by
  obtain ⟨queue, goes, ordered⟩ := goes_of_sending kept sends
  unfold round
  split
  · next nothing => exact kept_leave goes ordered fun _ => nothing
  · split
    · have closes : Goes (stream.withQueue stream.sendReadyQ.close) sender
          queue := by
        refine ⟨goes.locked, goes.others, ?_, rfl, goes.exec, goes.awake⟩
        simp [withQueue, AsyncQueue.close, AsyncQueue.release, goes.waiter,
          goes.scheduled, Wake.handed]
      apply kept_leave closes ordered
      simp
    · split
      · refine kept_sending ?_ sends (ordered.takes result.n)
        exact ⟨goes.locked, goes.others, goes.scheduled, goes.waiter,
          goes.exec, goes.awake⟩
      · split
        · exact kept_awaitReady goes ordered
        · apply kept_leave goes ordered
          simp

theorem kept_resume (kept : Kept stream) (member : sender ∈ stream.scheduled) :
    Kept ({ stream with
      scheduled := stream.scheduled.erase sender }.resume sender) := by
  cases kept.held with
  | free unlocked scheduled =>
      rw [scheduled] at member
      cases member
  | held holder queue claim locked others stage ordered =>
      cases stage with
      | granted data frame scheduled waiter =>
          rw [scheduled] at member ⊢
          cases List.mem_singleton.mp member
          have none : [sender].erase sender = [] := by simp
          rw [none]
          simp only [resume, frame]
          exact kept_enter others rfl waiter kept.exec kept.awake ordered
      | sending frame scheduled =>
          rw [scheduled] at member
          cases member
      | asleep frame scheduled =>
          rw [scheduled] at member
          cases member
      | woken frame scheduled waiter =>
          rw [scheduled] at member ⊢
          cases List.mem_singleton.mp member
          have none : [sender].erase sender = [] := by simp
          rw [none]
          simp only [resume, frame]
          have goes : Goes { stream with scheduled := [] } sender queue :=
            ⟨locked, others, rfl, waiter, kept.exec, kept.awake⟩
          exact kept_readyPopped goes ordered

theorem kept_step {label : StreamLabel Sender} (kept : Kept stream)
    (stepped : stream.step label = some after) : Kept after := by
  cases label with
  | sendAll sender data =>
      obtain ⟨idle, same⟩ := Option.ite_none_right_eq_some.mp stepped
      cases same
      exact kept_sendAll kept idle data
  | resume sender =>
      obtain ⟨member, same⟩ := Option.ite_none_right_eq_some.mp stepped
      cases same
      exact kept_resume kept member
  | trySend sender result =>
      obtain ⟨sends, same⟩ := Option.ite_none_right_eq_some.mp stepped
      cases same
      exact kept_round kept sends result
  | onSendReady =>
      cases stepped
      exact kept_withQueue kept (served_push ()) (exec_push _)
  | onClose =>
      cases stepped
      exact kept_withQueue kept served_close rfl

/-- In a state of any run: the calls that have had the lock are the first ones,
in their order; their bytes are those the watcher has taken, in order, and then
`out`, which is empty where a call returns from the end of its loop.  One at
most is between taking the lock and releasing it, nobody waits for a lock that
is free, and who waits for `send_ready_q_` is its waiter or is woken. -/
structure SendsKept (stream : AsyncTcpStream Sender) : Prop where
  fifo : entered stream.log <+: called stream.log
  bytes : appended stream.log = took stream.log ++ stream.out
  complete : ∀ before sender,
    before ++ [SendEvent.returned sender .sent] <+: stream.log →
      took before = appended before
  single : ∀ sender other,
    stream.frames sender = .sending ∨ stream.frames sender = .awaitingReady →
    stream.frames other = .sending ∨ stream.frames other = .awaitingReady →
    sender = other
  granted : ∀ sender data, stream.frames sender = .waitingLock data →
    stream.sendLocked = true ∧ (stream.scheduled ≠ [] ∨ ∃ other,
      stream.frames other = .sending ∨ stream.frames other = .awaitingReady)
  woken : ∀ sender, stream.frames sender = .awaitingReady →
    sender ∈ stream.scheduled ∨
      stream.sendReadyQ.waiter = some sender ∧ stream.sendReadyQ.q = [] ∧
        stream.sendReadyQ.closed = false
  awake : stream.misused = false

theorem single_of_others {holder : Sender}
    {frames : Sender → SendFrame} {waiters : List Sender}
    (others : Others frames waiters holder queue)
    (inside : frames sender = .sending ∨ frames sender = .awaitingReady) :
    sender = holder := by
  by_contra different
  obtain ⟨notSending, notAwaiting⟩ := others.outside sender different
  exact inside.elim notSending notAwaiting

theorem outside_frame {frame : SendFrame}
    (outside : frame = .idle ∨ frame = .returned) :
    (∀ data, frame ≠ .waitingLock data) ∧ frame ≠ .sending ∧
      frame ≠ .awaitingReady := by
  cases outside with
  | inl idle =>
      subst idle
      exact ⟨nofun, nofun, nofun⟩
  | inr returned =>
      subst returned
      exact ⟨nofun, nofun, nofun⟩

theorem Kept.sendsKept (kept : Kept stream) : SendsKept stream := by
  cases kept.held with
  | free unlocked scheduled waiter waiters outside ordered =>
      refine ⟨ordered.fifo ▸ List.prefix_append _ _, ordered.bytes,
        ordered.complete, ?_, ?_, ?_, kept.awake⟩
      · intro sender other inside _
        obtain ⟨-, notSending, notAwaiting⟩ := outside_frame (outside sender)
        exact absurd inside (not_or.mpr ⟨notSending, notAwaiting⟩)
      · intro sender data waits
        exact absurd waits ((outside_frame (outside sender)).1 data)
      · intro sender waits
        exact absurd waits (outside_frame (outside sender)).2.2
  | held holder queue claim locked others stage ordered =>
      refine ⟨ordered.fifo ▸ List.prefix_append _ _, ordered.bytes,
        ordered.complete, ?_, ?_, ?_, kept.awake⟩
      · intro sender other inside also
        exact (single_of_others others inside).trans
          (single_of_others others also).symm
      · intro sender data _
        refine ⟨locked, ?_⟩
        cases stage with
        | granted _ _ scheduled =>
            rw [scheduled]
            exact .inl (List.cons_ne_nil _ _)
        | sending frame => exact .inr ⟨holder, .inl frame⟩
        | asleep frame => exact .inr ⟨holder, .inr frame⟩
        | woken frame => exact .inr ⟨holder, .inr frame⟩
      · intro sender waits
        obtain rfl := single_of_others others (.inr waits)
        cases stage with
        | granted data frame =>
            exact SendFrame.noConfusion (waits.symm.trans frame)
        | sending frame => exact SendFrame.noConfusion (waits.symm.trans frame)
        | asleep frame scheduled waiter nothing =>
            refine .inr ⟨waiter, ?_⟩
            simpa [AsyncQueue.awaitReady, and_comm] using nothing
        | woken frame scheduled =>
            rw [scheduled]
            exact .inl List.mem_cons_self

/-- Whatever the watcher takes of each call, and in whatever order coroutines
are resumed. -/
theorem sends_kept (reached : system.Reachable stream) :
    SendsKept stream := by
  have kept : Kept stream := by
    refine reached.invariant Kept ?_ fun _ _ _ kept stepped =>
      kept_step kept stepped
    rintro stream ⟨watcher, rfl⟩
    exact ⟨.free rfl rfl rfl rfl (fun _ => .inl rfl)
      ⟨rfl, rfl, fun before sender isPrefix => by simp at isPrefix⟩, rfl, rfl⟩
  exact kept.sendsKept

end Runs

section Samples

def twoSends : List (StreamLabel Bool) :=
  [.sendAll true [1, 2], .trySend true { n := 1 },
    .trySend true { wouldBlock := true }, .sendAll false [3], .onSendReady,
    .resume true, .trySend true { n := 1 }, .trySend true {},
    .resume false, .trySend false { n := 1 }, .trySend false {}]

theorem sends_kept_twoSends :
    ∃ stream : AsyncTcpStream Bool, took stream.log = [1, 2, 3] ∧
      SendsKept stream := by
  obtain ⟨stream, run, bytes⟩ : ∃ after,
      (@system Bool _).replay {} twoSends = some after ∧
        took after.log = [1, 2, 3] := ⟨_, rfl, rfl⟩
  exact ⟨stream, bytes,
    sends_kept (System.Reachable.replay _ (.start ⟨true, rfl⟩) run)⟩

end Samples

end AsyncTcpStream

end RopHive.Async
