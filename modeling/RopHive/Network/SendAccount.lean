import Mathlib.Data.Nat.Find
import RopHive.Network.WriteInterest
import RopHive.Transition.Completion

namespace RopHive.Network.Connection

open Transition

/-! What a call of `trySend` reports and what it did. -/

section Closing

/-- The actions that give the descriptor up. -/
def isClosing : Action → Bool
  | .closeFd _ | .onClose => true
  | _ => false

variable (watcher : TcpConnectionWatcher)

/-- The descriptor is given up by closing, and only once. -/
inductive Closes (before after : State) (actions : List Action) : Prop where
  | kept : after.closed = before.closed → after.fd = before.fd →
      actions.filter isClosing = [] → Closes before after actions
  | closed : before.closed = false → after.closed = true → after.fd = none →
      actions.filter isClosing = closeFd before.fd ++
        (if watcher.callbacks.onClose then [Action.onClose] else []) →
      Closes before after actions

variable {watcher} {state before between after : State} {turn : Turn}
  {first last actions : List Action}

theorem Closes.quiet (sameClosed : after.closed = before.closed)
    (sameFd : after.fd = before.fd)
    (noClosing : ∀ action ∈ actions, isClosing action = false) :
    Closes watcher before after actions :=
  .kept sameClosed sameFd (List.filter_eq_nil_iff.mpr
    fun action member => by simp [noClosing action member])

theorem Closes.append (closes : Closes watcher before between first)
    (later : Closes watcher between after last) :
    Closes watcher before after (first ++ last) := by
  cases closes with
  | kept sameClosed sameFd noFirst =>
      cases later with
      | kept laterClosed laterFd noLast =>
          exact .kept (laterClosed.trans sameClosed) (laterFd.trans sameFd)
            (by rw [List.filter_append, noFirst, noLast, List.append_nil])
      | closed wasOpen isClosed noFd closing =>
          refine .closed (sameClosed.symm.trans wasOpen) isClosed noFd ?_
          rw [List.filter_append, noFirst, closing, sameFd, List.nil_append]
  | closed wasOpen isClosed noFd closing =>
      cases later with
      | kept laterClosed laterFd noLast =>
          refine .closed wasOpen (laterClosed.trans isClosed)
            (laterFd.trans noFd) ?_
          rw [List.filter_append, closing, noLast, List.append_nil]
      | closed stillOpen => simp [isClosed] at stillOpen

theorem Closes.closed_of_closed (closes : Closes watcher before after actions)
    (isClosed : before.closed = true) : after.closed = true := by
  cases closes with
  | kept sameClosed => exact sameClosed.trans isClosed
  | closed _ nowClosed => exact nowClosed

theorem closes_closeNow : Closes watcher state (closeNow watcher state).store
    (closeNow watcher state).emitted := by
  cases closed : state.closed with
  | true =>
      rw [closeNow_of_closed watcher closed]
      exact .quiet rfl rfl (by simp)
  | false =>
      rw [closeNow_of_open watcher closed]
      refine .closed closed rfl rfl ?_
      cases state.attached <;> cases state.fd <;>
        cases watcher.callbacks.onClose <;> simp [isClosing, closeFd]

theorem closeNow_closes :
    (closeNow watcher state).store.closed = true := by
  cases closed : state.closed with
  | true => simpa [closeNow_of_closed watcher closed] using closed
  | false => simp [closeNow_of_open watcher closed]

theorem closes_call (request : Request) :
    Closes watcher state (call watcher state request).store
      (call watcher state request).emitted := by
  cases request with
  | close => exact closes_closeNow
  | start | stop =>
      cases attached : state.attached <;>
        exact .quiet (by simp [call, start, stop, attached])
          (by simp [call, start, stop, attached])
          (by simp [call, start, stop, attached, isClosing])
  | trySend data =>
      apply Closes.quiet <;> grind -linarith [call, trySend, sendWhile,
        isClosing]
  | shutdownWrite =>
      apply Closes.quiet <;> grind -linarith [call, isClosing]

theorem closes_resume {point : Point} {input : Input}
    (resumed : resume watcher state point input = some turn) :
    Closes watcher state turn.store turn.emitted := by
  revert resumed
  fun_cases resume watcher state point input with
  | case1 data limit total result =>
      intro answered
      apply Closes.quiet <;> cases result <;>
        grind -linarith [sendAnswered, sendWhile, sendError, armWritable, rearm,
          isClosing]
  | case2 | case5 | case7 =>
      rintro ⟨⟩
      exact closes_closeNow
  | case3 | case4 =>
      rintro ⟨⟩
      apply Closes.quiet <;> grind -linarith [isClosing]
  | case6 remaining result =>
      intro answered
      apply Closes.quiet <;> cases result <;>
        grind -linarith [recvAnswered, isClosing]
  | case8 writable =>
      rintro ⟨⟩
      unfold afterRead
      split
      · exact closes_closeNow
      · apply Closes.quiet <;> grind -linarith [disarmWritable, rearm,
          isClosing]
  | case9 => simp

theorem closes_step {config after : Config State Point Action}
    {label : Label Request Events Input}
    (stepped : (program watcher).step config label = some after) :
    ∃ written, after.log = config.log ++ written ∧
      Closes watcher config.store after.store written := by
  obtain ⟨turn, below, takes, rfl⟩ | ⟨_, below, _, rfl⟩ :=
    Program.step_cases stepped
  · refine ⟨turn.emitted, rfl, ?_⟩
    cases takes with
    | call _ called =>
        cases called
        exact closes_call _
    | ready _ readied =>
        cases readied
        apply Closes.quiet <;>
          grind -linarith [program, onReady, noticeHangUp, Config.take,
            isClosing]
    | resume _ resumed => exact closes_resume resumed
  · exact ⟨[], by simp, .quiet rfl rfl (by simp)⟩

theorem no_fd_of_closed {config : Config State Point Action}
    (reached : (system watcher).Reachable config)
    (closed : config.store.closed = true) : config.store.fd = none := by
  revert closed
  apply reached.invariant fun config =>
    config.store.closed = true → config.store.fd = none
  · rintro config ⟨⟨fd, fresh⟩, _⟩ closed
    simp [fresh] at closed
  · intro config label after noFd stepped closed
    obtain ⟨written, _, closes⟩ := closes_step stepped
    cases closes with
    | kept sameClosed sameFd =>
        exact sameFd.trans (noFd (sameClosed.symm.trans closed))
    | closed _ _ nowNone => exact nowNone

end Closing

section Heard

variable (watcher : TcpConnectionWatcher)

/-- What the core has been told since the watcher was made. -/
def heard (log : List Action) : Told :=
  log.foldl Told.hear ⟨false, interest watcher.backend⟩

variable {watcher}

theorem heard_of_reachable {config : Config State Point Action}
    (reached : (system watcher).Reachable config) :
    heard watcher config.log = config.store.told := by
  have both : (∀ point, .code point ∈ config.stack → point.settled = true) ∧
      heard watcher config.log = config.store.told := by
    apply reached.invariant fun config =>
      (∀ point, .code point ∈ config.stack → point.settled = true) ∧
        heard watcher config.log = config.store.told
    · rintro config ⟨⟨fd, fresh⟩, noStack, noLog⟩
      rw [noStack, noLog, fresh]
      exact ⟨by simp, rfl⟩
    · rintro config label after ⟨points, told⟩ stepped
      obtain ⟨turn, below, takes, rfl⟩ | ⟨_, below, shape, rfl⟩ :=
        Program.step_cases stepped
      · refine ⟨settled_takes points takes, ?_⟩
        have tells := (tells_takes points takes).told
        rw [← told] at tells
        simpa [heard, Config.take] using tells
      · exact ⟨fun point member => points point (by simp [shape, member]),
          told⟩
  exact both.2

end Heard

section Account

def bytesSent (actions : List Action) : List Byte :=
  actions.flatMap fun
    | .sent bytes => bytes
    | _ => []

def isSent : Action → Bool
  | .sent _ => true
  | _ => false

variable (watcher : TcpConnectionWatcher)

def Numbered (label : Label Request Events Input) : Prop :=
  label ≠ .resume (.send (.failed 0))

/-- The end of a call whose `send` failed.  The user may do anything in the two
callbacks, closing the watcher included; `inError` and `inClose` are what the
calls made there do. -/
structure Fails (before : State) (result : TrySendResult) (after : State)
    (actions : List Action) : Prop where
  failed : ∃ (inError inClose : List Action) (reported : State),
    actions =
      (if watcher.callbacks.onError then [Action.onError result.err] else []) ++
        inError ++ (closeNow watcher reported).emitted ++ inClose ++
          [Action.returned result] ∧
    (program watcher).WorksOff Numbered before
      (if watcher.callbacks.onError then [.user] else []) reported inError ∧
    (program watcher).WorksOff Numbered (closeNow watcher reported).store
      (closeNow watcher reported).push after inClose
  err_ne : result.err ≠ 0
  closed : after.closed = true
  no_fd : after.fd = none
  closings : actions.filter isClosing = closeFd before.fd ++
    if watcher.callbacks.onClose then [Action.onClose] else []

/-- The end of a call whose `send` has not failed. -/
structure Ends (limit : Nat) (before : State) (result : TrySendResult)
    (after : State) (actions : List Action) : Prop where
  returned : actions =
    (if after.armedEvents = before.armedEvents then []
      else [Action.setEvents after.armedEvents]) ++ [Action.returned result]
  err_eq : result.err = 0
  complete : result.n = limit ∨ result.wouldBlock = true
  kept : after = if result.wouldBlock then
      { before with wantSendReady := true, armedEvents := after.armedEvents }
    else before

/-- What is done from a point of the loop on. -/
structure Accounts (data : List Byte) (limit total : Nat) (before : State)
    (result : TrySendResult) (after : State) (during : List Action) :
    Prop where
  split : ∃ loop rest, during = loop ++ rest ∧ (∀ action ∈ loop, isSent action) ∧
    bytesSent loop = (data.take result.n).drop total ∧
    (Ends limit before result after rest ∨
      Fails watcher before result after rest)
  passed : total ≤ result.n
  within : result.n ≤ limit
  armed : result.wouldBlock = true →
    after.wantSendReady = true ∧ after.armedEvents.writable = true

variable {watcher} {config middle after : Config State Point Action}
  {base : List (Frame Point)} {data : List Byte} {limit total : Nat}

abbrev Returns (watcher : TcpConnectionWatcher) (base : List (Frame Point))
    (config after : Config State Point Action) : Prop :=
  (program watcher).Completes Numbered base config after

theorem closes_of_returns (returns : Returns watcher base config after) :
    ∃ written, after.log = config.log ++ written ∧
      Closes watcher config.store after.store written :=
  Program.Completes.relates (fun _ => .quiet rfl rfl (by simp))
    (fun _ _ _ _ _ => Closes.append) (fun _ _ _ => closes_step) returns

theorem closes_of_worksOff {before last : State} {frames : List (Frame Point)}
    {actions : List Action}
    (works : (program watcher).WorksOff Numbered before frames last actions) :
    Closes watcher before last actions := by
  obtain ⟨written, wrote, closes⟩ := closes_of_returns works
  obtain rfl : actions = written := wrote
  exact closes

theorem fails_of_sendFailed {err : Nat}
    (completes : Returns watcher base config after)
    (shape : config.stack = Frame.code (.sendFailed err total) :: base) :
    ∃ inClose, after.log = config.log ++
        (closeNow watcher config.store).emitted ++ inClose ++
          [Action.returned { n := total, err := err }] ∧
      (program watcher).WorksOff Numbered (closeNow watcher config.store).store
        (closeNow watcher config.store).push after.store inClose := by
  obtain ⟨input, turn, _, resumed, rest⟩ := completes.code_step shape
  cases input with
  | recv | send | socketError => cases resumed
  | proceed =>
      cases resumed
      have waiting : (config.take ((closeNow watcher config.store).andThen
          [Frame.code (.sendReturn { n := total, err := err })]) base).stack =
          (closeNow watcher config.store).push ++
            ([Frame.code (.sendReturn { n := total, err := err })] ++
              base) := by
        simp [Config.take]
      obtain ⟨reached, upper, lower⟩ := rest.split _ _ waiting
      obtain ⟨inClose, wrote, works⟩ := upper.worksOff waiting
      obtain ⟨input, turn, _, resumed, nothing⟩ :=
        lower.code_step upper.stack_eq
      cases input with
      | recv | send | socketError => cases resumed
      | proceed =>
          cases resumed
          obtain rfl := nothing.nothing_left rfl
          refine ⟨inClose, ?_, works⟩
          simp [Config.take, wrote]

theorem fails_of_worksOff {before reported last : State} {err : Nat}
    {inError inClose : List Action} (isOpen : before.closed = false)
    (numbered : err ≠ 0)
    (worksError : (program watcher).WorksOff Numbered before
      (if watcher.callbacks.onError then [.user] else []) reported inError)
    (worksClose : (program watcher).WorksOff Numbered
      (closeNow watcher reported).store (closeNow watcher reported).push last
      inClose) :
    Fails watcher before { n := total, err := err } last
      ((if watcher.callbacks.onError then [Action.onError err] else []) ++
        inError ++ (closeNow watcher reported).emitted ++ inClose ++
          [Action.returned { n := total, err := err }]) := by
  have isClosed : last.closed = true :=
    (closes_of_worksOff worksClose).closed_of_closed closeNow_closes
  have closes : Closes watcher before last
      ((if watcher.callbacks.onError then [Action.onError err] else []) ++
        inError ++ (closeNow watcher reported).emitted ++ inClose ++
          [Action.returned { n := total, err := err }]) := by
    refine Closes.append (.append (.append (.append ?_
      (closes_of_worksOff worksError)) closes_closeNow)
        (closes_of_worksOff worksClose)) ?_
    · exact .quiet rfl rfl (by simp [isClosing])
    · exact .quiet rfl rfl (by simp [isClosing])
  cases closes with
  | kept sameClosed => simp [isOpen, isClosed] at sameClosed
  | closed _ _ noFd closings =>
      exact
        { failed := ⟨inError, inClose, reported, rfl, worksError, worksClose⟩
          err_ne := numbered
          closed := isClosed
          no_fd := noFd
          closings := closings }

theorem accounts_of_sendError {err : Nat}
    (isOpen : config.store.closed = false) (numbered : err ≠ 0)
    (within : total ≤ limit)
    (completes : Returns watcher base
      (config.take (sendError watcher config.store err total) base) after) :
    ∃ during, after.log = config.log ++ during ∧
      Accounts watcher data limit total config.store
        { n := total, err := err } after.store during := by
  have waiting : (config.take (sendError watcher config.store err total)
      base).stack = (if watcher.callbacks.onError then [Frame.user] else []) ++
        ([Frame.code (.sendFailed err total)] ++ base) := by
    simp [Config.take, sendError]
  have sameStore : (config.take (sendError watcher config.store err total)
      base).store = config.store := by
    simp [Config.take, sendError]
  obtain ⟨reached, upper, lower⟩ := completes.split _ _ waiting
  obtain ⟨inError, wrote, worksError⟩ := upper.worksOff waiting
  rw [sameStore] at worksError
  obtain ⟨inClose, wroteLast, worksClose⟩ :=
    fails_of_sendFailed lower upper.stack_eq
  have fails := @fails_of_worksOff _ total _ _ _ _ _ _ isOpen numbered
    worksError worksClose
  refine ⟨_, ?_,
    { split := ⟨[], _, rfl, by simp, by simp [bytesSent], .inr fails⟩
      passed := Nat.le_refl _
      within := within
      armed := by simp }⟩
  rw [wroteLast, wrote]
  simp [Config.take, sendError]

theorem drop_take_split {count last : Nat} (ordered : total + count ≤ last) :
    (data.drop total).take count ++ (data.take last).drop (total + count) =
      (data.take last).drop total := by
  have first : (data.drop total).take count =
      ((data.take last).drop total).take count := by
    rw [List.drop_take, List.take_take, Nat.min_eq_left (by omega)]
  rw [first, ← List.drop_drop, List.take_append_drop]

theorem Accounts.sent {count : Nat} {before state : State}
    {result : TrySendResult} {during : List Action}
    (accounts : Accounts watcher data limit (total + count) before result state
      during) :
    Accounts watcher data limit total before result state
      (.sent ((data.drop total).take count) :: during) where
  split := by
    obtain ⟨loop, rest, rfl, sent, bytes, ending⟩ := accounts.split
    refine ⟨.sent ((data.drop total).take count) :: loop, rest, rfl, ?_, ?_,
      ending⟩
    · simpa [isSent] using sent
    · have pieces := @drop_take_split data total count result.n
        accounts.passed
      rw [← pieces, ← bytes]
      rfl
  passed := by
    have passed := accounts.passed
    omega
  within := accounts.within
  armed := accounts.armed

theorem Ends.accounts {before state : State} {result : TrySendResult}
    {actions : List Action} (ends : Ends limit before result state actions)
    (within : result.n ≤ limit)
    (armed : result.wouldBlock = true →
      state.wantSendReady = true ∧ state.armedEvents.writable = true) :
    Accounts watcher data limit result.n before result state actions where
  split := ⟨[], actions, rfl, nofun, by simp [bytesSent], .inl ends⟩
  passed := Nat.le_refl _
  within := within
  armed := armed

theorem accounts_of_complete (state : State) :
    Accounts watcher data limit limit state { n := limit } state
      [.returned { n := limit }] := by
  have ends : Ends limit state { n := limit } state
      [.returned { n := limit }] :=
    { returned := by simp
      err_eq := rfl
      complete := .inl rfl
      kept := rfl }
  exact ends.accounts (Nat.le_refl _) nofun

theorem rearm_eq (state : State) (want : Events) :
    rearm state want = ({ state with armedEvents := want },
      if want = state.armedEvents then [] else [.setEvents want]) := by
  unfold rearm
  split
  · next same => rw [same]
  · rfl

theorem accounts_of_wouldBlock (state : State) (within : total ≤ limit) :
    Accounts watcher data limit total state { n := total, wouldBlock := true }
      (armWritable watcher { state with wantSendReady := true }).1
      ((armWritable watcher { state with wantSendReady := true }).2 ++
        [Action.returned { n := total, wouldBlock := true }]) := by
  have ends : Ends limit state { n := total, wouldBlock := true }
      (armWritable watcher { state with wantSendReady := true }).1
      ((armWritable watcher { state with wantSendReady := true }).2 ++
        [Action.returned { n := total, wouldBlock := true }]) :=
    { returned := by simp [armWritable, rearm_eq]
      err_eq := rfl
      complete := .inr rfl
      kept := by simp [armWritable, rearm_eq] }
  apply ends.accounts within
  intro _
  constructor
  · exact rearm_wantSendReady _
  · simp [armWritable, Events.union]

theorem accounts_of_sendLoop (completes : Returns watcher base config after)
    (shape : config.stack = .code (.sendLoop data limit total) :: base)
    (isOpen : config.store.closed = false) (below : total < limit) :
    ∃ result during, after.log = config.log ++ during ∧
      Accounts watcher data limit total config.store result after.store
        during := by
  induction completes generalizing total with
  | done isBase =>
      have length := congrArg List.length (shape.symm.trans isBase)
      simp at length
  | @step config middle after label _ _ _ numbered stepped rest ih =>
      obtain ⟨input, turn, rfl, resumed, rfl⟩ :=
        Program.step_code shape stepped
      cases input with
      | recv | socketError | proceed => cases resumed
      | send answer =>
          cases answer with
          | accepted count =>
              simp only [program, resume, sendAnswered,
                Option.ite_none_right_eq_some, Option.some.injEq] at resumed
              obtain ⟨⟨positive, fits⟩, rfl⟩ := resumed
              by_cases more : total + count < limit
              · obtain ⟨result, during, wrote, accounts⟩ :=
                  @ih (total + count) (by simp [Config.take, sendWhile, more])
                    (by simpa [Config.take, sendWhile, more] using isOpen) more
                refine ⟨result,
                  .sent ((data.drop total).take count) :: during, ?_, ?_⟩
                · rw [wrote]
                  simp [Config.take, sendWhile, more]
                · simpa [Config.take, sendWhile, more] using accounts.sent
              · obtain rfl := rest.nothing_left (by
                  simp [Config.take, sendWhile, more])
                obtain rfl : total + count = limit := by omega
                have sameStore : (config.take ((sendWhile config.store data
                    (total + count) (total + count)).preceded
                      [.sent ((data.drop total).take count)]) base).store =
                    config.store := by
                  simp [Config.take, sendWhile]
                rw [sameStore]
                refine ⟨_, _, ?_, (accounts_of_complete _).sent⟩
                simp [Config.take, sendWhile]
          | nothing =>
              cases resumed
              obtain ⟨during, wrote, accounts⟩ :=
                accounts_of_sendError isOpen (by decide) (Nat.le_of_lt below)
                  rest
              exact ⟨_, during, wrote, accounts⟩
          | failed errno =>
              simp only [program, resume, sendAnswered] at resumed
              split at resumed
              · cases resumed
                obtain ⟨result, during, wrote, accounts⟩ :=
                  ih (by simp [Config.take, sendWhile, below])
                    (by simpa [Config.take, sendWhile, below] using isOpen)
                    below
                refine ⟨result, during, ?_, ?_⟩
                · rw [wrote]
                  simp [Config.take, sendWhile, below]
                · simpa [Config.take, sendWhile, below] using accounts
              · split at resumed
                · cases resumed
                  obtain rfl := rest.nothing_left rfl
                  refine ⟨_, _, ?_, accounts_of_wouldBlock config.store
                    (Nat.le_of_lt below)⟩
                  simp [Config.take]
                · cases resumed
                  have nonzero : errno ≠ 0 := by
                    rintro rfl
                    exact numbered rfl
                  obtain ⟨during, wrote, accounts⟩ :=
                    accounts_of_sendError isOpen nonzero (Nat.le_of_lt below)
                      rest
                  exact ⟨_, during, wrote, accounts⟩

/-- Only the loop of `trySend` waits for an answer of `send`. -/
theorem send_step {answer : SendResult} {config after : Config State Point Action}
    (stepped : (program watcher).step config (.resume (.send answer)) =
      some after) :
    ∃ data limit total below,
      config.stack = .code (.sendLoop data limit total) :: below ∧
        ∃ turn, sendAnswered watcher config.store data limit total answer =
          some turn ∧ after = config.take turn below := by
  obtain ⟨turn, below, takes, rfl⟩ | ⟨noSend, _⟩ := Program.step_cases stepped
  · cases takes with
    | @resume point _ _ _ shape resumed =>
        cases point with
        | sendLoop data limit total =>
            exact ⟨data, limit, total, below, shape, turn, resumed, rfl⟩
        | _ => cases resumed
  · cases noSend

/-- Nothing but EINTR keeps the loop from getting on. -/
theorem sendAnswered_cases {state : State} {answer : SendResult} {turn : Turn}
    (other : answer ≠ .failed Errno.eintr)
    (answered : sendAnswered watcher state data limit total answer =
      some turn) :
    (∃ count, 0 < count ∧ total + count < limit ∧
      turn.push = [.code (.sendLoop data limit (total + count))]) ∨
    turn.push = [] ∨
    ∃ err, turn.push =
      (if watcher.callbacks.onError then [Frame.user] else []) ++
      [Frame.code (.sendFailed err total)] := by
  cases answer with
  | accepted count =>
      simp only [sendAnswered, Option.ite_none_right_eq_some,
        Option.some.injEq] at answered
      obtain ⟨⟨positive, _⟩, rfl⟩ := answered
      by_cases more : total + count < limit
      · exact .inl ⟨count, positive, more, by simp [sendWhile, more]⟩
      · exact .inr (.inl (by simp [sendWhile, more]))
  | nothing =>
      cases answered
      exact .inr (.inr ⟨Errno.eio, by simp [sendError]⟩)
  | failed errno =>
      have noEintr : errno ≠ Errno.eintr := by
        rintro rfl
        exact other rfl
      simp only [sendAnswered, if_neg noEintr] at answered
      split at answered
      · cases answered
        exact .inr (.inl rfl)
      · cases answered
        exact .inr (.inr ⟨errno, by simp [sendError]⟩)

theorem stays_of_eintr {config after : Config State Point Action}
    (shape : config.stack = .code (.sendLoop data limit total) :: base)
    (below : total < limit)
    (stepped : (program watcher).step config
      (.resume (.send (.failed Errno.eintr))) = some after) :
    after.stack = .code (.sendLoop data limit total) :: base := by
  simp [Program.step, shape, program, resume, sendAnswered, sendWhile, below,
    Config.take] at stepped
  rw [← stepped]

/-- As long as `send` answers, the loop gets on, unless all it hears from some
time on is EINTR. -/
theorem sendLoop_progress (run : ℕ → Config State Point Action)
    (answers : ℕ → SendResult)
    (shape : (run 0).stack = .code (.sendLoop data limit total) :: base)
    (below : total < limit)
    (stuck : ∀ data limit total below,
      base ≠ .code (.sendLoop data limit total) :: below)
    (steps : ∀ i, (program watcher).step (run i) (.resume (.send (answers i))) =
      some (run (i + 1))) :
    ∃ start, ∀ i, start ≤ i → answers i = .failed Errno.eintr := by
  induction left : limit - total using Nat.strongRecOn generalizing total run
    answers with
  | ind left ih =>
  by_cases always : ∀ i, answers i = .failed Errno.eintr
  · exact ⟨0, fun i _ => always i⟩
  rw [not_forall] at always
  obtain ⟨first, other, earlier⟩ : ∃ first, answers first ≠ .failed Errno.eintr ∧
      ∀ i, i < first → answers i = .failed Errno.eintr :=
    ⟨Nat.find always, Nat.find_spec always, fun i less =>
      of_not_not (Nat.find_min always less)⟩
  have waiting : ∀ i, i ≤ first →
      (run i).stack = .code (.sendLoop data limit total) :: base := by
    intro i reached
    induction i with
    | zero => exact shape
    | succ i ihi =>
        have stepped := steps i
        rw [earlier i reached] at stepped
        exact stays_of_eintr (ihi (Nat.le_of_succ_le reached)) below stepped
  have shapeFirst := waiting first (Nat.le_refl _)
  obtain ⟨data', limit', total', below', shape', turn, answered, next⟩ :=
    send_step (steps first)
  obtain ⟨_, _, _, _, shapeNext, _⟩ := send_step (steps (first + 1))
  rw [shapeFirst] at shape'
  cases shape'
  rw [next] at shapeNext
  obtain ⟨count, positive, more, pushed⟩ | pushed | ⟨err, pushed⟩ :=
    sendAnswered_cases other answered
  · obtain ⟨start, later⟩ := ih (limit - (total + count)) (by omega)
      (fun i => run (first + 1 + i)) (fun i => answers (first + 1 + i))
      (by simp [next, Config.take, pushed]) more
      (fun i => steps (first + 1 + i)) rfl
    refine ⟨first + 1 + start, ?_⟩
    intro i reached
    have := later (i - (first + 1)) (by omega)
    rwa [Nat.add_sub_cancel' (by omega)] at this
  · simp only [Config.take, pushed, List.nil_append] at shapeNext
    exact absurd shapeNext (stuck _ _ _ _)
  · cases present : watcher.callbacks.onError <;>
      simp [Config.take, pushed, present] at shapeNext

theorem trySend_step {config begun : Config State Point Action}
    (called : (program watcher).step config (.call (.trySend data)) =
      some begun) :
    begun = config.take (trySend watcher config.store data) config.stack ∧
      ∀ point below, config.stack ≠ .code point :: below := by
  obtain ⟨turn, below, takes, rfl⟩ | ⟨noCall, _⟩ := Program.step_cases called
  · cases takes with
    | call userOnTop taken =>
        cases taken
        refine ⟨rfl, ?_⟩
        intro point below onTop
        cases userOnTop (.code point) (by simp [onTop])
  · cases noCall

theorem trySend_cases {state : State} (isOpen : state.fd ≠ none) :
    (trySend watcher state data = .await state (.sendLoop data
        (min watcher.option.maxWriteBytesPerTick data.length) 0) ∧
      0 < min watcher.option.maxWriteBytesPerTick data.length) ∨
    (trySend watcher state data = (Turn.rest state).preceded [.returned {}] ∧
      min watcher.option.maxWriteBytesPerTick data.length = 0) := by
  obtain ⟨fd, isFd⟩ := Option.ne_none_iff_exists'.mp isOpen
  simp only [trySend, isFd, sendWhile]
  by_cases empty : data = []
  · simp [empty]
  · rw [if_neg empty]
    split
    · next more => exact .inl ⟨rfl, more⟩
    · next none => exact .inr ⟨rfl, by omega⟩

theorem accounts_of_trySend (isOpen : config.store.closed = false)
    (hasFd : config.store.fd ≠ none)
    (returns : Returns watcher config.stack
      (config.take (trySend watcher config.store data) config.stack) after) :
    ∃ result during, after.log = config.log ++ during ∧
      Accounts watcher data
        (min watcher.option.maxWriteBytesPerTick data.length) 0 config.store
        result after.store during := by
  obtain ⟨waits, more⟩ | ⟨returned, nothing⟩ :=
    @trySend_cases watcher data _ hasFd
  · rw [waits] at returns
    obtain ⟨result, during, wrote, accounts⟩ :=
      accounts_of_sendLoop returns rfl isOpen more
    refine ⟨result, during, ?_, accounts⟩
    simpa [Config.take] using wrote
  · rw [returned] at returns
    obtain rfl := returns.nothing_left rfl
    rw [nothing]
    exact ⟨_, _, rfl, accounts_of_complete _⟩

theorem refused_of_trySend (noFd : config.store.fd = none)
    (returns : Returns watcher config.stack
      (config.take (trySend watcher config.store data) config.stack) after) :
    after.store = config.store ∧
      after.log = config.log ++ [Action.returned { err := Errno.ebadf }] := by
  rw [trySend, noFd] at returns
  obtain rfl := returns.nothing_left rfl
  exact ⟨rfl, rfl⟩

/-- Every byte is accounted for by a call of `trySend` in any state of a run,
whatever `send` answers and whatever the user does in the callbacks; and only an
endless row of EINTR keeps the call from getting to its end.  What a return has
armed is what the core was told. -/
theorem trySend_accounts {config begun : Config State Point Action}
    {data : List Byte} (reached : (system watcher).Reachable config)
    (called : (program watcher).step config (.call (.trySend data)) =
      some begun) :
    (∀ after, Returns watcher config.stack begun after →
      (config.store.fd ≠ none → ∃ result during,
        after.log = config.log ++ during ∧
          Accounts watcher data
            (min watcher.option.maxWriteBytesPerTick data.length) 0
            config.store result after.store during) ∧
      (config.store.closed = true ∨ config.store.fd = none →
        after.store = config.store ∧
          after.log = config.log ++ [Action.returned { err := Errno.ebadf }]) ∧
      heard watcher after.log = after.store.told) ∧
    ∀ (run : ℕ → Config State Point Action) (answers : ℕ → SendResult),
      run 0 = begun →
      (∀ i, (program watcher).step (run i) (.resume (.send (answers i))) =
        some (run (i + 1))) →
      ∃ start, ∀ i, start ≤ i → answers i = .failed Errno.eintr := by
  have stepped : (system watcher).step config (.call (.trySend data)) =
      some begun := called
  have begins := reached.next stepped
  obtain ⟨rfl, userOnTop⟩ := trySend_step called
  constructor
  · intro after returns
    refine ⟨?_, ?_, heard_of_reachable (returns.reachable begins)⟩
    · intro hasFd
      have isOpen : config.store.closed = false := by
        by_contra closed
        exact hasFd (no_fd_of_closed reached (by simpa using closed))
      exact accounts_of_trySend isOpen hasFd returns
    · intro shut
      have noFd : config.store.fd = none :=
        shut.elim (no_fd_of_closed reached) id
      exact refused_of_trySend noFd returns
  · intro run answers isBegun steps
    obtain ⟨_, _, _, _, waits, _⟩ := send_step (steps 0)
    rw [isBegun] at waits
    have hasFd : config.store.fd ≠ none := by
      intro noFd
      rw [trySend, noFd] at waits
      exact userOnTop _ _ waits
    obtain ⟨started, more⟩ | ⟨returned, _⟩ :=
      @trySend_cases watcher data _ hasFd
    · rw [started] at isBegun
      exact sendLoop_progress run answers (by rw [isBegun]; rfl) more
        (fun _ _ _ => userOnTop _) steps
    · rw [returned] at waits
      exact absurd waits (userOnTop _ _)

/-- Two bytes are sent, a signal comes, then the connection breaks. -/
theorem trySend_accounts_brokenPipe :
    let watcher := epollTcpConnectionWatcher {} ⟨true, true, true, true⟩
    let before : State := { fd := some 3, armedEvents := interest .epoll }
    let begun : Config State Point Action :=
      ⟨before, [.code (.sendLoop [1, 2, 3] 3 0)], []⟩
    ∃ after : Config State Point Action, Returns watcher [] begun after ∧
      after.log = [.sent [1, 2], .onError 32, .stopped, .closeFd 3, .onClose,
        .returned { n := 2, err := 32 }] ∧
      heard watcher after.log = after.store.told ∧
      ∃ result, Accounts watcher [1, 2, 3] 3 0 before result after.store
        after.log := by
  intro watcher before begun
  have returns : Returns watcher [] begun
      ⟨{ fd := none, closed := true, armedEvents := interest .epoll }, [],
        [.sent [1, 2], .onError 32, .stopped, .closeFd 3, .onClose,
          .returned { n := 2, err := 32 }]⟩ := by
    have step {config middle after : Config State Point Action}
        {frame : Frame Point} {frames : List (Frame Point)}
        (label : Label Request Events Input)
        (shape : config.stack = frame :: frames) (numbered : Numbered label)
        (stepped : (program watcher).step config label = some middle)
        (rest : Returns watcher [] middle after) :
        Returns watcher [] config after :=
      .step (shape.trans (List.append_nil _).symm) numbered stepped rest
    apply step (.resume (.send (.accepted 2))) rfl nofun rfl
    apply step (.resume (.send (.failed Errno.eintr))) rfl nofun rfl
    apply step (.resume (.send (.failed 32))) rfl nofun rfl
    apply step .leave rfl nofun rfl
    apply step (.resume .proceed) rfl nofun rfl
    apply step .leave rfl nofun rfl
    apply step (.resume .proceed) rfl nofun rfl
    exact .done rfl
  have accounts := @trySend_accounts watcher ⟨before, [], []⟩ begun [1, 2, 3]
    (.start ⟨⟨some 3, rfl⟩, rfl, rfl⟩) rfl
  obtain ⟨atOpen, _, told⟩ := accounts.1 _ returns
  obtain ⟨result, during, wrote, accounts⟩ := atOpen nofun
  refine ⟨_, returns, rfl, told, result, ?_⟩
  rw [wrote]
  exact accounts

end Account

end RopHive.Network.Connection
