import RopHive.Schedule.GlobalPool

namespace RopHive.Schedule.GlobalPool

open Transition

variable {Thread Task : Type} [DecidableEq Thread] [Fintype Thread]

namespace Call

def microHeld : Call Task → Option (List Task)
  | .tryPopCount batch => some batch
  | _ => none

def computeHeld : Call Task → Option (List Task)
  | .waitPopCount batch => some batch
  | _ => none

@[simp] theorem microHeld_idle : (idle : Call Task).microHeld = none := rfl

@[simp] theorem microHeld_tryPopCount (batch : List Task) :
    (tryPopCount batch).microHeld = some batch := rfl

@[simp] theorem computeHeld_idle : (idle : Call Task).computeHeld = none := rfl

@[simp] theorem computeHeld_waitPopCount (batch : List Task) :
    (waitPopCount batch).computeHeld = some batch := rfl

@[simp] theorem microHeld_released (call : Call Task) :
    call.released.microHeld = call.microHeld := by
  cases call <;> rfl

@[simp] theorem computeHeld_released (call : Call Task) :
    call.released.computeHeld = call.computeHeld := by
  cases call <;> rfl

end Call

/-- The calls that touch the queue of the micro pool or hold a batch of it. -/
def Call.isMicro : Call Task → Bool
  | .microPush _ | .tryPop _ | .tryPopCount _ => true
  | _ => false

def Call.isCompute : Call Task → Bool
  | .computePush _ | .waitPredicate _ | .waitPopCount _ => true
  | _ => false

section Balance

variable {state changed : State Thread Task} {thread : Thread}
  {waiter : Option Thread} {call next : Call Task}
  {ledger : BatchQueue.Ledger Thread Task}

theorem callEffect_others
    (found : state.callEffect thread waiter call = some (changed, next))
    (other : Thread) :
    changed.calls other = state.calls other ∨
      changed.calls other = (state.calls other).released := by
  cases call with
  | idle => cases found
  | notifyAll =>
      cases found
      exact .inr rfl
  | computeNotify =>
      simp only [State.callEffect] at found
      split at found <;> split at found <;> cases found
      · simp only [State.setCall, Function.update_apply]
        split
        · next same => exact .inr (by rw [same])
        · exact .inl rfl
      · exact .inl rfl
  | tryPop maxN | computePush task | waitLock maxN =>
      simp only [State.callEffect] at found
      split at found <;> cases found <;> exact .inl rfl
  | waitPredicate maxN =>
      simp only [State.callEffect] at found
      split at found
      · split at found <;> cases found <;> exact .inl rfl
      · cases found
        exact .inl rfl
  | exitExchange =>
      simp only [State.callEffect] at found
      split at found <;> cases found <;> exact .inl rfl
  | _ =>
      cases found
      exact .inl rfl

theorem held_setCall {held : Call Task → Option (List Task)}
    (released : ∀ call, held call.released = held call)
    (found : state.callEffect thread waiter call = some (changed, next)) :
    held ∘ (changed.setCall thread next).calls =
      Function.update (held ∘ state.calls) thread (held next) := by
  have others : held ∘ changed.calls = held ∘ state.calls := by
    funext other
    obtain same | roused := callEffect_others found other
    · simp [same]
    · simp [roused, released]
  rw [← others]
  exact Function.comp_update held changed.calls thread next

theorem callEffect_plainMicro (plain : call.isMicro = false)
    (found : state.callEffect thread waiter call = some (changed, next)) :
    changed.globalMicro.q = state.globalMicro.q ∧
      next.microHeld = call.microHeld := by
  cases call with
  | microPush | tryPop | tryPopCount => cases plain
  | idle => cases found
  | computeNotify =>
      simp only [State.callEffect] at found
      split at found <;> split at found <;> cases found <;> exact ⟨rfl, rfl⟩
  | computePush | waitLock | exitExchange =>
      simp only [State.callEffect] at found
      split at found <;> cases found <;> exact ⟨rfl, rfl⟩
  | waitPredicate maxN =>
      simp only [State.callEffect] at found
      split at found
      · split at found <;> cases found <;> exact ⟨rfl, rfl⟩
      · cases found
        exact ⟨rfl, rfl⟩
  | _ =>
      cases found
      exact ⟨rfl, rfl⟩

theorem balanced_micro (here : state.calls thread = call)
    (balanced : ledger.Balanced state.globalMicro.q
      (Call.microHeld ∘ state.calls))
    (found : state.callEffect thread waiter call = some (changed, next)) :
    (noteMicro thread state (changed.setCall thread next) ledger).Balanced
      changed.globalMicro.q
      (Function.update (Call.microHeld ∘ state.calls) thread
        next.microHeld) := by
  have unchanged (same : next.microHeld = call.microHeld) :
      Function.update (Call.microHeld ∘ state.calls) thread next.microHeld =
        Call.microHeld ∘ state.calls := by
    rw [same, ← here]
    exact Function.update_eq_self thread (Call.microHeld ∘ state.calls)
  cases call with
  | microPush task =>
      cases found
      rw [unchanged rfl]
      simpa [noteMicro, here] using balanced.push task
  | tryPop maxN =>
      simp only [State.callEffect] at found
      split at found
      · cases found
        rw [unchanged rfl]
        simpa [noteMicro, here, State.setCall, State.giveBack] using
          balanced.handNothing
      · next notNone =>
          cases found
          simpa [noteMicro, here, State.setCall] using
            balanced.pop notNone (by simp [here, Call.microHeld])
  | tryPopCount batch =>
      cases found
      have holds : (Call.microHeld ∘ state.calls) thread = some batch := by
        simp [here, Call.microHeld]
      simpa [noteMicro, here, State.setCall, State.giveBack] using
        balanced.hand holds (balanced.held_ne_nil holds)
  | _ =>
      obtain ⟨sameQueue, sameHeld⟩ := callEffect_plainMicro rfl found
      rw [unchanged sameHeld, sameQueue]
      simpa [noteMicro, here] using balanced

theorem callEffect_plainCompute (plain : call.isCompute = false)
    (found : state.callEffect thread waiter call = some (changed, next)) :
    changed.globalCompute.q = state.globalCompute.q ∧
      next.computeHeld = call.computeHeld := by
  cases call with
  | computePush | waitPredicate | waitPopCount => cases plain
  | idle => cases found
  | computeNotify =>
      simp only [State.callEffect] at found
      split at found <;> split at found <;> cases found <;> exact ⟨rfl, rfl⟩
  | tryPop | waitLock | exitExchange =>
      simp only [State.callEffect] at found
      split at found <;> cases found <;> exact ⟨rfl, rfl⟩
  | _ =>
      cases found
      exact ⟨rfl, rfl⟩

theorem balanced_compute (here : state.calls thread = call)
    (balanced : ledger.Balanced state.globalCompute.q
      (Call.computeHeld ∘ state.calls))
    (found : state.callEffect thread waiter call = some (changed, next)) :
    (noteCompute thread state (changed.setCall thread next) ledger).Balanced
      changed.globalCompute.q
      (Function.update (Call.computeHeld ∘ state.calls) thread
        next.computeHeld) := by
  have unchanged (same : next.computeHeld = call.computeHeld) :
      Function.update (Call.computeHeld ∘ state.calls) thread
        next.computeHeld = Call.computeHeld ∘ state.calls := by
    rw [same, ← here]
    exact Function.update_eq_self thread (Call.computeHeld ∘ state.calls)
  cases call with
  | computePush task =>
      simp only [State.callEffect] at found
      split at found
      · cases found
      · cases found
        rw [unchanged rfl]
        simpa [noteCompute, here] using balanced.push task
  | waitPredicate maxN =>
      simp only [State.callEffect] at found
      split at found
      · split at found
        · cases found
          rw [unchanged rfl]
          simpa [noteCompute, here, State.setCall, State.giveBack] using
            balanced.handNothing
        · cases found
          rw [unchanged rfl]
          simpa [noteCompute, here, State.setCall] using balanced
      · next notNone =>
          cases found
          simpa [noteCompute, here, State.setCall] using
            balanced.pop notNone (by simp [here, Call.computeHeld])
  | waitPopCount batch =>
      cases found
      have holds : (Call.computeHeld ∘ state.calls) thread = some batch := by
        simp [here]
      simpa [noteCompute, here, State.setCall, State.giveBack] using
        balanced.hand holds (balanced.held_ne_nil holds)
  | _ =>
      obtain ⟨sameQueue, sameHeld⟩ := callEffect_plainCompute rfl found
      rw [unchanged sameHeld, sameQueue]
      simpa [noteCompute, here] using balanced

end Balance

section Notified

namespace Call

/-- The call holds `mu_` of the compute pool between two steps. -/
def locks : Call Task → Bool
  | .waitPredicate _ | .waitEnter _ => true
  | _ => false

/-- The predicate was false, and `mu_` has been held since. -/
def enters : Call Task → Bool
  | .waitEnter _ => true
  | _ => false

/-- A pop that asks for nothing returns at once. -/
def limited : Call Task → Prop
  | .waitLock maxN | .waitPredicate maxN | .waitEnter maxN | .waiting maxN =>
      maxN ≠ 0
  | _ => True

/-- A task has been pushed and its notification is still to come, or the
predicate is about to be evaluated. -/
def alert : Call Task → Int
  | .computeCount | .computeNotify | .waitLock _ | .waitPredicate _ => 1
  | _ => 0

theorem alert_nonneg (call : Call Task) : 0 ≤ call.alert := by
  cases call <;> simp [alert]

theorem locks_of_enters {call : Call Task} (enters : call.enters = true) :
    call.locks = true := by
  cases call with
  | waitEnter => rfl
  | _ => cases enters

@[simp] theorem locks_released (call : Call Task) :
    call.released.locks = call.locks := by
  cases call <;> rfl

@[simp] theorem enters_released (call : Call Task) :
    call.released.enters = call.enters := by
  cases call <;> rfl

theorem limited_released {call : Call Task} (limited : call.limited) :
    call.released.limited := by
  cases call with
  | waiting => exact limited
  | _ => exact limited

@[simp] theorem isWaiting_released (call : Call Task) :
    call.released.isWaiting = false := by
  cases call <;> rfl

theorem alert_released {call : Call Task} (waiting : call.isWaiting = true) :
    call.released.alert = call.alert + 1 := by
  cases call with
  | waiting => rfl
  | _ => cases waiting

end Call

/-- While somebody is in the wait set, each queued task has a push that will
notify or a thread that will look, and no two tasks share one. -/
structure Heeded (calls : Thread → Call Task) (owner : Option Thread)
    (queue : List Task) : Prop where
  owner : ∀ thread, owner = some thread ↔ (calls thread).locks = true
  settled : ∀ thread, (calls thread).enters = true → queue = []
  limited : ∀ thread, (calls thread).limited
  heeded : (∃ thread, (calls thread).isWaiting = true) →
    (queue.length : Int) ≤ total Call.alert calls

namespace Heeded

variable {calls : Thread → Call Task} {owner : Option Thread}
  {queue : List Task} {thread : Thread} {call next : Call Task}

omit [DecidableEq Thread] in
theorem initial : Heeded (fun _ : Thread => (.idle : Call Task)) none [] where
  owner _ := by simp [Call.locks]
  settled := nofun
  limited _ := trivial
  heeded := nofun

omit [DecidableEq Thread] in
theorem owner_of_enters {other : Thread} (heeded : Heeded calls owner queue)
    (enters : (calls other).enters = true) : owner = some other :=
  (heeded.owner other).mpr (Call.locks_of_enters enters)

theorem limited_update (heeded : Heeded calls owner queue)
    (limited : next.limited) (other : Thread) :
    (Function.update calls thread next other).limited := by
  rw [Function.update_apply]
  split
  · exact limited
  · exact heeded.limited other

theorem move (heeded : Heeded calls owner queue)
    (here : calls thread = call) (locks : next.locks = call.locks)
    (enters : next.enters = true → queue = []) (limited : next.limited)
    (waits : next.isWaiting = false)
    (alert : queue = [] ∨ call.alert ≤ next.alert) :
    Heeded (Function.update calls thread next) owner queue where
  owner := by
    intro other
    have before := heeded.owner other
    grind [Function.update_apply]
  settled := by
    intro other
    have before := heeded.settled other
    grind [Function.update_apply]
  limited := heeded.limited_update limited
  heeded := by
    rintro ⟨other, waiting⟩
    obtain rfl | alert := alert
    · exact total_nonneg Call.alert_nonneg _
    · rw [total_update, here]
      have before := heeded.heeded ⟨other, by grind [Function.update_apply]⟩
      omega

theorem push (heeded : Heeded calls none queue) (task : Task)
    (here : calls thread = .computePush task) :
    Heeded (Function.update calls thread .computeCount) none
      (queue ++ [task]) where
  owner := by
    intro other
    have before := heeded.owner other
    grind [Function.update_apply, Call.locks]
  settled := by
    intro other enters
    have before (enters : (calls other).enters = true) :=
      heeded.owner_of_enters enters
    grind [Function.update_apply, Call.enters]
  limited := heeded.limited_update trivial
  heeded := by
    rintro ⟨other, waiting⟩
    rw [total_update, here]
    have before := heeded.heeded ⟨other, by
      grind [Function.update_apply, Call.isWaiting]⟩
    simp [Call.alert]
    omega

theorem acquire {maxN : Nat} (heeded : Heeded calls none queue)
    (here : calls thread = .waitLock maxN) :
    Heeded (Function.update calls thread (.waitPredicate maxN)) (some thread)
      queue where
  owner := by
    intro other
    have before := heeded.owner other
    grind [Function.update_apply, Call.locks]
  settled := by
    intro other
    have before := heeded.settled other
    grind [Function.update_apply, Call.enters]
  limited := by
    have limited := heeded.limited thread
    rw [here] at limited
    exact heeded.limited_update limited
  heeded := by
    rintro ⟨other, waiting⟩
    rw [total_update, here]
    have before := heeded.heeded ⟨other, by
      grind [Function.update_apply, Call.isWaiting]⟩
    simp [Call.alert]
    omega

theorem release {rest : List Task} (heeded : Heeded calls owner queue)
    (here : calls thread = call) (locks : call.locks = true)
    (free : next.locks = false) (limited : next.limited)
    (shorter : rest = [] ∨ next.isWaiting = false ∧
      rest.length + call.alert ≤ queue.length + next.alert) :
    Heeded (Function.update calls thread next) none rest where
  owner := by
    intro other
    have holder := heeded.owner thread
    have before := heeded.owner other
    grind [Function.update_apply]
  settled := by
    intro other enters
    have holder := heeded.owner thread
    have before (enters : (calls other).enters = true) :=
      heeded.owner_of_enters enters
    have noEnter := @Call.locks_of_enters _ next
    grind [Function.update_apply]
  limited := heeded.limited_update limited
  heeded := by
    rintro ⟨other, waiting⟩
    obtain rfl | ⟨waits, alert⟩ := shorter
    · exact total_nonneg Call.alert_nonneg _
    · rw [total_update, here]
      have before := heeded.heeded ⟨other, by grind [Function.update_apply]⟩
      omega

theorem notify {other : Thread} (heeded : Heeded calls owner queue)
    (here : calls thread = .computeNotify)
    (waiting : (calls other).isWaiting = true) :
    Heeded (Function.update
      (Function.update calls other (calls other).released) thread .idle)
      owner queue := by
  have apart : thread ≠ other := by
    rintro rfl
    rw [here] at waiting
    cases waiting
  have awake : Heeded (Function.update calls other (calls other).released)
      owner queue :=
    heeded.move rfl (Call.locks_released _) (fun enters => heeded.settled other
      (by simpa using enters)) (Call.limited_released (heeded.limited other))
      (Call.isWaiting_released _) (.inr (by
        rw [Call.alert_released waiting]
        omega))
  have stillHere : Function.update calls other (calls other).released thread =
      .computeNotify := by
    rw [Function.update_of_ne apart, here]
  constructor
  · intro third
    have before := awake.owner third
    grind [Function.update_apply, Call.locks]
  · intro third
    have before := awake.settled third
    grind [Function.update_apply, Call.enters]
  · exact awake.limited_update trivial
  · rintro ⟨third, _⟩
    rw [total_update, stillHere, total_update, Call.alert_released waiting]
    have before := heeded.heeded ⟨other, waiting⟩
    simp only [Call.alert]
    omega

theorem notifyNobody (heeded : Heeded calls owner queue)
    (here : calls thread = .computeNotify)
    (nobody : ¬ ∃ other, (calls other).isWaiting = true) :
    Heeded (Function.update calls thread .idle) owner queue where
  owner := by
    intro other
    have before := heeded.owner other
    grind [Function.update_apply, Call.locks]
  settled := by
    intro other
    have before := heeded.settled other
    grind [Function.update_apply, Call.enters]
  limited := heeded.limited_update trivial
  heeded := by
    rintro ⟨other, waiting⟩
    exact absurd ⟨other, by
      grind [Function.update_apply, Call.isWaiting]⟩ nobody

theorem notifyAll (heeded : Heeded calls owner queue)
    (here : calls thread = .notifyAll) :
    Heeded (Function.update (fun other => (calls other).released) thread
      .idle) owner queue where
  owner := by
    intro other
    have before := heeded.owner other
    grind [Function.update_apply, Call.locks, Call.locks_released]
  settled := by
    intro other
    have before := heeded.settled other
    grind [Function.update_apply, Call.enters, Call.enters_released]
  limited := by
    intro other
    have before := Call.limited_released (heeded.limited other)
    rw [Function.update_apply]
    split
    · trivial
    · exact before
  heeded := by
    rintro ⟨other, waiting⟩
    grind [Function.update_apply, Call.isWaiting, Call.isWaiting_released]

end Heeded

variable {state changed : State Thread Task} {thread : Thread}
  {waiter : Option Thread} {call next : Call Task}

theorem heeded_callEffect (here : state.calls thread = call)
    (heeded : Heeded state.calls state.owner state.globalCompute.q)
    (found : state.callEffect thread waiter call = some (changed, next)) :
    Heeded (Function.update changed.calls thread next) changed.owner
      changed.globalCompute.q := by
  have limited := heeded.limited thread
  rw [here] at limited
  cases call with
  | idle => cases found
  | microPush | microCount | tryPopCount | computeCount | waitPopCount =>
      cases found
      exact heeded.move here rfl nofun trivial rfl (.inr (Int.le_refl _))
  | tryPop | exitExchange =>
      simp only [State.callEffect] at found
      split at found <;> cases found <;>
        exact heeded.move here rfl nofun trivial rfl (.inr (Int.le_refl _))
  | waiting maxN =>
      cases found
      exact heeded.move here rfl nofun limited rfl
        (.inr (by simp [Call.alert]))
  | notifyAll =>
      cases found
      exact heeded.notifyAll here
  | computeNotify =>
      simp only [State.callEffect] at found
      split at found <;> split at found <;> cases found
      · next waiting => exact heeded.notify here waiting
      · next nobody => exact heeded.notifyNobody here nobody
  | computePush task =>
      simp only [State.callEffect] at found
      split at found <;> cases found
      next free =>
        rw [free] at heeded
        simpa [free] using heeded.push task here
  | waitLock maxN =>
      simp only [State.callEffect] at found
      split at found <;> cases found
      next free =>
        rw [free] at heeded
        exact heeded.acquire here
  | waitEnter maxN =>
      cases found
      have empty := heeded.settled thread (by rw [here]; rfl)
      exact heeded.release here rfl rfl limited (.inl empty)
  | waitPredicate maxN =>
      have empty_of_take (none : state.globalCompute.q.take maxN = []) :
          state.globalCompute.q = [] :=
        (List.take_eq_nil_iff.mp none).resolve_left limited
      simp only [State.callEffect] at found
      split at found
      · next none =>
          split at found <;> cases found
          · exact heeded.release here rfl rfl trivial
              (.inl (empty_of_take none))
          · exact heeded.move here rfl (fun _ => empty_of_take none) limited
              rfl (.inl (empty_of_take none))
      · next some =>
          cases found
          refine heeded.release here rfl rfl (by trivial) (.inr ?_)
          refine ⟨rfl, ?_⟩
          have notNone : state.globalCompute.q.length ≠ 0 := by
            intro none
            exact some (by simp [List.eq_nil_of_length_eq_zero none])
          simp only [List.length_drop, Call.alert]
          unfold Call.limited at limited
          omega

theorem heeded_begin {request : Request Task}
    (here : state.calls thread = .idle)
    (heeded : Heeded state.calls state.owner state.globalCompute.q) :
    Heeded (state.begin thread request).calls (state.begin thread request).owner
      (state.begin thread request).globalCompute.q := by
  have goes {next : Call Task} (locks : next.locks = false)
      (limited : next.limited) (waits : next.isWaiting = false) :
      Heeded (Function.update state.calls thread next) state.owner
        state.globalCompute.q :=
    heeded.move here locks (fun enters => by
      simp [Call.locks_of_enters enters] at locks) limited waits
      (.inr (Call.alert_nonneg next))
  cases request with
  | pushMicro task | pushCompute task =>
      cases task with
      | none => exact heeded
      | some task => exact goes rfl trivial rfl
  | tryPopBatch maxN =>
      simp only [State.begin]
      split
      · exact heeded
      · exact goes rfl trivial rfl
  | waitPopBatch maxN =>
      simp only [State.begin]
      split
      · exact heeded
      · next limited => exact goes rfl limited rfl
  | requestExit => exact goes rfl trivial rfl

end Notified

section Run

structure Inv (state : State Thread Task) (ledgers : Ledgers Thread Task) :
    Prop where
  micro : ledgers.micro.Balanced state.globalMicro.q
    (Call.microHeld ∘ state.calls)
  compute : ledgers.compute.Balanced state.globalCompute.q
    (Call.computeHeld ∘ state.calls)
  heeded : Heeded state.calls state.owner state.globalCompute.q

variable {state after : State Thread Task} {ledgers : Ledgers Thread Task}
  {thread : Thread}

omit [Fintype Thread] in
theorem begin_cases (state : State Thread Task) (thread : Thread)
    (request : Request Task) :
    (state.begin thread request).globalMicro = state.globalMicro ∧
      (state.begin thread request).globalCompute = state.globalCompute ∧
      ((state.begin thread request).calls = state.calls ∨
        ∃ call : Call Task, call.microHeld = none ∧ call.computeHeld = none ∧
          (state.begin thread request).calls =
            Function.update state.calls thread call) := by
  cases request with
  | pushMicro task | pushCompute task =>
      cases task with
      | none => exact ⟨rfl, rfl, .inl rfl⟩
      | some task => exact ⟨rfl, rfl, .inr ⟨_, rfl, rfl, rfl⟩⟩
  | tryPopBatch maxN | waitPopBatch maxN =>
      simp only [State.begin]
      split
      · exact ⟨rfl, rfl, .inl rfl⟩
      · exact ⟨rfl, rfl, .inr ⟨_, rfl, rfl, rfl⟩⟩
  | requestExit => exact ⟨rfl, rfl, .inr ⟨_, rfl, rfl, rfl⟩⟩

omit [Fintype Thread] in
theorem held_begin {held : Call Task → Option (List Task)}
    {request : Request Task} (idle : held (state.calls thread) = none)
    (same : (state.begin thread request).calls = state.calls ∨
      ∃ call : Call Task, held call = none ∧
        (state.begin thread request).calls =
          Function.update state.calls thread call) :
    held ∘ (state.begin thread request).calls = held ∘ state.calls := by
  obtain same | ⟨call, none, same⟩ := same
  · rw [same]
  · rw [same, Function.comp_update, none, ← idle]
    exact Function.update_eq_self thread (held ∘ state.calls)

theorem inv_begin (inv : Inv state ledgers) (request : Request Task)
    (here : state.calls thread = .idle) :
    Inv (state.begin thread request) ledgers := by
  obtain ⟨sameMicro, sameCompute, moved⟩ :=
    begin_cases state thread request
  constructor
  · rw [sameMicro, held_begin (by rw [here]; rfl)
      (moved.imp id fun ⟨call, empty, _, same⟩ => ⟨call, empty, same⟩)]
    exact inv.micro
  · rw [sameCompute, held_begin (by rw [here]; rfl)
      (moved.imp id fun ⟨call, _, empty, same⟩ => ⟨call, empty, same⟩)]
    exact inv.compute
  · exact heeded_begin here inv.heeded

theorem inv_step {label : Label Thread Task} (inv : Inv state ledgers)
    (stepped : state.step label = some after) :
    Inv after (observe state label after ledgers) := by
  cases label with
  | call thread request =>
      simp only [State.step] at stepped
      split at stepped
      · next here =>
          cases stepped
          exact inv_begin inv request here
      · cases stepped
  | advance thread waiter =>
      obtain ⟨⟨changed, next⟩, found, rfl⟩ :=
        Option.map_eq_some_iff.mp stepped
      constructor
      · have balanced := balanced_micro rfl inv.micro found
        rw [← held_setCall Call.microHeld_released found] at balanced
        exact balanced
      · have balanced := balanced_compute rfl inv.compute found
        rw [← held_setCall Call.computeHeld_released found] at balanced
        exact balanced
      · exact heeded_callEffect rfl inv.heeded found

theorem inv_of_reachable
    (reached : observed.Reachable (state, ledgers)) : Inv state ledgers := by
  apply System.withHistory_invariant Inv _ _ reached
  · rintro state rfl
    exact ⟨.initial, .initial, .initial⟩
  · intro state ledgers label after inv _ stepped
    exact inv_step inv stepped

def Call.pushesCompute : Call Task → Bool
  | .computePush _ | .computeCount | .computeNotify => true
  | _ => false

def Call.looks : Call Task → Bool
  | .waitLock _ | .waitPredicate _ => true
  | _ => false

/-- In every run both pools hand out in batches what was pushed, in the order
of the locked sections, and while the compute pool holds tasks and nobody is
pushing, not everybody in `waitPopBatch` is in the wait set. -/
theorem pools_fifo_and_heeded
    (reached : observed.Reachable (state, ledgers)) :
    ledgers.micro.Balanced state.globalMicro.q
        (Call.microHeld ∘ state.calls) ∧
      ledgers.compute.Balanced state.globalCompute.q
        (Call.computeHeld ∘ state.calls) ∧
      (state.globalCompute.q ≠ [] →
        (∀ thread, (state.calls thread).pushesCompute = false) →
        (∃ thread, (state.calls thread).isWaiting = true) →
          ∃ thread, (state.calls thread).looks = true) := by
  have inv := inv_of_reachable reached
  refine ⟨inv.micro, inv.compute, ?_⟩
  intro notEmpty noPush somebody
  have count := inv.heeded.heeded somebody
  have positive := List.length_pos_of_ne_nil notEmpty
  obtain ⟨thread, alert⟩ :=
    exists_of_total_pos (show 0 < total Call.alert state.calls by omega)
  refine ⟨thread, ?_⟩
  have notPush := noPush thread
  cases here : state.calls thread with
  | waitLock | waitPredicate => rfl
  | computeCount | computeNotify => simp [here, Call.pushesCompute] at notPush
  | _ => simp [here, Call.alert] at alert

/-- A consumer waits, a producer pushes twice, and the second task is still
queued when the first has been popped. -/
def pushesToWaiter : List (Label Bool Nat) :=
  [.call true (.waitPopBatch 1), .advance true none, .advance true none,
    .advance true none, .call false (.pushCompute (some 7)),
    .advance false none, .advance false none, .advance false (some true),
    .call false (.pushCompute (some 8)), .advance false none,
    .advance true none, .advance true none]

theorem pools_fifo_and_heeded_pushesToWaiter :
    ∃ (state : State Bool Nat) (ledgers : Ledgers Bool Nat),
      state.globalCompute.q = [8] ∧ ledgers.compute.pushed = [7, 8] ∧
        ledgers.compute.pops = [⟨true, 1, [7]⟩] ∧
        ledgers.compute.Balanced state.globalCompute.q
          (Call.computeHeld ∘ state.calls) := by
  have run : (observed.replay (({}, {}) : State Bool Nat × Ledgers Bool Nat)
      pushesToWaiter).map (fun reached => (reached.1.globalCompute.q,
        reached.2.compute.pushed, reached.2.compute.pops)) =
          some ([8], [7, 8], [⟨true, 1, [7]⟩]) := by decide +kernel
  obtain ⟨⟨state, ledgers⟩, ends, seen⟩ := Option.map_eq_some_iff.mp run
  simp only [Prod.mk.injEq] at seen
  have start : (@observed Bool Nat _ _).Reachable ({}, {}) :=
    .start ⟨rfl, rfl⟩
  have reached := start.replay pushesToWaiter ends
  exact ⟨state, ledgers, seen.1, seen.2.1, seen.2.2,
    (pools_fifo_and_heeded reached).2.1⟩

end Run

end RopHive.Schedule.GlobalPool
