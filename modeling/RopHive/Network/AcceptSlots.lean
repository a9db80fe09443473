import RopHive.Network.IocpAccept

namespace RopHive.Network.IocpAccept

open Transition
open RopHive.Schedule (IocpLoop PendingOp)

/-! Who acts on a slot: the kernel, or code of the watcher that waits for a
callback to return. -/

section Sockets

def spends (fd : Nat) : Action → Bool
  | .closeFd other => other = fd
  | .onAccept stream => stream.fd = some fd
  | _ => false

def spent (fd : Nat) (actions : List Action) : Nat :=
  actions.countP (spends fd)

def AcceptOp.holds (op : AcceptOp) (fd : Nat) : Bool :=
  op.acceptFd = some fd

def State.held (state : State) (fd : Nat) : Nat :=
  state.ops.countP (·.holds fd)

def State.made (state : State) (fd : Nat) : Bool :=
  fd < state.sockets

/-- A socket that was made is held by one slot or has been spent. -/
def Owned (log : List Action) (state : State) : Prop :=
  ∀ fd, spent fd log + state.held fd ≤ (state.made fd).toNat

/-- What a turn spends was held, and what it makes is held or spent. -/
def Spends (state : State) (turn : Turn) : Prop :=
  ∀ fd, spent fd turn.emitted + turn.store.held fd + (state.made fd).toNat ≤
    state.held fd + (turn.store.made fd).toNat

variable {watcher : IocpTcpAcceptWatcher} {state : State} {turn : Turn}
  {slot : Nat}

theorem spent_append (fd : Nat) (first second : List Action) :
    spent fd (first ++ second) = spent fd first + spent fd second :=
  List.countP_append

theorem Owned.take {log : List Action} (owned : Owned log state)
    (spends : Spends state turn) :
    Owned (log ++ turn.emitted) turn.store := by
  intro fd
  have before := owned fd
  have during := spends fd
  rw [spent_append]
  omega

theorem spent_of_silent {actions : List Action} {fd : Nat}
    (silent : ∀ action ∈ actions, spends fd action = false) :
    spent fd actions = 0 := by
  apply List.countP_eq_zero.mpr
  intro action member
  simp [silent action member]

theorem spent_closeFd (fd : Nat) (held : Option Nat) :
    spent fd (closeFd held) = (decide (held = some fd)).toNat := by
  cases held with
  | none => rfl
  | some other =>
      by_cases same : other = fd <;> simp [spent, closeFd, spends, same]

theorem toNat_eq_ite (holds : Bool) :
    holds.toNat = if holds then 1 else 0 := by
  cases holds <;> rfl

theorem held_setOp (op : AcceptOp) (fd : Nat) :
    (state.setOp slot op).held fd + ((state.op slot).holds fd).toNat ≤
      state.held fd + (op.holds fd).toNat := by
  cases Nat.lt_or_ge slot state.ops.length with
  | inl inRange =>
      have found : state.op slot = state.ops[slot] := by
        simp [State.op, inRange]
      have atLeast : (if (state.ops[slot]).holds fd then 1 else 0) ≤
          state.ops.countP (·.holds fd) :=
        List.boole_getElem_le_countP (p := (·.holds fd)) inRange
      rw [found, State.held, State.setOp, List.countP_set inRange, State.held]
      simp only [toNat_eq_ite]
      omega
  | inr outOfRange =>
      have nothing : state.op slot = {} := by
        simp [State.op, outOfRange]
      rw [nothing, State.setOp, List.set_eq_of_length_le outOfRange]
      exact Nat.le_add_right _ _

theorem countP_resize (ops : List AcceptOp) (depth fd : Nat) :
    (resize ops depth).countP (·.holds fd) ≤ ops.countP (·.holds fd) := by
  have empty : ({} : AcceptOp).holds fd = false := by
    simp [AcceptOp.holds]
  rw [resize, List.countP_append, List.countP_replicate, empty]
  simpa using (List.take_sublist depth ops).countP_le

theorem Spends.idle (silent : ∀ action ∈ turn.emitted, ∀ fd,
      spends fd action = false)
    (ops : ∀ fd, turn.store.held fd ≤ state.held fd)
    (sockets : turn.store.sockets = state.sockets) : Spends state turn := by
  intro fd
  have none : spent fd turn.emitted = 0 :=
    spent_of_silent fun action member => silent action member fd
  have fewer := ops fd
  rw [none, State.made, State.made, sockets]
  omega

theorem Spends.vacate (slot : Nat) (op : AcceptOp) (free : op.acceptFd = none)
    (store : turn.store = state.setOp slot op)
    (emitted : ∀ fd, spent fd turn.emitted =
      ((state.op slot).holds fd).toNat) : Spends state turn := by
  intro fd
  have moved := @held_setOp state slot op fd
  have gone : op.holds fd = false := by simp [AcceptOp.holds, free]
  have same : turn.store.made fd = state.made fd := by rw [store]; rfl
  rw [gone, Bool.toNat_false, ← store] at moved
  rw [emitted, same]
  omega

theorem Spends.renew (slot : Nat) (op : AcceptOp)
    (taken : op.acceptFd = some state.sockets)
    (store : turn.store = State.setOp { state with
      sockets := state.sockets + 1 } slot op)
    (emitted : ∀ fd, spent fd turn.emitted =
      ((state.op slot).holds fd).toNat) : Spends state turn := by
  intro fd
  have moved :=
    @held_setOp { state with sockets := state.sockets + 1 } slot op fd
  have made : (state.made fd).toNat + (op.holds fd).toNat ≤
      (turn.store.made fd).toNat := by
    simp only [State.made, AcceptOp.holds, store, taken, State.setOp,
      toNat_eq_ite, decide_eq_true_eq, Option.some.injEq]
    split <;> split <;> split <;> omega
  rw [← store] at moved
  rw [emitted]
  have same : State.held { state with sockets := state.sockets + 1 } fd =
      state.held fd := rfl
  have old : State.op { state with sockets := state.sockets + 1 } slot =
      state.op slot := rfl
  rw [same, old] at moved
  omega

theorem spent_cons {action : Action} {fd : Nat} (actions : List Action)
    (silent : spends fd action = false) :
    spent fd (action :: actions) = spent fd actions := by
  simp [spent, silent]

theorem spent_callBack (state : State) (present : Bool) {action : Action}
    {fd : Nat} (silent : spends fd action = false) :
    spent fd (Turn.callBack state present action : Turn).emitted = 0 := by
  apply spent_of_silent
  intro other member
  cases present with
  | false => cases member
  | true =>
      cases List.mem_singleton.mp member
      exact silent

theorem spends_postAccept (answer : Answer) :
    Spends state (postAccept watcher state slot answer) := by
  unfold postAccept
  split
  · exact .idle (by simp [spends]) (fun _ => Nat.le_refl _) rfl
  · cases answer with
    | noSocket err =>
        refine .vacate slot { state.op slot with acceptFd := none } rfl (by simp) ?_
        intro fd
        rw [Turn.preceded_emitted, spent_append, spent_callBack _ _ rfl,
          spent_cons _ rfl, spent_closeFd]
        rfl
    | accept answer =>
        simp only
        cases answer.failure with
        | some err =>
            refine .renew slot _ (by rfl) (Turn.callBack_store _ _ _) ?_
            intro fd
            rw [Turn.preceded_emitted, Turn.andThen_emitted, spent_append,
              spent_callBack _ _ rfl, spent_append, spent_cons _ rfl,
              spent_closeFd]
            rfl
        | none =>
            refine .renew slot _ (by rfl) rfl ?_
            intro fd
            rw [Turn.preceded_emitted, spent_append, spent_append,
              spent_cons _ rfl, spent_closeFd]
            rfl

theorem spends_start : Spends state (start watcher state) := by
  unfold start
  split
  · exact .idle nofun (fun _ => Nat.le_refl _) rfl
  · split
    · apply Spends.idle
      · cases watcher.onError with
        | _ => simp [spends]
      · simp
      · simp
    · exact .idle (by simp [spends]) (countP_resize _ _) rfl

theorem spends_stop :
    Spends state ((Turn.rest (stop state).1).preceded (stop state).2) := by
  unfold stop
  split
  · exact .idle (by simp [spends]) (fun _ => Nat.le_refl _) rfl
  · exact .idle nofun (fun _ => Nat.le_refl _) rfl

theorem spends_onCompletion (outcome : Outcome) :
    Spends state (onCompletion watcher state slot outcome) := by
  unfold onCompletion
  split
  · exact .idle nofun (fun _ => Nat.le_refl _) rfl
  · cases outcome with
    | failed err =>
        refine .vacate slot {} rfl (by simp) ?_
        intro fd
        rw [Turn.preceded_emitted, Turn.andThen_emitted, spent_append,
          spent_callBack _ _ rfl, spent_cons _ rfl, spent_closeFd]
        rfl
    | done =>
        cases present : watcher.onAccept with
        | true =>
            simp only [handOver, present, if_true]
            refine .vacate slot {} rfl rfl ?_
            intro fd
            simp [spent, spends, AcceptOp.holds, toNat_eq_ite]
        | false =>
            simp only [handOver, present]
            refine .vacate slot {} rfl rfl ?_
            intro fd
            exact (spent_cons _ rfl).trans (spent_closeFd fd _)

theorem spends_resume {point : Point} {input : Input}
    (resumed : resume watcher state point input = some turn) :
    Spends state turn := by
  unfold resume at resumed
  split at resumed
  · split at resumed
    · cases resumed
      exact spends_postAccept _
    · cases resumed
  · split at resumed
    · cases resumed
    · cases resumed
      exact .idle nofun (fun _ => Nat.le_refl _) rfl
  · cases resumed
    exact spends_postAccept _
  · cases resumed
    refine .vacate _ { state.op _ with
      acceptFd := none
      buffer := none } rfl rfl ?_
    intro fd
    change spent fd (.vacate _ :: closeFd _ ++ []) = _
    rw [List.append_nil, spent_cons _ rfl, spent_closeFd]
    rfl
  · cases resumed

end Sockets

section Working

abbrev Effect := IocpEffect AcceptEx Nat

/-- The slots that code left at a point may still act on. -/
def Point.covers (depth : Nat) : Point → Nat → Bool
  | .posting first, slot => first ≤ slot ∧ slot < depth
  | .reposting own, slot | .cleanup own, slot => own = slot

def acts (depth slot : Nat) : Frame Point → Bool
  | .user => false
  | .code point => point.covers depth slot

def acting (depth slot : Nat) (frames : List (Frame Point)) : Nat :=
  frames.countP (acts depth slot)

def only (own : Nat) : Nat → Bool := fun slot => own = slot

def quiet (may : Nat → Bool) : Effect → Bool
  | .register _ => true
  | .post _ => false
  | .reset slot | .touch slot => may slot

def effects (turn : Turn) : List Effect :=
  turn.emitted.filterMap effect

def Point.known (size : Nat) : Point → Prop
  | .posting _ => True
  | .reposting slot | .cleanup slot => slot < size

/-- A turn on the slots of `may`, of which it hands each to the kernel or to
code that waits, but not to both. -/
structure Works (depth : Nat) (state : State) (may : Nat → Bool)
    (posted : Option AcceptEx) (turn : Turn) : Prop where
  calm : ∃ quietly, effects turn = quietly ++ posted.toList.map .post ∧
    ∀ effect ∈ quietly, quiet may effect = true
  elsewhere : ∀ slot, may slot = false → turn.store.op slot = state.op slot
  recorded : ∀ op ∈ posted, (turn.store.op op.slot).acceptFd = some op.fd
  fresh : ∀ op ∈ posted, op.fd = state.sockets ∧ op.fd < turn.store.sockets
  sockets : state.sockets ≤ turn.store.sockets
  shared : ∀ slot, acting depth slot turn.push +
    posted.toList.countP (·.slot = slot) ≤ (may slot).toNat
  known : ∀ point, .code point ∈ turn.push →
    point.known turn.store.ops.length
  grows : state.ops.length ≤ turn.store.ops.length
  bounded : state.ops.length ≤ depth → turn.store.ops.length ≤ depth

variable {watcher : IocpTcpAcceptWatcher} {depth : Nat} {state : State}
  {turn : Turn} {slot : Nat} {may : Nat → Bool} {posted : Option AcceptEx}

theorem op_setOp_of_ne {other : Nat} (different : slot ≠ other)
    (op : AcceptOp) : (state.setOp slot op).op other = state.op other := by
  simp [State.op, State.setOp, different]

theorem op_setOp_self (inRange : slot < state.ops.length) (op : AcceptOp) :
    (state.setOp slot op).op slot = op := by
  simp [State.op, State.setOp, inRange]

@[simp] theorem length_setOp (op : AcceptOp) :
    (state.setOp slot op).ops.length = state.ops.length :=
  List.length_set

@[simp] theorem sockets_setOp (op : AcceptOp) :
    (state.setOp slot op).sockets = state.sockets := rfl

theorem length_resize (ops : List AcceptOp) :
    (resize ops depth).length = depth := by
  simp only [resize, List.length_append, List.length_take,
    List.length_replicate]
  omega

theorem Works.idle (calm : ∀ effect ∈ effects turn,
      quiet (fun _ => false) effect = true)
    (ops : turn.store.ops = state.ops)
    (sockets : turn.store.sockets = state.sockets)
    (push : ∀ frame ∈ turn.push, frame = .user) :
    Works depth state (fun _ => false) none turn where
  calm := ⟨effects turn, (List.append_nil _).symm, calm⟩
  elsewhere := fun slot _ => by rw [State.op, ops, State.op]
  recorded := nofun
  fresh := nofun
  sockets := Nat.le_of_eq sockets.symm
  shared := fun slot => by
    have none : acting depth slot turn.push = 0 := by
      apply List.countP_eq_zero.mpr
      intro frame member
      rw [push frame member]
      exact Bool.false_ne_true
    rw [none]
    exact Nat.le_refl _
  known := fun point member => nomatch push _ member
  grows := Nat.le_of_eq (congrArg List.length ops).symm
  bounded := fun bound => by rwa [ops]

theorem idle_rest :
    Works depth state (fun _ => false) none (.rest state) :=
  .idle nofun rfl rfl nofun

theorem Works.one (op : AcceptOp) (calm : ∃ quietly,
      effects turn = quietly ++ posted.toList.map .post ∧
        ∀ effect ∈ quietly, quiet (only slot) effect = true)
    (ops : turn.store.ops = (state.setOp slot op).ops)
    (sockets : state.sockets ≤ turn.store.sockets)
    (inRange : slot < state.ops.length)
    (recorded : ∀ call ∈ posted, call.slot = slot ∧
      op.acceptFd = some call.fd ∧ call.fd = state.sockets ∧
      call.fd < turn.store.sockets)
    (shared : ∀ other, acting depth other turn.push +
      posted.toList.countP (·.slot = other) ≤ (only slot other).toNat)
    (known : ∀ point, .code point ∈ turn.push →
      point.known state.ops.length) :
    Works depth state (only slot) posted turn where
  calm := calm
  elsewhere := fun other different => by
    have distinct : slot ≠ other := of_decide_eq_false different
    rw [State.op, ops]
    exact op_setOp_of_ne distinct op
  recorded := fun call member => by
    obtain ⟨same, held, -⟩ := recorded call member
    rw [State.op, ops, same, ← held]
    exact congrArg AcceptOp.acceptFd (op_setOp_self inRange op)
  fresh := fun call member => (recorded call member).2.2
  sockets := sockets
  shared := shared
  known := fun point member => by
    rw [ops, length_setOp]
    exact known point member
  grows := Nat.le_of_eq (by rw [ops, length_setOp])
  bounded := fun bound => by rwa [ops, length_setOp]

theorem acting_append (slot : Nat) (first second : List (Frame Point)) :
    acting depth slot (first ++ second) =
      acting depth slot first + acting depth slot second :=
  List.countP_append

theorem acting_code (slot : Nat) (point : Point) :
    acting depth slot [.code point] = (point.covers depth slot).toNat := by
  cases covers : point.covers depth slot with
  | _ => simp [acting, acts, covers]

theorem acting_callBack (slot : Nat) (state : State) (present : Bool)
    (action : Action) :
    acting depth slot (Turn.callBack state present action : Turn).push = 0 := by
  cases present with
  | _ => rfl

theorem quietly_callBack (state : State) (present : Bool) {action : Action}
    (silent : effect action = none) :
    effects (Turn.callBack state present action) = [] := by
  cases present with
  | false => rfl
  | true => simp [effects, Turn.callBack, silent]

theorem effects_preceded (actions : List Action) (turn : Turn) :
    effects (turn.preceded actions) =
      actions.filterMap effect ++ effects turn :=
  List.filterMap_append

theorem effects_andThen (turn : Turn) (frames : List (Frame Point)) :
    effects (turn.andThen frames) = effects turn := rfl

theorem effects_closeFd (held : Option Nat) :
    (closeFd held).filterMap effect = [] := by
  cases held with
  | _ => rfl

theorem setOp_op (inRange : slot < state.ops.length) :
    state.setOp slot (state.op slot) = state := by
  simp [State.setOp, State.op, inRange]

theorem works_postAccept (inRange : slot < state.ops.length)
    (answer : Answer) :
    ∃ posted, Works depth state (only slot) posted
      (postAccept watcher state slot answer) := by
  unfold postAccept
  split
  · refine ⟨none, .one (state.op slot) ⟨[.touch slot], rfl, ?_⟩ ?_
      (Nat.le_refl _) inRange nofun ?_ nofun⟩
    · simp [quiet, only]
    · exact (congrArg State.ops (setOp_op inRange)).symm
    · exact fun other => Nat.zero_le _
  · cases answer with
    | noSocket err =>
        refine ⟨none, .one { state.op slot with acceptFd := none }
          ⟨[.touch slot], ?_, ?_⟩ (by simp) (by simp) inRange nofun ?_ ?_⟩
        · rw [effects_preceded, quietly_callBack _ _ rfl]
          simp [effect, effects_closeFd]
        · simp [quiet, only]
        · intro other
          rw [Turn.preceded_push, acting_callBack]
          exact Nat.zero_le _
        · cases watcher.onError with
          | _ => simp
    | accept answer =>
        simp only
        cases answer.failure with
        | some err =>
            refine ⟨none, .one { state.op slot with
              acceptFd := some state.sockets
              buffer := some state.sockets }
              ⟨[.touch slot, .reset slot], ?_, ?_⟩ (by simp [State.setOp])
                (by simp) inRange nofun ?_ ?_⟩
            · rw [effects_preceded, effects_andThen, quietly_callBack _ _ rfl]
              simp [effect, effects_closeFd]
            · simp [quiet, only]
            · intro other
              rw [Turn.preceded_push, Turn.andThen_push, acting_append,
                acting_callBack, acting_code, Nat.zero_add]
              exact Nat.le_refl _
            · cases watcher.onError with
              | _ => simpa [Point.known] using inRange
        | none =>
            refine ⟨some ⟨slot, state.sockets⟩, .one {
              acceptFd := some state.sockets
              buffer := some state.sockets
              inFlight := true } ⟨[.touch slot, .reset slot], ?_, ?_⟩ rfl
                (by simp) inRange ?_ ?_ nofun⟩
            · simp [effects, effect, effects_closeFd]
            · simp [quiet, only]
            · simp
            · intro other
              simp [acting, only, toNat_eq_ite, decide_eq_true_eq]

theorem quiet_mono {more : Nat → Bool}
    (wider : ∀ slot, may slot = true → more slot = true) {effect : Effect}
    (calm : quiet may effect = true) : quiet more effect = true := by
  cases effect with
  | register op => rfl
  | post op => cases calm
  | reset slot => exact wider slot calm
  | touch slot => exact wider slot calm

theorem covers_posting (inRange : slot < depth) (other : Nat)
    (own : only slot other = true) :
    (Point.posting slot).covers depth other = true := by
  obtain rfl : slot = other := of_decide_eq_true own
  exact decide_eq_true ⟨Nat.le_refl slot, inRange⟩

theorem Works.mono {more : Nat → Bool}
    (works : Works depth state may posted turn)
    (wider : ∀ slot, may slot = true → more slot = true) :
    Works depth state more posted turn where
  calm := by
    obtain ⟨quietly, same, calm⟩ := works.calm
    exact ⟨quietly, same, fun effect member =>
      quiet_mono wider (calm effect member)⟩
  elsewhere := by
    intro slot outside
    apply works.elsewhere
    apply Bool.eq_false_iff.mpr
    intro inside
    rw [wider slot inside] at outside
    cases outside
  recorded := works.recorded
  fresh := works.fresh
  sockets := works.sockets
  shared := by
    intro slot
    apply Nat.le_trans (works.shared slot)
    cases inside : may slot with
    | false => exact Nat.zero_le _
    | true => exact Nat.le_of_eq (congrArg _ (wider slot inside).symm)
  known := works.known
  grows := works.grows
  bounded := works.bounded

theorem Works.beforeNext (works : Works depth state (only slot) posted turn)
    (inRange : slot < depth) :
    Works depth state ((Point.posting slot).covers depth) posted
      (turn.andThen [.code (.posting (slot + 1))]) where
  __ := works.mono (covers_posting inRange)
  shared := by
    intro other
    have here := works.shared other
    rw [Turn.andThen_push, acting_append, acting_code]
    have split : (only slot other).toNat +
        ((Point.posting (slot + 1)).covers depth other).toNat ≤
          ((Point.posting slot).covers depth other).toNat := by
      simp only [only, Point.covers, toNat_eq_ite, decide_eq_true_eq]
      split <;> split <;> split <;> omega
    omega
  known := by
    intro point member
    cases List.mem_append.mp member with
    | inl pushed => exact works.known point pushed
    | inr next =>
        cases List.mem_singleton.mp next
        trivial

theorem works_start (detached : state.attached = false)
    (acceptEx : watcher.acceptEx = true)
    (size : state.ops.length ≤ IocpAccept.depth watcher) :
    Works (IocpAccept.depth watcher) state (fun _ => true) none
      (start watcher state) := by
  simp only [start, detached, acceptEx]
  refine ⟨⟨[.register (.add ())], rfl, ?_⟩, nofun, nofun, nofun, Nat.le_refl _,
    ?_, ?_, ?_, ?_⟩
  · simp [quiet]
  · intro slot
    exact Nat.le_trans (Nat.le_of_eq (acting_code slot (.posting 0)))
      (Bool.toNat_le _)
  · simp [Point.known]
  · exact Nat.le_trans size (Nat.le_of_eq (length_resize _).symm)
  · exact fun _ => Nat.le_of_eq (length_resize _)

theorem idle_start (idle : state.attached = true ∨ watcher.acceptEx = false) :
    Works depth state (fun _ => false) none (start watcher state) := by
  unfold start
  split
  · exact idle_rest
  · next detached =>
      have missing : ¬ watcher.acceptEx = true := by
        simpa [detached] using idle
      rw [if_pos missing]
      apply Works.idle
      · rw [quietly_callBack _ _ rfl]
        exact nofun
      · simp
      · simp
      · cases watcher.onError with
        | _ => simp

theorem idle_stop : Works depth state (fun _ => false) none
    ((Turn.rest (stop state).1).preceded (stop state).2) := by
  unfold stop
  split
  · refine .idle ?_ rfl rfl nofun
    simp [effects, effect, quiet]
  · exact idle_rest

theorem works_onCompletion (inRange : slot < state.ops.length)
    (attached : state.attached = true) (outcome : Outcome) :
    Works depth state (only slot) none
      (onCompletion watcher state slot outcome) := by
  unfold onCompletion
  rw [if_neg (by simp [attached, inRange])]
  cases outcome with
  | failed err =>
      refine .one {} ⟨[.touch slot], ?_, ?_⟩ (by simp) (by simp) inRange nofun
        ?_ ?_
      · rw [effects_preceded, effects_andThen, quietly_callBack _ _ rfl]
        simp [effect, effects_closeFd]
      · simp [quiet, only]
      · intro other
        rw [Turn.preceded_push, Turn.andThen_push, acting_append,
          acting_callBack, acting_code, Nat.zero_add]
        exact Nat.le_refl _
      · cases watcher.onError with
        | _ => simpa [Point.known] using inRange
  | done =>
      simp only [handOver]
      split
      · refine .one {} ⟨[.touch slot], rfl, ?_⟩ rfl (Nat.le_refl _) inRange
          nofun ?_ ?_
        · simp [quiet, only]
        · intro other
          simp [acting, acts, Point.covers, only,
            toNat_eq_ite, decide_eq_true_eq]
        · simpa [Point.known] using inRange
      · refine .one {} ⟨[.touch slot], ?_, ?_⟩ rfl (Nat.le_refl _) inRange
          nofun ?_ ?_
        · simp [effects, effect, effects_closeFd]
        · simp [quiet, only]
        · intro other
          simp [acting, acts, Point.covers, only,
            toNat_eq_ite, decide_eq_true_eq]
        · simpa [Point.known] using inRange

theorem works_resume {point : Point} {input : Input}
    (size : state.ops.length ≤ depth)
    (known : point.known state.ops.length)
    (resumed : resume watcher state point input = some turn) :
    ∃ posted, Works depth state (point.covers depth) posted turn := by
  unfold resume at resumed
  split at resumed
  · split at resumed
    · next inRange =>
        cases resumed
        apply (works_postAccept inRange _).imp
        intro posted works
        exact works.beforeNext (Nat.lt_of_lt_of_le inRange size)
    · cases resumed
  · split at resumed
    · cases resumed
    · cases resumed
      exact ⟨none, idle_rest.mono nofun⟩
  · cases resumed
    exact works_postAccept known _
  · next slot =>
      cases resumed
      refine ⟨none, .one { state.op slot with
        acceptFd := none
        buffer := none } ⟨[.touch slot], ?_, ?_⟩ rfl (Nat.le_refl _) known nofun
          (fun _ => Nat.zero_le _) nofun⟩
      · simp [cleanup, effects, effect, effects_closeFd]
      · simp [quiet, only]
  · cases resumed

end Working

section Kernel

variable {watcher : IocpTcpAcceptWatcher} {may : Nat → Bool}

abbrev Outside (watcher : IocpTcpAcceptWatcher) :=
  (component watcher).Outside

def pending (outside : Outside watcher) : List AcceptEx :=
  outside.loop.port.pending

def inFlight (outside : Outside watcher) : List AcceptEx :=
  outside.loop.port.inFlight

def pendingOn (outside : Outside watcher) (slot : Nat) : Nat :=
  (pending outside).countP (·.slot = slot)

/-- Nothing is harmed, and the kernel has the same calls. -/
structure Still (before after : Outside watcher) : Prop where
  harmed : after.harmed = before.harmed
  calls : pending after = pending before
  flight : inFlight after = inFlight before

theorem idle_of_free {outside : Outside watcher} {slot : Nat}
    (free : pendingOn outside slot = 0) :
    outside.loop.port.busy (component watcher).record slot = false := by
  apply Bool.eq_false_iff.mpr
  intro isBusy
  obtain ⟨op, member, same⟩ := List.any_eq_true.mp isBusy
  exact List.countP_eq_zero.mp free op member same

theorem still_of_port {before after : Outside watcher}
    (harmed : after.harmed = before.harmed)
    (pending : after.loop.port.pending = before.loop.port.pending)
    (inFlight : after.loop.port.inFlight = before.loop.port.inFlight) :
    Still before after :=
  ⟨harmed, pending, inFlight⟩

theorem still_apply {outside : Outside watcher} {effect : Effect}
    (free : ∀ slot, may slot = true → pendingOn outside slot = 0)
    (calm : quiet may effect = true) :
    Still outside (IocpComponent.Outside.apply outside effect) := by
  cases effect with
  | register op =>
      obtain ⟨harmed, port⟩ := IocpComponent.apply_register op
      exact still_of_port harmed (congrArg CompletionPort.pending port)
        (congrArg CompletionPort.inFlight port)
  | post op => cases calm
  | reset slot =>
      obtain ⟨harmed, port⟩ :=
        IocpComponent.apply_reset (idle_of_free (free slot calm))
      exact still_of_port harmed
        ((congrArg CompletionPort.pending port).trans rfl)
        ((congrArg CompletionPort.inFlight port).trans rfl)
  | touch slot =>
      have untouched :=
        IocpComponent.apply_touch (idle_of_free (free slot calm))
      exact ⟨congrArg IocpComponent.Outside.harmed untouched,
        congrArg pending untouched,
        congrArg inFlight untouched⟩

theorem still_turn {outside : Outside watcher} {effects : List Effect}
    (free : ∀ slot, may slot = true → pendingOn outside slot = 0)
    (calm : ∀ effect ∈ effects, quiet may effect = true) :
    Still outside (effects.foldl IocpComponent.Outside.apply outside) := by
  induction effects generalizing outside with
  | nil => exact ⟨rfl, rfl, rfl⟩
  | cons effect effects ih =>
      have first := still_apply free (calm effect List.mem_cons_self)
      have remains : ∀ slot, may slot = true → pendingOn
          (IocpComponent.Outside.apply outside effect) slot = 0 := by
        intro slot allowed
        rw [pendingOn, first.calls]
        exact free slot allowed
      have rest := ih remains fun effect member =>
        calm effect (List.mem_cons_of_mem _ member)
      exact ⟨rest.harmed.trans first.harmed, rest.calls.trans first.calls,
        rest.flight.trans first.flight⟩

structure Hands (before : Outside watcher) (posted : Option AcceptEx)
    (after : Outside watcher) : Prop where
  harmed : after.harmed = before.harmed
  pending : pending after = pending before ++ posted.toList
  inFlight : (inFlight after).Perm (posted.toList ++ inFlight before)

theorem Still.hands {before after : Outside watcher}
    (still : Still before after) : Hands before none after where
  harmed := still.harmed
  pending := still.calls.trans (List.append_nil _).symm
  inFlight := .of_eq still.flight

theorem Still.post {before after : Outside watcher}
    (still : Still before after) (op : AcceptEx) :
    Hands before (some op)
      (IocpComponent.Outside.apply after (.post op)) where
  harmed := still.harmed
  pending := congrArg (· ++ [op]) still.calls
  inFlight := by
    have posted : (inFlight
        (IocpComponent.Outside.apply after (.post op))).Perm
          (op :: inFlight after) := CompletionPort.inFlight_post _
    rw [still.flight] at posted
    exact posted

theorem hands_turn {outside : Outside watcher} {depth : Nat} {state : State}
    {posted : Option AcceptEx} {turn : Turn}
    (works : Works depth state may posted turn)
    (free : ∀ slot, may slot = true → pendingOn outside slot = 0) :
    Hands outside posted
      ((effects turn).foldl IocpComponent.Outside.apply outside) := by
  obtain ⟨quietly, same, calm⟩ := works.calm
  have still := still_turn free calm
  rw [same]
  cases posted with
  | none =>
      have alone : quietly ++ [] = quietly := List.append_nil quietly
      exact alone.symm ▸ still.hands
  | some op =>
      have last : (quietly ++ [(.post op : Effect)]).foldl
          IocpComponent.Outside.apply outside = IocpComponent.Outside.apply
            (quietly.foldl IocpComponent.Outside.apply outside) (.post op) :=
        List.foldl_concat _ _ _ _
      exact last ▸ still.post op

end Kernel

section Runs

variable {watcher : IocpTcpAcceptWatcher}

/-- `postAccept` is not entered for a slot whose AcceptEx is pending, and
neither its socket nor its buffer nor its OVERLAPPED is changed. -/
structure SlotsKept (scene : (component watcher).Scene) : Prop where
  untouched : scene.store.harmed = []
  single : ∀ slot, pendingOn scene.store.toOutside slot ≤ 1
  once : ∀ fd, spent fd scene.log ≤ 1

def goesOn (depth : Nat) : Frame Point → Bool
  | .user => false
  | .code (.posting slot) => slot < depth
  | .code (.reposting _) | .code (.cleanup _) => true

/-- `start` returns early, or the kernel has none of the watcher's calls and no
code of it goes on with a slot. -/
def Startable (watcher : IocpTcpAcceptWatcher) (state : State)
    (calls : List AcceptEx) (stack : List (Frame Point)) : Prop :=
  state.attached = true ∨ watcher.acceptEx = false ∨
    calls = [] ∧ ∀ frame ∈ stack, goesOn (depth watcher) frame = false

instance decidableStartable (state : State) (calls : List AcceptEx)
    (stack : List (Frame Point)) :
    Decidable (Startable watcher state calls stack) := by
  unfold Startable
  infer_instance

/-- A stopped watcher is started only when nobody acts on its slots, and no
packet of a call is handled whose socket the slot no longer has. -/
def SlotsFree (scene : (component watcher).Scene) :
    (component watcher).SceneLabel → Prop
  | .code (.call Request.start) =>
      Startable watcher scene.store.state (pending scene.store.toOutside)
        scene.stack
  | .code (.ready ()) =>
      State.attached scene.store.state = false ∨
        ∀ op ∈ scene.store.loop.port.batch.head?,
          (State.op scene.store.state (AcceptEx.slot op)).acceptFd =
            some (AcceptEx.fd op)
  | _ => True

/-- A slot is left to the kernel or to waiting code, and the slot of a pending
call has its socket. -/
structure Tended (state : State) (outside : Outside watcher)
    (stack : List (Frame Point)) : Prop where
  untouched : outside.harmed = []
  shared : ∀ slot, acting (depth watcher) slot stack +
    pendingOn outside slot ≤ 1
  recorded : ∀ op ∈ pending outside,
    (state.op op.slot).acceptFd = some op.fd
  distinct : (inFlight outside).Nodup
  made : ∀ op ∈ inFlight outside, op.fd < state.sockets
  known : ∀ point, .code point ∈ stack → point.known state.ops.length
  bounded : state.ops.length ≤ depth watcher

structure Sound (scene : (component watcher).Scene) : Prop where
  owned : Owned scene.log scene.store.state
  tended : Tended scene.store.state scene.store.toOutside scene.stack

theorem known_grows {point : Point} {size more : Nat}
    (grows : size ≤ more) (known : point.known size) : point.known more := by
  cases point with
  | posting slot => trivial
  | reposting slot => exact Nat.lt_of_lt_of_le known grows
  | cleanup slot => exact Nat.lt_of_lt_of_le known grows

theorem pending_subset (outside : Outside watcher) {op : AcceptEx}
    (member : op ∈ pending outside) : op ∈ inFlight outside :=
  List.mem_append_left _ (List.mem_append_left _ member)

theorem pendingOn_pos {outside : Outside watcher} {op : AcceptEx}
    (member : op ∈ pending outside) : 0 < pendingOn outside op.slot :=
  List.countP_pos_iff.mpr ⟨op, member, decide_eq_true rfl⟩

theorem Tended.take {state : State} {outside : Outside watcher}
    {below : List (Frame Point)} {may : Nat → Bool}
    {posted : Option AcceptEx} {turn : Turn}
    (tended : Tended state outside below)
    (works : Works (depth watcher) state may posted turn)
    (room : ∀ slot, (may slot).toNat + acting (depth watcher) slot below +
      pendingOn outside slot ≤ 1) :
    Tended turn.store
      ((effects turn).foldl IocpComponent.Outside.apply outside)
      (turn.push ++ below) := by
  have free : ∀ slot, may slot = true → pendingOn outside slot = 0 := by
    intro slot allowed
    have atMost := room slot
    rw [allowed, Bool.toNat_true] at atMost
    omega
  have hands := hands_turn works free
  have split : ∀ slot, pendingOn
      ((effects turn).foldl IocpComponent.Outside.apply outside) slot =
        pendingOn outside slot + posted.toList.countP (·.slot = slot) := by
    intro slot
    rw [pendingOn, hands.pending, List.countP_append]
    rfl
  refine ⟨hands.harmed.trans tended.untouched, ?_, ?_, ?_, ?_, ?_,
    works.bounded tended.bounded⟩
  · intro slot
    have total := room slot
    have here := works.shared slot
    rw [acting_append, split]
    omega
  · intro op member
    rw [hands.pending] at member
    cases List.mem_append.mp member with
    | inl old =>
        have elsewhere : may op.slot = false := by
          apply Bool.eq_false_iff.mpr
          intro allowed
          have none := free op.slot allowed
          have some := pendingOn_pos old
          omega
        rw [works.elsewhere op.slot elsewhere]
        exact tended.recorded op old
    | inr new => exact works.recorded op (Option.mem_toList.mp new)
  · apply hands.inFlight.nodup_iff.mpr
    cases posted with
    | none => exact tended.distinct
    | some op =>
        refine List.nodup_cons.mpr ⟨?_, tended.distinct⟩
        intro member
        have older := tended.made op member
        have fresh := (works.fresh op rfl).1
        omega
  · intro op member
    cases List.mem_append.mp (hands.inFlight.mem_iff.mp member) with
    | inl new => exact (works.fresh op (Option.mem_toList.mp new)).2
    | inr old => exact Nat.lt_of_lt_of_le (tended.made op old) works.sockets
  · intro point member
    cases List.mem_append.mp member with
    | inl pushed => exact works.known point pushed
    | inr waiting => exact known_grows works.grows (tended.known point waiting)

variable {scene after : (component watcher).Scene}

theorem sublist_of_eq {first second : List AcceptEx}
    (same : first = second) : first.Sublist second :=
  same ▸ List.Sublist.refl first

theorem Tended.fewer {state : State} {before after : Outside watcher}
    {stack : List (Frame Point)} (tended : Tended state before stack)
    (harmed : after.harmed = before.harmed)
    (calls : (pending after).Sublist (pending before))
    (flight : ∃ gone, (inFlight before).Perm (gone ++ inFlight after)) :
    Tended state after stack := by
  obtain ⟨gone, flight⟩ := flight
  refine ⟨harmed.trans tended.untouched, ?_, ?_, ?_, ?_, tended.known,
    tended.bounded⟩
  · intro slot
    have total := tended.shared slot
    have less : pendingOn after slot ≤ pendingOn before slot :=
      calls.countP_le
    omega
  · exact fun op member => tended.recorded op (calls.subset member)
  · exact (List.nodup_append.mp (flight.nodup_iff.mp tended.distinct)).2.1
  · intro op member
    exact tended.made op
      (flight.mem_iff.mpr (List.mem_append_right gone member))

theorem Tended.leave {state : State} {outside : Outside watcher}
    {frame : Frame Point} {below : List (Frame Point)}
    (tended : Tended state outside (frame :: below)) :
    Tended state outside below where
  untouched := tended.untouched
  shared := by
    intro slot
    have total := tended.shared slot
    have less : acting (depth watcher) slot below ≤
        acting (depth watcher) slot (frame :: below) :=
      (List.sublist_cons_self frame below).countP_le
    omega
  recorded := tended.recorded
  distinct := tended.distinct
  made := tended.made
  known := fun point member =>
    tended.known point (List.mem_cons_of_mem frame member)
  bounded := tended.bounded

theorem sound_take {outside : Outside watcher} {may : Nat → Bool}
    {posted : Option AcceptEx} {turn : Turn} {below : List (Frame Point)}
    (owned : Owned scene.log scene.store.state)
    (tended : Tended scene.store.state outside below)
    (works : Works (depth watcher) scene.store.state may posted turn)
    (room : ∀ slot, (may slot).toNat + acting (depth watcher) slot below +
      pendingOn outside slot ≤ 1)
    (spends : Spends scene.store.state turn) :
    Sound (scene.take ((component watcher).lift outside turn) below) where
  owned := owned.take spends
  tended := tended.take works room

theorem sound_idle {outside : Outside watcher} {turn : Turn}
    {below : List (Frame Point)}
    (owned : Owned scene.log scene.store.state)
    (tended : Tended scene.store.state outside below)
    (works : Works (depth watcher) scene.store.state (fun _ => false) none
      turn)
    (spends : Spends scene.store.state turn) :
    Sound (scene.take ((component watcher).lift outside turn) below) := by
  refine sound_take owned tended works ?_ spends
  intro slot
  have total := tended.shared slot
  rw [Bool.toNat_false]
  omega

theorem acting_of_goesOn {depth : Nat} {stack : List (Frame Point)}
    (nothing : ∀ frame ∈ stack, goesOn depth frame = false) (slot : Nat) :
    acting depth slot stack = 0 := by
  apply List.countP_eq_zero.mpr
  intro frame member
  have idle := nothing frame member
  cases frame with
  | user => exact Bool.false_ne_true
  | code point =>
      cases point with
      | posting first =>
          have beyond : ¬ first < depth := of_decide_eq_false idle
          simp only [acts, Point.covers, decide_eq_true_eq]
          omega
      | reposting own => cases idle
      | cleanup own => cases idle

theorem sound_call (sound : Sound scene) {request : Request}
    (kept : SlotsFree scene (.code (.call request))) :
    Sound (scene.take ((component watcher).lift scene.store.toOutside
      (call watcher scene.store.state request)) scene.stack) := by
  cases request with
  | stop => exact sound_idle sound.owned sound.tended idle_stop spends_stop
  | start =>
      have allowed : Startable watcher scene.store.state
        (pending scene.store.toOutside) scene.stack := kept
      cases attached : State.attached scene.store.state with
      | true =>
          exact sound_idle sound.owned sound.tended (idle_start (.inl attached))
            spends_start
      | false =>
          cases acceptEx : watcher.acceptEx with
          | false =>
              exact sound_idle sound.owned sound.tended
                (idle_start (.inr acceptEx)) spends_start
          | true =>
              obtain isAttached | missing | ⟨nothing, unoccupied⟩ := allowed
              · exact Bool.noConfusion (attached.symm.trans isAttached)
              · exact Bool.noConfusion (acceptEx.symm.trans missing)
              · refine sound_take sound.owned sound.tended
                  (works_start attached acceptEx sound.tended.bounded) ?_
                    spends_start
                intro slot
                have free : pendingOn scene.store.toOutside slot = 0 := by
                  rw [pendingOn, nothing]
                  rfl
                rw [acting_of_goesOn unoccupied, free]
                exact Nat.le_refl 1

theorem sound_resume (sound : Sound scene) {point : Point} {input : Input}
    {below : List (Frame Point)} {turn : Turn}
    (shape : scene.stack = .code point :: below)
    (resumed : resume watcher scene.store.state point input = some turn) :
    Sound (scene.take ((component watcher).lift scene.store.toOutside turn)
      below) := by
  have tended := sound.tended
  rw [shape] at tended
  obtain ⟨posted, works⟩ := works_resume tended.bounded
    (tended.known point List.mem_cons_self) resumed
  refine sound_take sound.owned tended.leave works ?_ (spends_resume resumed)
  intro slot
  have total := tended.shared slot
  have split : acting (depth watcher) slot (.code point :: below) =
      (point.covers (depth watcher) slot).toNat +
        acting (depth watcher) slot below := by
    rw [← acting_code, ← acting_append]
    rfl
  omega

theorem onCompletion_idle {state : State} {slot : Nat}
    (idle : ¬ (state.attached = true ∧ slot < state.ops.length))
    (outcome : Outcome) :
    onCompletion watcher state slot outcome = .rest state := by
  apply if_pos
  exact Decidable.not_and_iff_not_or_not.mp idle

theorem free_of_packet {state : State} {outside : Outside watcher}
    {stack : List (Frame Point)} {op : AcceptEx}
    (tended : Tended state outside stack)
    (current : (state.op op.slot).acceptFd = some op.fd)
    (taken : op ∉ inFlight outside) : pendingOn outside op.slot = 0 := by
  apply List.countP_eq_zero.mpr
  intro other member same
  have onSlot : other.slot = op.slot := of_decide_eq_true same
  have recorded := tended.recorded other member
  rw [onSlot, current] at recorded
  have equal : other = op := by
    cases other
    cases op
    cases onSlot
    cases recorded
    rfl
  exact taken (equal ▸ pending_subset outside member)

theorem sound_handled {op : AcceptEx} {loop : IocpLoop AcceptEx Nat Outcome}
    {outcome : Outcome} (sound : Sound scene)
    (kept : SlotsFree scene (.code (.ready ())))
    (outsideHandlers : scene.stack = [])
    (dispatched : scene.store.loop.dispatch = some (op, loop)) :
    Sound (scene.take ((component watcher).lift
      { scene.store.toOutside with loop }
      (onCompletion watcher scene.store.state op.slot outcome)) []) := by
  obtain ⟨rest, batch, port⟩ :=
    CompletionPort.next_cases (IocpLoop.dispatch_next dispatched)
  have before := sound.tended
  rw [outsideHandlers] at before
  have flight : (inFlight scene.store.toOutside).Perm
      (op :: loop.port.inFlight) :=
    CompletionPort.inFlight_next (IocpLoop.dispatch_next dispatched)
  have tended : Tended scene.store.state
      { scene.store.toOutside with loop } [] := by
    refine before.fewer rfl ?_ ⟨[op], flight⟩
    have same : loop.port.pending = scene.store.loop.port.pending := by
      rw [port]
    exact sublist_of_eq same
  cases working : decide (State.attached scene.store.state = true ∧
      op.slot < (State.ops scene.store.state).length) with
  | false =>
      have idle :=
        @onCompletion_idle watcher _ _ (of_decide_eq_false working) outcome
      rw [idle]
      exact sound_idle sound.owned tended idle_rest
        (.idle nofun (fun _ => Nat.le_refl _) rfl)
  | true =>
      obtain ⟨attached, inRange⟩ := of_decide_eq_true working
      have current := kept.resolve_left
        fun detached => Bool.noConfusion (attached.symm.trans detached)
      rw [batch] at current
      have distinct := flight.nodup_iff.mp before.distinct
      have free := free_of_packet tended (current op rfl)
        (List.nodup_cons.mp distinct).1
      refine sound_take sound.owned tended
        (works_onCompletion inRange attached outcome) ?_
          (spends_onCompletion outcome)
      intro slot
      have total := tended.shared slot
      change (only op.slot slot).toNat + 0 + pendingOn _ slot ≤ 1
      change 0 + pendingOn _ slot ≤ 1 at total
      cases own : only op.slot slot with
      | false =>
          rw [Bool.toNat_false]
          omega
      | true =>
          obtain rfl : op.slot = slot := of_decide_eq_true own
          rw [Bool.toNat_true]
          omega

theorem sound_withLoop {loop : IocpLoop AcceptEx Nat Outcome}
    (sound : Sound scene)
    (calls : loop.port.pending.Sublist (pending scene.store.toOutside))
    (flight : ∃ gone, (inFlight scene.store.toOutside).Perm
      (gone ++ loop.port.inFlight)) :
    Sound (IocpComponent.withLoop scene loop) where
  owned := sound.owned
  tended := sound.tended.fewer rfl calls flight

theorem sound_complete {op : AcceptEx} {result : Outcome}
    (sound : Sound scene)
    (member : op ∈ scene.store.loop.port.pending) :
    Sound (IocpComponent.withLoop scene { scene.store.loop with
      port := scene.store.loop.port.complete (component watcher).record
        scene.store.loop.associated op result }) := by
  refine sound_withLoop sound List.erase_sublist ?_
  cases scene.store.loop.associated with
  | true =>
      exact ⟨[], (CompletionPort.inFlight_complete result member).symm⟩
  | false => exact ⟨[op], CompletionPort.inFlight_lose result member⟩

theorem sound_step {label : (component watcher).SceneLabel}
    (sound : Sound scene) (kept : SlotsFree scene label)
    (stepped : IocpComponent.sceneStep scene label = some after) :
    Sound after := by
  cases IocpComponent.moves_of_step stepped with
  | completed member => exact sound_complete sound member
  | waited waited =>
      exact sound_withLoop sound (sublist_of_eq (IocpLoop.pending_wait waited))
        ⟨[], List.Perm.of_eq (IocpLoop.inFlight_wait waited).symm⟩
  | dropped dropped =>
      obtain ⟨op, next⟩ := IocpLoop.drop_next dropped
      obtain ⟨rest, batch, port⟩ := CompletionPort.next_cases next
      refine sound_withLoop sound (sublist_of_eq ?_)
        ⟨[op], CompletionPort.inFlight_next next⟩
      rw [port]
      rfl
  | finished finished =>
      have same := IocpLoop.port_finishDispatch finished
      exact sound_withLoop sound (sublist_of_eq (congrArg _ same))
        ⟨[], List.Perm.of_eq (congrArg CompletionPort.inFlight same).symm⟩
  | called userOnTop called =>
      cases called
      exact sound_call sound kept
  | handled outside dispatched handled =>
      cases handled
      exact sound_handled sound kept outside dispatched
  | resumed shape resumed => exact sound_resume sound shape resumed
  | left shape =>
      refine ⟨sound.owned, ?_⟩
      have tended := sound.tended
      rw [shape] at tended
      exact tended.leave

theorem Sound.slotsKept (sound : Sound scene) : SlotsKept scene where
  untouched := sound.tended.untouched
  single := by
    intro slot
    have total := sound.tended.shared slot
    omega
  once := by
    intro fd
    have total := sound.owned fd
    have atMost := Bool.toNat_le (State.made scene.store.state fd)
    omega

theorem sound_of_initial
    (isInitial : (component watcher).scenes.initial scene) :
    Sound scene := by
  obtain ⟨⟨outside, state⟩, stack, log⟩ := scene
  obtain ⟨rfl, rfl, rfl, rfl⟩ := isInitial
  refine ⟨fun fd => Nat.zero_le _, rfl, fun slot => Nat.zero_le _, nofun,
    List.nodup_nil, nofun, nofun, Nat.zero_le _⟩

instance (scene : (component watcher).Scene)
    (label : (component watcher).SceneLabel) :
    Decidable (SlotsFree scene label) := by
  unfold SlotsFree
  split
  · exact decidableStartable _ _ _
  · infer_instance
  · infer_instance

end Runs

section Samples

def sampleWatcher : IocpTcpAcceptWatcher where
  option := { maxAcceptPerTick := 1 }
  acceptEx := true
  onAccept := true
  onError := true

abbrev sampleComponent : IocpComponent := component sampleWatcher

def freshScene : sampleComponent.Scene where
  store := ⟨{}, ({} : State)⟩
  stack := []
  log := []

theorem freshScene_initial : sampleComponent.scenes.initial freshScene :=
  ⟨rfl, rfl, rfl, rfl⟩

def started : List sampleComponent.SceneLabel :=
  [.code (.call Request.start), .code (.resume (Input.posted (.accept .ok))),
    .code (.resume Input.proceed)]

def stopped : sampleComponent.SceneLabel := .code (.call Request.stop)

/-- The watcher is stopped, and the packet of its AcceptEx goes to nobody. -/
def dropped : List sampleComponent.SceneLabel :=
  [stopped, .complete (⟨0, 0⟩ : AcceptEx) Outcome.done, .wait 1, .drop,
    .finishDispatch]

def accepted : List sampleComponent.SceneLabel :=
  [.complete (⟨0, 1⟩ : AcceptEx) Outcome.done, .wait 1, .code (.ready ()),
    .code .leave, .code (.resume (Input.posted (.accept .ok)))]

end Samples

end RopHive.Network.IocpAccept
