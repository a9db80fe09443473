import RopHive.Network.DescriptorOwnership

namespace RopHive.Network.Descriptors

open Transition

/-! Runs of all the watchers: what they open has one owner until it is closed,
as long as no watcher starts while it still holds a descriptor. -/

section Run

variable {Name : Type} {kind : Name → TcpWatcher} {state : State kind}

theorem field_send_stream [DecidableEq Name] (fd : Nat) :
    (state.send (.stream fd)).field =
      Function.update state.field (.stream state.streams.length) (some fd) := by
  funext owner
  cases owner with
  | watcher name => rfl
  | stream index =>
      by_cases last : index = state.streams.length
      · subst last
        simp [State.field, State.send]
      · simp only [State.field, State.send, Function.update_apply,
          Owner.stream.injEq, if_neg last]
        rw [List.getElem?_append]
        split
        · rfl
        · rw [List.getElem?_eq_none (by simp; omega),
            List.getElem?_eq_none (by omega)]

theorem field_stream_length :
    state.field (.stream state.streams.length) = none := by
  simp [State.field]

theorem field_set_none [DecidableEq Name] (index : Nat) :
    ({ state with
      streams := state.streams.set index none } : State kind).field =
      Function.update state.field (.stream index) none := by
  funext owner
  cases owner with
  | watcher name => rfl
  | stream other =>
      simp only [State.field, Function.update_apply, Owner.stream.injEq,
        List.getElem?_set]
      by_cases same : index = other
      · subst same
        rw [if_pos rfl, if_pos rfl]
        split <;> rfl
      · rw [if_neg same, if_neg (Ne.symm same)]

theorem field_place [DecidableEq Name] (name : Name)
    (config : Option (Config (kind name).holder.State
      (kind name).holder.Point (kind name).holder.Action)) :
    (state.place name config).field =
      Function.update state.field (.watcher name)
        (config.bind fun config => (kind name).holder.field config.store) := by
  funext owner
  cases owner with
  | stream index => rfl
  | watcher other =>
      by_cases same : other = name
      · subst same
        simp [State.field, State.place]
      · simp [State.field, State.place, same]

/-- The descriptors of the owners and those in the hands of running code are
the open ones, and no other has been closed or used. -/
structure Held (state : State kind) (hand : List Nat) : Prop where
  linear : Linear state.field hand state.isOpen
  noStray : state.stray = false

theorem Held.perm {hand other : List Nat} (held : Held state hand)
    (same : hand.Perm other) : Held state other :=
  ⟨held.linear.perm same, held.noStray⟩

theorem Held.open {hand : List Nat} (held : Held state hand) {fd : Nat}
    {begun : State kind} (opened : state.opened fd = some begun) :
    Held begun (fd :: hand) := by
  unfold State.opened at opened
  split at opened
  · cases opened
  · next fresh =>
      cases opened
      exact ⟨held.linear.acquire (by simpa using fresh), held.noStray⟩

theorem Held.close {hand : List Nat} {fd : Nat}
    (held : Held state (fd :: hand)) : Held (state.closed fd) hand where
  linear := held.linear.release
  noStray := by
    have isOpen := held.linear.hand_live fd (by simp)
    simp [State.closed, held.noStray, isOpen]

theorem Held.used {hand : List Nat} (held : Held state hand) {fd : Option Nat}
    (owned : ∀ used ∈ fd, ∃ owner, state.field owner = some used) :
    Held (state.used fd) hand where
  linear := held.linear
  noStray := by
    cases fd with
    | none => simp [State.used, held.noStray]
    | some used =>
        obtain ⟨owner, holds⟩ := owned used rfl
        have isOpen := held.linear.field_live owner used holds
        simp [State.used, held.noStray, isOpen]

variable [DecidableEq Name]

theorem Held.send {hand : List Nat} {transfer : Transfer}
    (held : Held state (transfer.fd :: hand)) :
    Held (state.send transfer) hand := by
  cases transfer with
  | close fd => exact held.close
  | stream fd =>
      refine ⟨?_, held.noStray⟩
      rw [field_send_stream]
      have inHand : Linear state.field ((some fd).toList ++ hand)
          state.isOpen := held.linear
      exact inHand.put field_stream_length

theorem Held.sendAll {hand : List Nat} {name : Name}
    {actions : List (kind name).holder.Action}
    (held : Held state
      ((actions.filterMap (kind name).holder.transfer).map Transfer.fd ++
        hand)) :
    Held (state.sendAll name actions) hand := by
  unfold State.sendAll
  generalize actions.filterMap (kind name).holder.transfer = transfers
    at held ⊢
  induction transfers generalizing state with
  | nil => exact held
  | cons transfer transfers ih => exact ih held.send

theorem Held.place {hand : List Nat} {name : Name}
    {config : Option (Config (kind name).holder.State
      (kind name).holder.Point (kind name).holder.Action)}
    (held : Held state
      ((config.bind fun config =>
        (kind name).holder.field config.store).toList ++ hand))
    (empty : state.field (.watcher name) = none) :
    Held (state.place name config) hand where
  linear := by
    rw [field_place]
    exact held.linear.put empty
  noStray := held.noStray

theorem Held.take {hand : List Nat} (held : Held state hand) (name : Name) :
    Held (state.place name none)
      ((state.field (.watcher name)).toList ++ hand) where
  linear := by
    rw [field_place]
    exact held.linear.take _
  noStray := held.noStray

/-! Where a watcher stands does not matter to what is sent. -/

theorem sendAll_place {name : Name}
    {config : Option (Config (kind name).holder.State
      (kind name).holder.Point (kind name).holder.Action)}
    {other : Name} (actions : List (kind other).holder.Action) :
    (state.place name config).sendAll other actions =
      (state.sendAll other actions).place name config := by
  unfold State.sendAll
  generalize actions.filterMap (kind other).holder.transfer = transfers
  induction transfers generalizing state with
  | nil => rfl
  | cons transfer transfers ih =>
      have sent : (state.place name config).send transfer =
          (state.send transfer).place name config := by
        cases transfer <;> rfl
      rw [List.foldl_cons, List.foldl_cons, sent]
      exact ih

theorem place_place {name : Name}
    (first second : Option (Config (kind name).holder.State
      (kind name).holder.Point (kind name).holder.Action)) :
    (state.place name first).place name second =
      state.place name second := by
  simp [State.place]

theorem field_place_none (name : Name) :
    (state.place name none).field (.watcher name) = none := by
  simp [State.field, State.place]

theorem Held.turn {hand : List Nat} {name : Name}
    {actions : List (kind name).holder.Action}
    {config : Option (Config (kind name).holder.State
      (kind name).holder.Point (kind name).holder.Action)}
    (held : Held state hand)
    (balance : ((state.field (.watcher name)).toList ++ hand).Perm
      ((actions.filterMap (kind name).holder.transfer).map Transfer.fd ++
        (config.bind fun config =>
          (kind name).holder.field config.store).toList)) :
    Held ((state.sendAll name actions).place name config) [] := by
  have taken : Held (state.place name none) _ := (held.take name).perm balance
  have sent := taken.sendAll
  rw [sendAll_place] at sent
  have placed : Held (((state.sendAll name actions).place name none).place name
      config) [] := by
    apply Held.place
    · simpa using sent
    · exact field_place_none name
  rwa [place_place] at placed

end Run

section Turns

variable {Name : Type} {kind : Name → TcpWatcher} {name : Name}
  {config after : Config (kind name).holder.State (kind name).holder.Point
    (kind name).holder.Action}
  {label : Transition.Label (kind name).holder.Request Events
    (kind name).holder.Input}

abbrev Pinned (name : Name) (config : Config (kind name).holder.State
    (kind name).holder.Point (kind name).holder.Action) : Prop :=
  PinnedTop (kind name).holder.pinned
    ((kind name).holder.field config.store = none) config.stack

theorem balances_of_takes {turn : Turn (kind name).holder.State
      (kind name).holder.Point (kind name).holder.Action}
    {below : List (Frame (kind name).holder.Point)}
    (pinned : Pinned name config)
    (heeded : ∀ request, label = .call request →
      (kind name).holder.heeds config.store request = true)
    (takes : (kind name).holder.program.Takes config label turn below) :
    (kind name).holder.Balances config.store (State.answered name config label)
      turn := by
  have accounts := (kind name).accounts
  cases takes with
  | call _ called => exact accounts.call _ _ _ (heeded _ rfl) called
  | ready _ readied => exact accounts.ready _ _ _ readied
  | resume shape resumed =>
      have empty := pinned
      rw [Pinned, shape] at empty
      simp only [State.answered, shape]
      exact accounts.resume _ _ _ _ (empty.1 _ rfl) resumed

theorem balance_of_step (pinned : Pinned name config)
    (heeded : ∀ request, label = .call request →
      (kind name).holder.heeds config.store request = true)
    (stepped : (kind name).holder.program.step config label = some after) :
    (((kind name).holder.field config.store).toList ++
      (State.answered name config label).toList).Perm
        ((((after.log.drop config.log.length).filterMap
          (kind name).holder.transfer).map Transfer.fd) ++
            ((kind name).holder.field after.store).toList) := by
  obtain ⟨turn, below, takes, rfl⟩ | ⟨rfl, below, _, rfl⟩ :=
    Program.step_cases stepped
  · have emitted : (config.take turn below).log.drop config.log.length =
        turn.emitted := by
      simp [Config.take]
    rw [emitted]
    exact (balances_of_takes pinned heeded takes).balance
  · simp [State.answered]

theorem Pinned.step (pinned : Pinned name config)
    (heeded : ∀ request, label = .call request →
      (kind name).holder.heeds config.store request = true)
    (stepped : (kind name).holder.program.step config label = some after) :
    Pinned name after := by
  obtain ⟨turn, below, takes, rfl⟩ | ⟨rfl, below, shape, rfl⟩ :=
    Program.step_cases stepped
  · have balances := balances_of_takes pinned heeded takes
    exact PinnedTop.take (fun store => (kind name).holder.field store = none)
      pinned takes balances.pins
  · exact pinned.leave shape

theorem uses_field {fd : Nat} (used : fd ∈ State.uses name config label) :
    (kind name).holder.field config.store = some fd := by
  have accounts := (kind name).accounts
  cases label with
  | call request => exact accounts.callUses _ _ _ used
  | resume input =>
      simp only [State.uses] at used
      split at used
      · exact accounts.pointUses _ _ _ used
      · cases used
  | ready events => cases used
  | leave => cases used

end Turns

section Steps

variable {Name : Type} {kind : Name → TcpWatcher} {state after : State kind}
  {name : Name}

/-- A call does not make the watcher open a second descriptor. -/
def Heeds (state : State kind) : Label kind → Prop
  | .watcher name (.call request) =>
      ∀ config ∈ state.watchers name,
        (kind name).holder.heeds config.store request = true
  | _ => True

instance (state : State kind) : (label : Label kind) →
    Decidable (Heeds state label)
  | .watcher name (.call request) =>
      inferInstanceAs (Decidable (∀ config ∈ state.watchers name,
        (kind name).holder.heeds config.store request = true))
  | .watcher _ (.ready _) | .watcher _ (.resume _) | .watcher _ .leave
  | .make _ | .listen _ _ | .adopt _ _ | .dropStream _ | .destroy _ =>
      .isTrue trivial

structure Kept (state : State kind) : Prop where
  held : Held state []
  pinned : ∀ name, ∀ config ∈ state.watchers name, Pinned name config

theorem field_of_absent (absent : state.watchers name = none) :
    state.field (.watcher name) = none := by
  simp [State.field, absent]

theorem opened_watchers {fd : Nat} (opened : state.opened fd = some after) :
    after.watchers = state.watchers := by
  unfold State.opened at opened
  split at opened
  · cases opened
  · cases opened
    rfl

theorem opened_field {fd : Nat} (opened : state.opened fd = some after) :
    after.field = state.field := by
  unfold State.opened at opened
  split at opened
  · cases opened
  · cases opened
    rfl

theorem sendAll_watchers (actions : List (kind name).holder.Action) :
    (state.sendAll name actions).watchers = state.watchers := by
  unfold State.sendAll
  generalize actions.filterMap (kind name).holder.transfer = transfers
  induction transfers generalizing state with
  | nil => rfl
  | cons transfer transfers ih =>
      rw [List.foldl_cons, ih]
      cases transfer <;> rfl

theorem Kept.closed {begun : State kind} {fd : Nat}
    (held : Held begun [fd])
    (pinned : ∀ name, ∀ config ∈ begun.watchers name, Pinned name config) :
    Kept (begun.closed fd) :=
  ⟨held.close, pinned⟩

variable [DecidableEq Name]

theorem pinned_place {before : State kind}
    (pinned : ∀ name, ∀ config ∈ before.watchers name, Pinned name config)
    (same : state.watchers = before.watchers)
    {config : Option (Config (kind name).holder.State
      (kind name).holder.Point (kind name).holder.Action)}
    (placed : ∀ placed ∈ config, Pinned name placed) :
    ∀ other, ∀ found ∈ (state.place name config).watchers other,
      Pinned other found := by
  intro other found member
  simp only [State.place, same] at member
  by_cases isName : other = name
  · subst isName
    rw [Function.update_self] at member
    exact placed found member
  · rw [Function.update_of_ne isName] at member
    exact pinned other found member

theorem Kept.watcher
    {label : Transition.Label (kind name).holder.Request Events
      (kind name).holder.Input}
    (kept : Kept state) (heeded : Heeds state (.watcher name label))
    (stepped : state.step (.watcher name label) = some after) :
    Kept after := by
  simp only [State.step, Option.bind_eq_bind, Option.bind_eq_some_iff,
    Option.pure_def, Option.some.injEq] at stepped
  obtain ⟨config, found, begun, begins, next, turned, rfl⟩ := stepped
  have pinned := kept.pinned name config found
  have heeds (request : (kind name).holder.Request)
      (isCall : label = .call request) :
      (kind name).holder.heeds config.store request = true := by
    subst isCall
    exact heeded config found
  have field : state.field (.watcher name) =
      (kind name).holder.field config.store := by
    simp [State.field, found]
  have used : Held (state.used (State.uses name config label)) [] :=
    kept.held.used fun fd used => ⟨_, field.trans (uses_field used)⟩
  have balance := balance_of_step pinned heeds turned
  have begunHeld : Held begun (State.answered name config label).toList ∧
      begun.field = state.field ∧ begun.watchers = state.watchers := by
    unfold State.begun at begins
    cases answer : State.answered name config label with
    | none =>
        rw [answer] at begins
        cases begins
        exact ⟨used, rfl, rfl⟩
    | some fd =>
        rw [answer] at begins
        have opened : (state.used (State.uses name config label)).opened fd =
            some begun := begins
        have field := opened_field opened
        have watchers := opened_watchers opened
        exact ⟨used.open opened, field, watchers⟩
  obtain ⟨held, fields, watchers⟩ := begunHeld
  constructor
  · apply held.turn
    rw [fields, field]
    exact balance
  · apply pinned_place kept.pinned
    · rw [sendAll_watchers, watchers]
    · intro placed member
      cases member
      exact pinned.step heeds turned

theorem Kept.made {begun : State kind} {fd : Option Nat}
    (held : Held begun (if (kind name).holder.origin = .unopened then []
      else fd.toList))
    (pinned : ∀ name, ∀ config ∈ begun.watchers name, Pinned name config)
    (absent : begun.watchers name = none) : Kept (begun.made name fd) where
  held := by
    have placed := (kind name).accounts.made fd
    apply Held.place
    · rw [Option.bind_some, placed]
      split at held <;> split <;> simp_all
    · exact field_of_absent absent
  pinned := by
    apply pinned_place pinned rfl
    intro config member
    cases member
    trivial

theorem Kept.listen {result : ListenResult} (kept : Kept state)
    (stepped : state.step (.listen name result) = some after) :
    Kept after := by
  simp only [State.step] at stepped
  split at stepped
  · next isNew =>
      cases result with
      | socketFailed errno =>
          cases stepped
          exact kept
      | bindFailed fd errno | listenFailed fd errno =>
          obtain ⟨begun, opened, rfl⟩ := Option.map_eq_some_iff.mp stepped
          apply Kept.closed (kept.held.open opened)
          rw [opened_watchers opened]
          exact kept.pinned
      | listening fd =>
          obtain ⟨begun, opened, rfl⟩ := Option.map_eq_some_iff.mp stepped
          have watchers := opened_watchers opened
          apply Kept.made
          · simpa [isNew.2] using kept.held.open opened
          · rw [watchers]
            exact kept.pinned
          · rw [watchers]
            exact isNew.1
  · cases stepped

theorem Held.takeStream {index fd : Nat} (held : Held state [])
    (found : state.streams[index]?.join = some fd) :
    Held { state with
      streams := state.streams.set index none } [fd] where
  linear := by
    rw [field_set_none]
    have field : state.field (.stream index) = some fd := found
    have taken := held.linear.take (.stream index)
    rwa [field] at taken
  noStray := held.noStray

theorem Kept.step {label : Label kind} (kept : Kept state)
    (heeded : Heeds state label) (stepped : state.step label = some after) :
    Kept after := by
  cases label with
  | watcher name label => exact kept.watcher heeded stepped
  | make name =>
      simp only [State.step] at stepped
      split at stepped
      · next isNew =>
          cases stepped
          apply Kept.made
          · simpa [isNew.2] using kept.held
          · exact kept.pinned
          · exact isNew.1
      · cases stepped
  | listen name result => exact kept.listen stepped
  | adopt name index =>
      simp only [State.step] at stepped
      split at stepped
      · next fd found =>
          split at stepped
          · next isNew =>
              cases stepped
              apply Kept.made
              · simpa [isNew.2] using kept.held.takeStream found
              · exact kept.pinned
              · exact isNew.1
          · cases stepped
      · cases stepped
  | dropStream index =>
      simp only [State.step] at stepped
      split at stepped
      · next fd found =>
          cases stepped
          exact Kept.closed (kept.held.takeStream found) kept.pinned
      · cases stepped
  | destroy name =>
      simp only [State.step] at stepped
      split at stepped
      · next config found =>
          split at stepped
          · cases stepped
            constructor
            · apply kept.held.turn
              simp [State.field, found, (kind name).accounts.destroy]
            · apply pinned_place kept.pinned
              · exact sendAll_watchers _
              · nofun
          · cases stepped
      · cases stepped

end Steps

section Runs

variable {Name : Type} {kind : Name → TcpWatcher} {state : State kind}

theorem Kept.initially : Kept (initialState : State kind) where
  held := by
    have field : (initialState : State kind).field = fun _ => none := by
      funext owner
      cases owner <;> rfl
    refine ⟨?_, rfl⟩
    rw [field]
    exact .start
  pinned := nofun

/-- The open descriptors have one owner each, the owners hold only open ones,
and no other descriptor has ever been used or closed. -/
structure OwnedLinearly (state : State kind) : Prop where
  one_owner : ∀ fd, state.isOpen fd = true →
    ∃! owner, state.field owner = some fd
  held_open : ∀ owner fd, state.field owner = some fd →
    state.isOpen fd = true
  no_stray : state.stray = false

theorem owned_linearly_of_heeds [DecidableEq Name]
    (reached : (system kind).ReachableUnder Heeds state) :
    OwnedLinearly state := by
  have kept : Kept state := by
    apply System.ReachableUnder.invariant Kept _ _ reached
    · rintro state rfl
      exact .initially
    · intro state label after kept heeded stepped
      exact kept.step heeded stepped
  exact
    { one_owner := fun fd isOpen => (kept.held.linear.live_iff fd).mp isOpen
      held_open := kept.held.linear.field_live
      no_stray := kept.held.noStray }

end Runs

def sampleKind : Bool → TcpWatcher
  | true => .connect (epollTcpConnectWatcher (.v4 (.replicate 4 127) 80) {}
      true true)
  | false => .connection (epollTcpConnectionWatcher {}
      ⟨true, true, true, true⟩)

def dial (label : Transition.Label Connect.Request Events Connect.Input) :
    Label sampleKind :=
  .watcher true label

def talk (label : Transition.Label Connection.Request Events
    Connection.Input) : Label sampleKind :=
  .watcher false label

def connecting : List (Label sampleKind) :=
  [dial (.call .start), dial (.resume (.socket (.opened 5))),
    dial (.resume (.nonBlocking .ok)), dial (.resume .proceed),
    dial (.resume (.connect (.failed Errno.einprogress))),
    dial (.resume .proceed)]

/-- The first connect is refused; `on_error_` starts again, and the kernel
hands out the same number.  The connection closes itself when the peer has, and
is destroyed in `on_close_`. -/
def retriedInsideError : List (Label sampleKind) :=
  [Label.make true] ++ connecting ++
    [dial (.ready { writable := true }),
      dial (.resume (.socketError (.pending 111)))] ++ connecting ++
    [dial .leave, dial (.ready { writable := true }),
      dial (.resume (.socketError (.pending 0))), .adopt false 0, dial .leave,
      talk (.call .start), talk (.ready { hangUp := true }),
      talk (.resume (.recv .endOfStream)), talk (.resume .proceed),
      .destroy false]

theorem owned_linearly_of_heeds_retriedInsideError :
    ∃ state : State sampleKind, state.isOpen 5 = false ∧
      state.streams = [none] ∧ OwnedLinearly state := by
  have run : ((system sampleKind).replay initialState
      retriedInsideError).map (fun state => decide
        (state.isOpen 5 = false ∧ state.streams = [none])) = some true := by
    decide +kernel
  have guarded : (system sampleKind).Follows Heeds initialState
      retriedInsideError := by decide +kernel
  obtain ⟨state, ends, found⟩ := Option.map_eq_some_iff.mp run
  obtain ⟨closed, streams⟩ := of_decide_eq_true found
  exact ⟨state, closed, streams, owned_linearly_of_heeds
    (System.ReachableUnder.replay retriedInsideError (.start rfl) guarded
      ends)⟩

/-- `connect` is refused at once; `on_error_` starts again and a second socket
takes the place of the first. -/
def retriedUnattached : List (Label sampleKind) :=
  [.make true, dial (.call .start), dial (.resume (.socket (.opened 5))),
    dial (.resume (.nonBlocking .ok)), dial (.resume .proceed),
    dial (.resume (.connect (.failed 111))), dial (.call .start),
    dial (.resume (.socket (.opened 6)))]

theorem retriedUnattached_leaks :
    ¬ ∀ state, (system sampleKind).Reachable state → OwnedLinearly state := by
  have run : ((system sampleKind).replay initialState
      retriedUnattached).map (fun state => decide (state.isOpen 5 = true ∧
        state.field (.watcher true) = some 6 ∧
          state.field (.watcher false) = none ∧ state.streams = [])) =
            some true := by
    decide +kernel
  obtain ⟨state, ends, found⟩ := Option.map_eq_some_iff.mp run
  obtain ⟨isOpen, dialing, talking, streams⟩ := of_decide_eq_true found
  intro claimed
  have owned := claimed state (System.Reachable.replay retriedUnattached
    (.start rfl) ends)
  obtain ⟨owner, holds, _⟩ := owned.one_owner 5 isOpen
  cases owner with
  | watcher name =>
      cases name with
      | true => simp [dialing] at holds
      | false => simp [talking] at holds
  | stream index => simp [State.field, streams] at holds

end RopHive.Network.Descriptors
