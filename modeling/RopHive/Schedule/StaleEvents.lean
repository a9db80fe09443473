import RopHive.Schedule.EventLoopCore

namespace RopHive.Schedule

open Transition

/-! An event core whose sources watch sockets.  A closed descriptor is reused
at once, so that its number says nothing of the socket behind it. -/

namespace Recycling

/-- The sockets of a descriptor are numbered in the order they are opened. -/
structure Sockets (Source : Type) where
  isOpen : Int → Bool := fun _ => false
  opened : Int → Nat := fun _ => 0
  openedAtWait : Int → Nat := fun _ => 0
  /-- The socket of its descriptor that a source was made for. -/
  socketOf : Source → Option Nat := fun _ => none

/-- A raw event, with the socket that it was collected for. -/
structure Collected (Events : Type) extends RawEvent Events where
  socket : Nat
  deriving DecidableEq, Repr

structure State {Events : Type} (backend : InterestBackend Events)
    (Source : Type) where
  run : CoreRun.State backend Source
  sockets : Sockets Source

inductive Label (Source Events : Type) where
  | core (label : CoreRun.Label Source Events)
  | returned (events : List (Collected Events))
  | closeSocket (fd : Int)
  | openSocket (fd : Int)
  | makeSource (source : Source)
  deriving DecidableEq, Repr

section Steps

variable {Events : Type} {backend : InterestBackend Events} {Source : Type}
  [DecidableEq Source] (profile : Profile Source)

namespace Sockets

variable (sockets : Sockets Source)

/-- The socket had the descriptor at some time of the wait. -/
def Collects (collected : Collected Events) : Prop :=
  sockets.openedAtWait collected.fd ≤ collected.socket ∧
    collected.socket ≤ sockets.opened collected.fd

instance (collected : Collected Events) :
    Decidable (sockets.Collects collected) :=
  inferInstanceAs (Decidable (_ ∧ _))

/-- What a call to the core does to the sockets; only sources that have been
made can be added. -/
def call : CoreRun.Label Source Events → Option (Sockets Source)
  | .addSource source =>
      if (sockets.socketOf source).isSome then some sockets else none
  | .enterWait => some { sockets with
      openedAtWait := sockets.opened }
  | .returned _ => none
  | _ => some sockets

def closeSocket (fd : Int) : Option (Sockets Source) :=
  if sockets.isOpen fd then
    some { sockets with
      isOpen := Function.update sockets.isOpen fd false }
  else none

def openSocket (fd : Int) : Option (Sockets Source) :=
  if sockets.isOpen fd then none
  else
    some { sockets with
      isOpen := Function.update sockets.isOpen fd true
      opened := Function.update sockets.opened fd (sockets.opened fd + 1) }

def makeSource (source : Source) : Option (Sockets Source) :=
  if sockets.isOpen (profile.fd source) ∧ sockets.socketOf source = none then
    some { sockets with
      socketOf := Function.update sockets.socketOf source
        (some (sockets.opened (profile.fd source))) }
  else none

end Sockets

def State.step (state : State backend Source) :
    Label Source Events → Option (State backend Source)
  | .core label => do
      let sockets ← state.sockets.call label
      let run ← state.run.step profile label
      return { run, sockets }
  | .returned events => do
      let run ← state.run.step profile
        (.returned (events.map Collected.toRawEvent))
      if ∀ collected ∈ events, state.sockets.Collects collected then
        return { state with run }
      else failure
  | .closeSocket fd => do
      return { state with
        sockets := ← state.sockets.closeSocket fd }
  | .openSocket fd => do
      return { state with
        sockets := ← state.sockets.openSocket fd }
  | .makeSource source => do
      return { state with
        sockets := ← state.sockets.makeSource profile source }

def initialState (events : Source → Events) : State backend Source where
  run := CoreRun.initialState events
  sockets := {}

def machine (backend : InterestBackend Events) (events : Source → Events) :
    System (State backend Source) (Label Source Events) where
  initial := fun state => state = initialState events
  step := fun state label => state.step profile label

end Steps

/-- One wait and its dispatch: `sources_` when it began, the events collected
in it, and for each that the loop has come to the source it went to. -/
structure Batch (Source Events : Type) where
  registered : List Source := []
  collected : List (Collected Events) := []
  considered : List (Collected Events × Option Source) := []
  pending : List (Collected Events) := []
  deriving DecidableEq, Repr

/-- The batches of all waits; the last one may still be under way. -/
structure Batches (Source Events : Type) where
  earlier : List (Batch Source Events) := []
  last : Batch Source Events := {}
  deriving DecidableEq, Repr

section Observed

variable {Events : Type} {backend : InterestBackend Events} {Source : Type}
  [DecidableEq Source] (profile : Profile Source)

def Batch.consider (batch : Batch Source Events)
    (found : Option Source) : Batch Source Events :=
  match batch.pending with
  | [] => batch
  | collected :: pending =>
      { batch with
        considered := batch.considered ++ [(collected, found)]
        pending := pending }

def Batches.observe (state : State backend Source)
    (label : Label Source Events) (_ : State backend Source)
    (batches : Batches Source Events) : Batches Source Events :=
  match label, state.run.point with
  | .core .enterWait, _ =>
      { earlier := batches.earlier ++ [batches.last]
        last := { registered := state.run.core.sources } }
  | .returned events, _ =>
      { batches with
        last := { batches.last with
          collected := events
          pending := events } }
  | .core .next, .dispatching snapshot (event :: _) =>
      { batches with
        last := batches.last.consider
          (snapshot.find? (profile.matches event)) }
  | _, _ => batches

def observed (backend : InterestBackend Events) (events : Source → Events) :
    System (State backend Source × Batches Source Events)
      (Label Source Events) :=
  (machine profile backend events).withHistory {} (Batches.observe profile)

end Observed

section Tracked

variable {Events : Type} {backend : InterestBackend Events} {Source : Type}
  {profile : Profile Source}

/-- The source was made for a socket that is not later than the bound. -/
def Sockets.MadeBy (sockets : Sockets Source) (source : Source)
    (bound : Nat) : Prop :=
  ∃ socket, sockets.socketOf source = some socket ∧ socket ≤ bound

structure Sockets.Extends (later sockets : Sockets Source) : Prop where
  socketOf : ∀ source socket, sockets.socketOf source = some socket →
    later.socketOf source = some socket
  openedAtWait : later.openedAtWait = sockets.openedAtWait

theorem Sockets.MadeBy.extend {later sockets : Sockets Source}
    {source : Source} {bound : Nat} (made : sockets.MadeBy source bound)
    (extends_ : later.Extends sockets) : later.MadeBy source bound := by
  obtain ⟨socket, isMade, before⟩ := made
  exact ⟨socket, extends_.socketOf source socket isMade, before⟩

/-- Every event went to a source that was registered when the wait began, and
that was not made for a later socket. -/
def Batch.Sound (profile : Profile Source) (sockets : Sockets Source)
    (batch : Batch Source Events) : Prop :=
  ∀ collected source, (collected, some source) ∈ batch.considered →
    source ∈ batch.registered ∧ profile.fd source = collected.fd ∧
      sockets.MadeBy source collected.socket

def Aligned (run : CoreRun.State backend Source)
    (batch : Batch Source Events) : Prop :=
  match run.point with
  | .idle | .applying _ => batch.pending = []
  | .waiting => batch = { registered := run.core.sources }
  | .dispatching snapshot rest | .handling snapshot rest =>
      run.core.inDispatch = true ∧ snapshot = batch.registered ∧
        batch.pending.map Collected.toRawEvent = rest

structure Tracked (profile : Profile Source) (state : State backend Source)
    (batches : Batches Source Events) : Prop where
  bounded : ∀ source socket, state.sockets.socketOf source = some socket →
    socket ≤ state.sockets.opened (profile.fd source)
  made : ∀ source, state.run.Mentions source →
    (state.sockets.socketOf source).isSome
  aligned : Aligned state.run batches.last
  all : batches.last.considered.map Prod.fst ++ batches.last.pending =
    batches.last.collected
  registered : ∀ source ∈ batches.last.registered,
    state.sockets.MadeBy source (state.sockets.openedAtWait (profile.fd source))
  pending : ∀ collected ∈ batches.last.pending,
    state.sockets.openedAtWait collected.fd ≤ collected.socket
  sound : batches.last.Sound profile state.sockets
  earlier : ∀ batch ∈ batches.earlier,
    batch.considered.map Prod.fst = batch.collected ∧
      batch.Sound profile state.sockets

variable {run : CoreRun.State backend Source} {sockets : Sockets Source}
  {batches : Batches Source Events}

theorem Tracked.initial (events : Source → Events) :
    Tracked profile (initialState events : State backend Source)
      ({} : Batches Source Events) where
  bounded := nofun
  made := by simp [initialState, CoreRun.initialState, CoreRun.State.Mentions,
    CoreRun.Point.ops]
  aligned := rfl
  all := rfl
  registered := nofun
  pending := nofun
  sound := nofun
  earlier := nofun

theorem Tracked.extend (tracked : Tracked profile ⟨run, sockets⟩ batches)
    {later : Sockets Source} (extends_ : later.Extends sockets)
    (bounded : ∀ source socket, later.socketOf source = some socket →
      socket ≤ later.opened (profile.fd source)) :
    Tracked profile ⟨run, later⟩ batches where
  bounded := bounded
  made := by
    intro source mentioned
    obtain ⟨socket, isMade⟩ :=
      Option.isSome_iff_exists.mp (tracked.made source mentioned)
    exact Option.isSome_iff_exists.mpr
      ⟨socket, extends_.socketOf source socket isMade⟩
  aligned := tracked.aligned
  all := tracked.all
  registered := by
    intro source member
    rw [extends_.openedAtWait]
    exact (tracked.registered source member).extend extends_
  pending := by
    intro collected member
    rw [extends_.openedAtWait]
    exact tracked.pending collected member
  sound := by
    intro collected source member
    obtain ⟨registered, same, made⟩ := tracked.sound collected source member
    exact ⟨registered, same, made.extend extends_⟩
  earlier := by
    intro batch member
    obtain ⟨all, sound⟩ := tracked.earlier batch member
    refine ⟨all, ?_⟩
    intro collected source entry
    obtain ⟨registered, same, made⟩ := sound collected source entry
    exact ⟨registered, same, made.extend extends_⟩

theorem Tracked.closeSocket (tracked : Tracked profile ⟨run, sockets⟩ batches)
    {fd : Int} {later : Sockets Source}
    (closed : sockets.closeSocket fd = some later) :
    Tracked profile ⟨run, later⟩ batches := by
  unfold Sockets.closeSocket at closed
  split at closed
  · cases closed
    exact tracked.extend ⟨fun _ _ => id, rfl⟩ tracked.bounded
  · cases closed

theorem Tracked.openSocket (tracked : Tracked profile ⟨run, sockets⟩ batches)
    {fd : Int} {later : Sockets Source}
    (opened : sockets.openSocket fd = some later) :
    Tracked profile ⟨run, later⟩ batches := by
  unfold Sockets.openSocket at opened
  split at opened
  · cases opened
  · cases opened
    refine tracked.extend ⟨fun _ _ => id, rfl⟩ ?_
    intro source socket isMade
    have before := tracked.bounded source socket isMade
    simp only [Function.update_apply]
    split
    · next same =>
        rw [same] at before
        exact Nat.le_succ_of_le before
    · exact before

variable [DecidableEq Source]

theorem Tracked.makeSource (tracked : Tracked profile ⟨run, sockets⟩ batches)
    {source : Source} {later : Sockets Source}
    (made : sockets.makeSource profile source = some later) :
    Tracked profile ⟨run, later⟩ batches := by
  unfold Sockets.makeSource at made
  split at made
  · next allowed =>
      cases made
      refine tracked.extend ⟨?_, rfl⟩ ?_
      · intro other socket isMade
        have apart : other ≠ source := by
          rintro rfl
          rw [allowed.2] at isMade
          cases isMade
        simpa [Function.update_of_ne apart] using isMade
      · intro other socket isMade
        simp only [Function.update_apply] at isMade
        split at isMade
        · next same =>
            cases isMade
            exact Nat.le_of_eq (by rw [same])
        · exact tracked.bounded other socket isMade
  · cases made

omit [DecidableEq Source] in
theorem Tracked.consider {core : EventLoopCore backend Source}
    {snapshot : List Source} {event : RawEvent Events}
    {rest : List (RawEvent Events)}
    (tracked : Tracked profile
      ⟨⟨core, .dispatching snapshot (event :: rest)⟩, sockets⟩ batches)
    {point : CoreRun.Point Source Events}
    (isNext : point = .handling snapshot rest ∨
      point = .dispatching snapshot rest) :
    Tracked profile ⟨⟨core, point⟩, sockets⟩
      { batches with
        last := batches.last.consider
          (snapshot.find? (profile.matches event)) } := by
  obtain ⟨inDispatch, isSnapshot, pendingRest⟩ := tracked.aligned
  obtain ⟨collected, pending, isPending, isEvent, isRest⟩ :=
    List.map_eq_cons_iff.mp pendingRest
  have considered (found : Option Source) :
      batches.last.consider found =
        { batches.last with
          considered := batches.last.considered ++ [(collected, found)]
          pending := pending } := by
    simp [Batch.consider, isPending]
  rw [considered]
  refine
    { bounded := tracked.bounded
      made := ?_
      aligned := ?_
      all := ?_
      registered := tracked.registered
      pending := ?_
      sound := ?_
      earlier := tracked.earlier }
  · intro source mentioned
    apply tracked.made source
    obtain rfl | rfl := isNext <;> exact mentioned
  · obtain rfl | rfl := isNext <;> exact ⟨inDispatch, isSnapshot, isRest⟩
  · rw [← tracked.all, isPending]
    simp
  · intro other member
    apply tracked.pending other
    rw [isPending]
    exact List.mem_cons_of_mem _ member
  · intro other source member
    obtain before | isNew := List.mem_append.mp member
    · exact tracked.sound other source before
    · obtain ⟨rfl, found⟩ := Prod.mk.inj (List.mem_singleton.mp isNew)
      have registered : source ∈ batches.last.registered := by
        rw [← isSnapshot]
        exact List.mem_of_find?_eq_some found.symm
      have same : event.fd = profile.fd source := by
        simpa [Profile.matches] using List.find?_some found.symm
      obtain ⟨socket, isMade, before⟩ := tracked.registered source registered
      have since := tracked.pending other (by rw [isPending]; simp)
      rw [← same, ← isEvent] at before
      refine ⟨registered, ?_, socket, isMade, Nat.le_trans before since⟩
      rw [← same, ← isEvent]

theorem Tracked.core (tracked : Tracked profile ⟨run, sockets⟩ batches)
    {label : CoreRun.Label Source Events} {later : Sockets Source}
    {after : CoreRun.State backend Source}
    (called : sockets.call label = some later)
    (stepped : run.step profile label = some after)
    (ends : State backend Source) :
    Tracked profile ⟨after, later⟩
      (batches.observe profile ⟨run, sockets⟩ (.core label) ends) := by
  have made (source : Source) (mentioned : after.Mentions source) :
      (sockets.socketOf source).isSome := by
    obtain before | rfl := CoreRun.mentions_of_step stepped mentioned
    · exact tracked.made source before
    · by_contra absent
      simp [Sockets.call, absent] at called
  have aligned := tracked.aligned
  obtain ⟨core, point⟩ := run
  cases label with
  | addSource source =>
      simp only [Sockets.call] at called
      split at called
      · cases called
        cases stepped
        exact { tracked with
          made := made
          aligned := aligned }
      · cases called
  | removeSource source =>
      cases called
      cases stepped
      exact { tracked with
        made := made
        aligned := aligned }
  | setEvents source events =>
      cases called
      cases stepped
      have same : Aligned ⟨core.setEvents profile source events, point⟩
          batches.last := by
        simpa [Aligned] using aligned
      exact { tracked with
        made := made
        aligned := same }
  | applyInitialChanges =>
      cases called
      cases point with
      | idle =>
          cases stepped
          refine { tracked with
            made := made
            aligned := ?_ }
          unfold CoreRun.State.swapPending
          split <;> exact aligned
      | handling snapshot rest =>
          cases stepped
          have same : CoreRun.State.swapPending
              ⟨core, .handling snapshot rest⟩ = ⟨core, .handling snapshot rest⟩ :=
            if_pos aligned.1
          rw [same]
          exact tracked
      | _ => cases stepped
  | enterWait =>
      cases called
      cases point with
      | idle =>
          cases stepped
          refine
            { bounded := tracked.bounded
              made := made
              aligned := rfl
              all := rfl
              registered := ?_
              pending := nofun
              sound := nofun
              earlier := ?_ }
          · intro source member
            obtain ⟨socket, isMade⟩ :=
              Option.isSome_iff_exists.mp (made source (.inl member))
            exact ⟨socket, isMade, tracked.bounded source socket isMade⟩
          · intro batch member
            obtain before | isLast := List.mem_append.mp member
            · exact tracked.earlier batch before
            · cases List.mem_singleton.mp isLast
              have all := tracked.all
              rw [show batches.last.pending = [] from aligned,
                List.append_nil] at all
              exact ⟨all, tracked.sound⟩
      | _ => cases stepped
  | returned events => cases called
  | next =>
      cases called
      cases point with
      | idle | waiting => cases stepped
      | dispatching snapshot rest =>
          cases rest with
          | nil =>
              cases stepped
              exact { tracked with
                made := made
                aligned := List.map_eq_nil_iff.mp aligned.2.2 }
          | cons event rest =>
              simp only [CoreRun.State.step, CoreRun.State.next] at stepped
              split at stepped
              · cases stepped
                exact tracked.consider (.inl rfl)
              · cases stepped
                exact tracked.consider (.inr rfl)
      | handling snapshot rest =>
          cases stepped
          exact { tracked with
            made := made
            aligned := aligned }
      | applying ops =>
          cases ops with
          | nil =>
              cases stepped
              exact { tracked with
                made := made
                aligned := aligned }
          | cons op ops =>
              cases stepped
              exact { tracked with
                made := made
                aligned := aligned }

theorem Tracked.returned (tracked : Tracked profile ⟨run, sockets⟩ batches)
    {events : List (Collected Events)} {after : CoreRun.State backend Source}
    (stepped : run.step profile
      (.returned (events.map Collected.toRawEvent)) = some after)
    (collects : ∀ collected ∈ events, sockets.Collects collected)
    (ends : State backend Source) :
    Tracked profile ⟨after, sockets⟩
      (batches.observe profile ⟨run, sockets⟩ (.returned events) ends) := by
  have aligned := tracked.aligned
  obtain ⟨core, point⟩ := run
  cases point with
  | waiting =>
      cases stepped
      have begun : batches.last = { registered := core.sources } := aligned
      exact
        { bounded := tracked.bounded
          made := tracked.made
          aligned := ⟨rfl, by simp [Batches.observe, begun], rfl⟩
          all := by simp [Batches.observe, begun]
          registered := tracked.registered
          pending := fun collected member => (collects collected member).1
          sound := by simp [Batches.observe, begun, Batch.Sound]
          earlier := tracked.earlier }
  | _ => cases stepped

theorem Tracked.step {state : State backend Source}
    (tracked : Tracked profile state batches) (label : Label Source Events)
    (after : State backend Source)
    (stepped : state.step profile label = some after) :
    Tracked profile after (batches.observe profile state label after) := by
  obtain ⟨run, sockets⟩ := state
  cases label with
  | core label =>
      obtain ⟨later, called, stepped⟩ := Option.bind_eq_some_iff.mp stepped
      obtain ⟨run, moved, stepped⟩ := Option.bind_eq_some_iff.mp stepped
      cases stepped
      exact tracked.core called moved _
  | returned events =>
      obtain ⟨run, moved, stepped⟩ := Option.bind_eq_some_iff.mp stepped
      split at stepped
      · next collects =>
          cases stepped
          exact tracked.returned moved collects _
      · cases stepped
  | closeSocket fd =>
      obtain ⟨later, closed, stepped⟩ := Option.bind_eq_some_iff.mp stepped
      cases stepped
      exact tracked.closeSocket closed
  | openSocket fd =>
      obtain ⟨later, opened, stepped⟩ := Option.bind_eq_some_iff.mp stepped
      cases stepped
      exact tracked.openSocket opened
  | makeSource source =>
      obtain ⟨later, made, stepped⟩ := Option.bind_eq_some_iff.mp stepped
      cases stepped
      exact tracked.makeSource made

end Tracked

section Theorems

variable {Events : Type} {backend : InterestBackend Events} {Source : Type}
  [DecidableEq Source]

/-- Once a batch is over each of its events has been considered once, and no
event goes to a source that was made or registered too late for it. -/
theorem events_reach_registered (profile : Profile Source)
    (events : Source → Events) {state : State backend Source}
    {batches : Batches Source Events}
    (reached : (observed profile backend events).Reachable (state, batches)) :
    (∀ batch ∈ batches.earlier,
      batch.considered.map Prod.fst = batch.collected) ∧
    batches.last.considered.map Prod.fst <+: batches.last.collected ∧
    (state.run.point = .idle →
      batches.last.considered.map Prod.fst = batches.last.collected) ∧
    ∀ batch ∈ batches.earlier ++ [batches.last], ∀ collected source,
      (collected, some source) ∈ batch.considered →
        source ∈ batch.registered ∧ profile.fd source = collected.fd ∧
        ∃ socket, state.sockets.socketOf source = some socket ∧
          socket ≤ collected.socket := by
  have tracked : Tracked profile state batches := by
    apply System.withHistory_invariant (Tracked profile) ?_ ?_ reached
    · intro state isInitial
      cases isInitial
      exact .initial events
    · intro state batches label after tracked _ stepped
      exact tracked.step label after stepped
  refine ⟨fun batch member => (tracked.earlier batch member).1, ?_, ?_, ?_⟩
  · rw [← tracked.all]
    exact List.prefix_append _ _
  · intro idle
    have aligned := tracked.aligned
    simp only [Aligned, idle] at aligned
    rw [← tracked.all, aligned, List.append_nil]
  · intro batch member
    obtain before | isLast := List.mem_append.mp member
    · exact (tracked.earlier batch before).2
    · rw [List.mem_singleton.mp isLast]
      exact tracked.sound

end Theorems

/-- Both sources watch a socket with the descriptor 5. -/
def sameDescriptor : Profile (Fin 2) where
  fd := fun _ => 5
  type := fun _ => .linuxEpoll

/-- The handler of the first of two events closes the socket, makes a source
for the next one with its descriptor and adds it. -/
def reopenInHandler : List (Label (Fin 2) Nat) :=
  [Label.openSocket 5, .makeSource 0, .core (.addSource 0),
    .core .applyInitialChanges, .core .next, .core .next, .core .enterWait,
    .returned [⟨⟨5, 1⟩, 1⟩, ⟨⟨5, 4⟩, 1⟩], .core .next, .closeSocket 5,
    .openSocket 5, .makeSource 1, .core (.removeSource 0),
    .core (.addSource 1), .core .applyInitialChanges] ++
      List.replicate 7 (Label.core .next)

theorem events_reach_registered_reopenInHandler :
    ∃ (state : State (LinuxBackend.epoll.backend : InterestBackend Nat)
        (Fin 2)) (batches : Batches (Fin 2) Nat),
      state.run.core.sources = [1] ∧
      batches.last.considered =
        [(⟨⟨5, 1⟩, 1⟩, some 0), (⟨⟨5, 4⟩, 1⟩, some 0)] ∧
      (batches.last.considered.map Prod.fst = batches.last.collected ∧
        ∀ collected source, (collected, some source) ∈
          batches.last.considered → source ∈ batches.last.registered) := by
  have run : ((observed sameDescriptor LinuxBackend.epoll.backend
      fun _ => 1).replay (initialState fun _ => 1, {}) reopenInHandler).map
        (fun found => (found.1.run.core.sources, found.1.run.point,
          found.2.last.considered)) =
        some ([1], .idle,
          [(⟨⟨5, 1⟩, 1⟩, some 0), (⟨⟨5, 4⟩, 1⟩, some 0)]) := by
    decide +kernel
  have begun : (observed sameDescriptor
      (LinuxBackend.epoll.backend : InterestBackend Nat) fun _ => 1).initial
        (initialState fun _ => 1, {}) := ⟨rfl, rfl⟩
  obtain ⟨⟨state, batches⟩, ends, found⟩ := Option.map_eq_some_iff.mp run
  simp only [Prod.mk.injEq] at found
  obtain ⟨sources, idle, considered⟩ := found
  obtain ⟨_, _, all, sound⟩ := events_reach_registered sameDescriptor
    (fun _ => 1) (System.Reachable.replay reopenInHandler (.start begun) ends)
  refine ⟨state, batches, sources, considered, all idle, ?_⟩
  intro collected source member
  exact (sound _ (by simp) collected source member).1

end Recycling

end RopHive.Schedule
