import Mathlib.Data.List.Induction
import RopHive.Schedule.Registry

namespace RopHive.Schedule

open Transition

/-! Sources of another type than the backend's.  `arm` and `disarm` refuse
them, but `sources_` takes them in. -/

theorem EventCore.filter_applyOp {Source : Type} [DecidableEq Source]
    (kept : Source → Bool) (sources : List Source) (op : PendingOp Source) :
    (applyOp sources op).filter kept =
      if kept op.source then applyOp (sources.filter kept) op
      else sources.filter kept := by
  cases op with
  | add source =>
      simp only [applyOp, PendingOp.source, List.mem_filter]
      split
      · next present => simp [present]
      · next absent =>
          split
          · next isKept => simp [absent, isKept]
          · next foreign => simp [foreign]
  | remove source =>
      simp only [applyOp, PendingOp.source, List.filter_filter]
      split
      · exact List.filter_congr fun other _ => Bool.and_comm ..
      · next foreign =>
          apply List.filter_congr
          intro other _
          by_cases same : other = source
          · subst same
            simp [foreign]
          · simp [same]

theorem EventCore.mem_foldl_applyOp {Source : Type} [DecidableEq Source]
    {sources : List Source} {source : Source}
    (ops : List (PendingOp Source)) :
    source ∈ ops.foldl applyOp sources ↔
      Present ops source ∨ lastOp ops source = none ∧ source ∈ sources := by
  induction ops using List.reverseRecOn with
  | nil => simp [lastOp]
  | append_singleton ops op ih =>
      rw [List.foldl_append, List.foldl_cons, List.foldl_nil, lastOp_concat]
      cases op with
      | add added =>
          rw [mem_applyOp_add, present_concat_add, ih]
          by_cases same : added = source
          · simp [same]
          · simp [PendingOp.source, same]
            tauto
      | remove removed =>
          rw [mem_applyOp_remove, present_concat_remove, ih]
          by_cases same : removed = source
          · simp [PendingOp.source, same]
          · simp [PendingOp.source, same, Ne.symm same]

section Erased

variable {Events : Type} {backend : InterestBackend Events} {Source : Type}
  (profile : Profile Source) (events : Source → Events)

namespace EventLoopCore

/-- The core without the sources of another type. -/
def erase (core : EventLoopCore backend Source) :
    EventLoopCore backend Source where
  sources := core.sources.filter (isSourceMatchBackend profile backend)
  pendingOps := core.pendingOps.filter fun op =>
    isSourceMatchBackend profile backend op.source
  inDispatch := core.inDispatch
  table := core.table
  state := fun source =>
    if isSourceMatchBackend profile backend source then core.state source
    else { events := events source }

variable (core : EventLoopCore backend Source) {source : Source}

theorem erase_push (op : PendingOp Source) :
    (core.push op).erase profile events =
      if isSourceMatchBackend profile backend op.source then
        (core.erase profile events).push op
      else core.erase profile events := by
  split
  · next kept => simp [push, erase, kept]
  · next foreign => simp [push, erase, foreign]

variable [DecidableEq Source]

theorem erase_setState_kept
    (kept : isSourceMatchBackend profile backend source = true)
    (fields : SourceState Events) :
    (core.setState source fields).erase profile events =
      (core.erase profile events).setState source fields := by
  have state : (fun other =>
      if isSourceMatchBackend profile backend other then
        Function.update core.state source fields other
      else { events := events other }) =
        Function.update (core.erase profile events).state source fields := by
    funext other
    by_cases same : other = source
    · subst same
      simp [kept]
    · simp [erase, same]
  simp only [erase, setState] at state ⊢
  rw [state]

theorem erase_setState_foreign
    (foreign : ¬ isSourceMatchBackend profile backend source)
    (fields : SourceState Events) :
    (core.setState source fields).erase profile events =
      core.erase profile events := by
  have state : (fun other =>
      if isSourceMatchBackend profile backend other then
        Function.update core.state source fields other
      else { events := events other }) =
        (core.erase profile events).state := by
    funext other
    by_cases same : other = source
    · subst same
      simp [erase, foreign]
    · simp [erase, same]
  simp only [erase, setState] at state ⊢
  rw [state]

theorem erase_setEvents (source : Source) (asked : Events) :
    (core.setEvents profile source asked).erase profile events =
      if isSourceMatchBackend profile backend source then
        (core.erase profile events).setEvents profile source asked
      else core.erase profile events := by
  split
  · next kept =>
      have fields : (core.erase profile events).state source =
          core.state source := if_pos kept
      unfold setEvents
      simp only [fields]
      split
      · rw [← erase_setState_kept profile events core kept]
        rfl
      · exact erase_setState_kept profile events core kept _
  · next foreign =>
      have unarmed : core.setEvents profile source asked =
          core.setState source { core.state source with events := asked } := by
        simp [setEvents, foreign]
      rw [unarmed, erase_setState_foreign profile events core foreign]

theorem erase_arm :
    (core.arm profile source).erase profile events =
      if isSourceMatchBackend profile backend source then
        (core.erase profile events).arm profile source
      else core.erase profile events := by
  unfold arm
  split
  · next foreign =>
      have isForeign : ¬ isSourceMatchBackend profile backend source := by
        simpa using foreign
      rw [if_neg isForeign]
  · next kept =>
      have isKept : isSourceMatchBackend profile backend source = true := by
        simpa using kept
      have fields : (core.erase profile events).state source =
          core.state source := if_pos isKept
      rw [if_pos isKept, fields]
      split
      · rfl
      · exact erase_setState_kept profile events _ isKept _

theorem erase_disarm :
    (core.disarm profile source).erase profile events =
      if isSourceMatchBackend profile backend source then
        (core.erase profile events).disarm profile source
      else core.erase profile events := by
  unfold disarm
  split
  · next foreign =>
      have isForeign : ¬ isSourceMatchBackend profile backend source := by
        simpa using foreign
      rw [if_neg isForeign]
  · next kept =>
      have isKept : isSourceMatchBackend profile backend source = true := by
        simpa using kept
      have fields : (core.erase profile events).state source =
          core.state source := if_pos isKept
      rw [if_pos isKept, fields]
      split
      · rfl
      · exact erase_setState_kept profile events _ isKept _

theorem erase_applyOp (op : PendingOp Source) :
    (core.applyOp profile op).erase profile events =
      if isSourceMatchBackend profile backend op.source then
        (core.erase profile events).applyOp profile op
      else core.erase profile events := by
  have sources := EventCore.filter_applyOp
    (isSourceMatchBackend profile backend) core.sources op
  cases op with
  | add source =>
      have erased : (core.applyOp profile (.add source)).erase profile events =
          { (core.arm profile source).erase profile events with
            sources := (EventCore.applyOp core.sources (.add source)).filter
              (isSourceMatchBackend profile backend) } := rfl
      by_cases kept : isSourceMatchBackend profile backend source = true
      · rw [erased, erase_arm, if_pos kept, sources.trans (if_pos kept)]
        exact (if_pos kept).symm
      · rw [erased, erase_arm, if_neg kept, sources.trans (if_neg kept)]
        exact (if_neg kept).symm
  | remove source =>
      have erased : (core.applyOp profile (.remove source)).erase profile
          events =
          { (core.disarm profile source).erase profile events with
            sources := (EventCore.applyOp core.sources
              (.remove source)).filter
                (isSourceMatchBackend profile backend) } := rfl
      by_cases kept : isSourceMatchBackend profile backend source = true
      · rw [erased, erase_disarm, if_pos kept, sources.trans (if_pos kept)]
        exact (if_pos kept).symm
      · rw [erased, erase_disarm, if_neg kept, sources.trans (if_neg kept)]
        exact (if_neg kept).symm

end EventLoopCore

namespace CoreRun

def Point.filter (kept : Source → Bool) :
    Point Source Events → Point Source Events
  | .idle => .idle
  | .waiting => .waiting
  | .dispatching snapshot rest => .dispatching (snapshot.filter kept) rest
  | .handling snapshot rest => .handling (snapshot.filter kept) rest
  | .applying ops => .applying (ops.filter fun op => kept op.source)

def State.erase (state : State backend Source) : State backend Source where
  core := state.core.erase profile events
  point := state.point.filter
    (EventLoopCore.isSourceMatchBackend profile backend)

/-- The raw events that the loop of `dispatchRawEvents` has come to, with the
source that each went to. -/
abbrev Dispatches (Source Events : Type) :=
  List (RawEvent Events × Option Source)

def Dispatches.observe (state : State backend Source)
    (label : Label Source Events) (_ : State backend Source)
    (log : Dispatches Source Events) : Dispatches Source Events :=
  match label, state.point with
  | .next, .dispatching snapshot (event :: _) =>
      log ++ [(event, snapshot.find? (profile.matches event))]
  | _, _ => log

def Label.Native (backend : InterestBackend Events) :
    Label Source Events → Prop
  | .addSource source | .removeSource source | .setEvents source _ =>
      EventLoopCore.isSourceMatchBackend profile backend source = true
  | _ => True

variable {profile events} {state after : State backend Source}

theorem erase_swapPending :
    state.swapPending.erase profile events =
      (state.erase profile events).swapPending := by
  unfold State.swapPending
  cases dispatched : state.core.inDispatch with
  | false => simp [State.erase, EventLoopCore.erase, Point.filter, dispatched]
  | true => simp [State.erase, EventLoopCore.erase, dispatched]

variable [DecidableEq Source]

/-- A call that names a source of another type changes nothing else, and every
other step goes as if there were no such sources. -/
theorem erase_step {label : Label Source Events}
    (clean : ∀ source ∈ state.point.snapshot,
      EventLoopCore.isSourceMatchBackend profile backend source = true)
    (stepped : state.step profile label = some after)
    (log : Dispatches Source Events) :
    (after.erase profile events, log.observe profile state label after) =
        (state.erase profile events, log) ∨
      label.Native profile backend ∧
        (state.erase profile events).step profile label =
          some (after.erase profile events) ∧
        log.observe profile (state.erase profile events) label
          (after.erase profile events) =
            log.observe profile state label after := by
  obtain ⟨core, point⟩ := state
  cases label with
  | addSource source =>
      cases stepped
      have erased := EventLoopCore.erase_push profile events core
        (.add source)
      split at erased
      · next kept =>
          refine .inr ⟨kept, ?_, rfl⟩
          simp only [State.erase, State.step, erased]
      · next foreign =>
          left
          simp only [State.erase, erased, Dispatches.observe]
  | removeSource source =>
      cases stepped
      have erased := EventLoopCore.erase_push profile events core
        (.remove source)
      split at erased
      · next kept =>
          refine .inr ⟨kept, ?_, rfl⟩
          simp only [State.erase, State.step, erased]
      · next foreign =>
          left
          simp only [State.erase, erased, Dispatches.observe]
  | setEvents source asked =>
      cases stepped
      have erased := EventLoopCore.erase_setEvents profile events core source
        asked
      split at erased
      · next kept =>
          refine .inr ⟨kept, ?_, rfl⟩
          simp only [State.erase, State.step, erased]
      · next foreign =>
          left
          simp only [State.erase, erased, Dispatches.observe]
  | applyInitialChanges =>
      cases point with
      | idle | handling =>
          cases stepped
          rw [erase_swapPending]
          exact .inr ⟨trivial, rfl, rfl⟩
      | _ => cases stepped
  | enterWait =>
      cases point with
      | idle =>
          cases stepped
          exact .inr ⟨trivial, rfl, rfl⟩
      | _ => cases stepped
  | returned collected =>
      cases point with
      | waiting =>
          cases stepped
          exact .inr ⟨trivial, rfl, rfl⟩
      | _ => cases stepped
  | next =>
      cases point with
      | idle | waiting => cases stepped
      | dispatching snapshot rest =>
          cases rest with
          | nil =>
              cases stepped
              rw [erase_swapPending]
              exact .inr ⟨trivial, rfl, rfl⟩
          | cons event rest =>
              have same := List.filter_eq_self.mpr clean
              have found : (snapshot.filter
                (EventLoopCore.isSourceMatchBackend profile backend)).find?
                  (profile.matches event) =
                    snapshot.find? (profile.matches event) :=
                congrArg (List.find? _) same
              right
              simp only [State.step, State.next] at stepped
              split at stepped
              · next source isFound =>
                  cases stepped
                  rw [isFound] at found
                  refine ⟨trivial, ?_, ?_⟩
                  · simp only [State.erase, Point.filter, State.step,
                      State.next, found]
                  · simp only [State.erase, Point.filter, Dispatches.observe,
                      found, isFound]
              · next isFound =>
                  cases stepped
                  rw [isFound] at found
                  refine ⟨trivial, ?_, ?_⟩
                  · simp only [State.erase, Point.filter, State.step,
                      State.next, found]
                  · simp only [State.erase, Point.filter, Dispatches.observe,
                      found, isFound]
      | handling snapshot rest =>
          cases stepped
          exact .inr ⟨trivial, rfl, rfl⟩
      | applying ops =>
          cases ops with
          | nil =>
              cases stepped
              exact .inr ⟨trivial, rfl, rfl⟩
          | cons op ops =>
              cases stepped
              have erased := EventLoopCore.erase_applyOp profile events
                core op
              let isKept (op : PendingOp Source) : Bool :=
                EventLoopCore.isSourceMatchBackend profile backend op.source
              split at erased
              · next kept =>
                  have isOps : (op :: ops).filter isKept =
                      op :: ops.filter isKept := List.filter_cons_of_pos kept
                  right
                  refine ⟨trivial, ?_, rfl⟩
                  simp only [State.erase, Point.filter, State.step, State.next,
                    isKept, erased] at isOps ⊢
                  rw [isOps]
              · next foreign =>
                  have isOps : (op :: ops).filter isKept = ops.filter isKept :=
                    List.filter_cons_of_neg foreign
                  left
                  simp only [State.erase, Point.filter, Dispatches.observe,
                    isKept, erased] at isOps ⊢
                  rw [isOps]

/-- `applyPendingChanges` takes the queue in this step. -/
def State.takes (state : State backend Source) :
    Label Source Events → Bool
  | .applyInitialChanges => !state.core.inDispatch
  | .next =>
      match state.point with
      | .dispatching _ [] => true
      | _ => false
  | _ => false

variable (profile) in
/-- Where the queue is taken, every source of another type in it has been
removed again behind its last `addSource`. -/
def State.Withdrawn (state : State backend Source)
    (label : Label Source Events) : Prop :=
  state.takes label → ∀ source,
    EventLoopCore.isSourceMatchBackend profile backend source = false →
      ¬ Present state.core.pendingOps source

instance [Fintype Source] (label : Label Source Events) :
    Decidable (state.Withdrawn profile label) :=
  inferInstanceAs (Decidable (_ → _))

/-- No source of another type is registered, is about to be, or has been
registered when the batch began. -/
structure Clean (profile : Profile Source) (state : State backend Source)
    (log : Dispatches Source Events) : Prop where
  sources : ∀ source ∈
    state.point.ops.foldl EventCore.applyOp state.core.sources,
      EventLoopCore.isSourceMatchBackend profile backend source = true
  snapshot : ∀ source ∈ state.point.snapshot,
    EventLoopCore.isSourceMatchBackend profile backend source = true
  log : ∀ event source, (event, some source) ∈ log →
    EventLoopCore.isSourceMatchBackend profile backend source = true

variable {log : Dispatches Source Events}

theorem Clean.swapPending (clean : Clean profile state log)
    (none : state.point.ops = [])
    (withdrawn : state.core.inDispatch = false → ∀ source,
      EventLoopCore.isSourceMatchBackend profile backend source = false →
        ¬ Present state.core.pendingOps source) :
    Clean profile state.swapPending log := by
  unfold State.swapPending
  split
  · exact clean
  · next outside =>
      refine ⟨?_, nofun, clean.log⟩
      intro source member
      obtain present | ⟨_, earlier⟩ :=
        (EventCore.mem_foldl_applyOp state.core.pendingOps).mp member
      · by_contra foreign
        exact withdrawn (by simpa using outside) source (by simpa using foreign)
          present
      · apply clean.sources
        rw [none]
        exact earlier

theorem Clean.step {label : Label Source Events}
    (clean : Clean profile state log)
    (withdrawn : state.Withdrawn profile label)
    (stepped : state.step profile label = some after) :
    Clean profile after (log.observe profile state label after) := by
  obtain ⟨core, point⟩ := state
  cases label with
  | addSource source | removeSource source =>
      cases stepped
      exact ⟨clean.sources, clean.snapshot, clean.log⟩
  | setEvents source asked =>
      cases stepped
      refine ⟨?_, clean.snapshot, clean.log⟩
      have sources := clean.sources
      simpa using sources
  | applyInitialChanges =>
      cases point with
      | idle | handling =>
          cases stepped
          apply clean.swapPending rfl
          intro outside
          exact withdrawn (by simpa [State.takes] using outside)
      | _ => cases stepped
  | enterWait =>
      cases point with
      | idle =>
          cases stepped
          exact ⟨clean.sources, List.forall_mem_nil _, clean.log⟩
      | _ => cases stepped
  | returned collected =>
      cases point with
      | waiting =>
          cases stepped
          exact ⟨clean.sources, clean.sources, clean.log⟩
      | _ => cases stepped
  | next =>
      cases point with
      | idle | waiting => cases stepped
      | dispatching snapshot rest =>
          cases rest with
          | nil =>
              cases stepped
              have finished : Clean profile ⟨{ core with
                  inDispatch := false }, .dispatching snapshot []⟩ log :=
                ⟨clean.sources, clean.snapshot, clean.log⟩
              exact finished.swapPending rfl fun _ => withdrawn rfl
          | cons event rest =>
              have logged (event' : RawEvent Events) (source : Source)
                  (member : (event', some source) ∈
                    log ++ [(event, snapshot.find? (profile.matches event))]) :
                  EventLoopCore.isSourceMatchBackend profile backend source =
                    true := by
                obtain before | isNew := List.mem_append.mp member
                · exact clean.log event' source before
                · obtain ⟨_, found⟩ := Prod.mk.inj (List.mem_singleton.mp isNew)
                  exact clean.snapshot source
                    (List.mem_of_find?_eq_some found.symm)
              simp only [State.step, State.next] at stepped
              split at stepped <;> cases stepped <;>
                exact ⟨clean.sources, clean.snapshot, logged⟩
      | handling snapshot rest =>
          cases stepped
          exact ⟨clean.sources, clean.snapshot, clean.log⟩
      | applying ops =>
          cases ops with
          | nil =>
              cases stepped
              exact ⟨clean.sources, List.forall_mem_nil _, clean.log⟩
          | cons op ops =>
              cases stepped
              refine ⟨?_, List.forall_mem_nil _, clean.log⟩
              have sources := clean.sources
              simpa [Point.ops] using sources

section Theorems

def dispatchObserved (profile : Profile Source)
    (backend : InterestBackend Events) (events : Source → Events) :
    System (State backend Source × Dispatches Source Events)
      (Label Source Events) :=
  (machine profile backend events).withHistory [] (Dispatches.observe profile)

variable (profile events) in
/-- What is promised of sources of another type: none is registered once the
changes are applied, none is matched against a raw event or handed one, and
the others behave as in a run without them. -/
structure Inert (state : State backend Source)
    (log : Dispatches Source Events) : Prop where
  dropped : state.point.ops = [] → ∀ source ∈ state.core.sources,
    EventLoopCore.isSourceMatchBackend profile backend source = true
  unmatched : ∀ source ∈ state.point.snapshot,
    EventLoopCore.isSourceMatchBackend profile backend source = true
  undispatched : ∀ event source, (event, some source) ∈ log →
    EventLoopCore.isSourceMatchBackend profile backend source = true
  absent : (dispatchObserved profile backend events).ReachableUnder
    (fun _ label => label.Native profile backend)
    (state.erase profile events, log)

theorem clean_of_reachableUnder {observed :
      State backend Source × Dispatches Source Events}
    (reached : (dispatchObserved profile backend events).ReachableUnder
      (fun observed label => observed.1.Withdrawn profile label) observed) :
    Clean profile observed.1 observed.2 := by
  apply System.withHistory_invariant (Clean profile) ?_ ?_ reached
  · intro state isInitial
    cases isInitial
    exact ⟨nofun, nofun, nofun⟩
  · intro state log label after clean withdrawn stepped
    exact clean.step withdrawn stepped

theorem foreign_inert_of_withdrawn
    (reached : (dispatchObserved profile backend events).ReachableUnder
      (fun observed label => observed.1.Withdrawn profile label)
      (state, log)) :
    Inert profile events state log := by
  have clean := clean_of_reachableUnder reached
  refine ⟨?_, clean.snapshot, clean.log, ?_⟩
  · intro done
    have sources := clean.sources
    rw [done] at sources
    exact sources
  · refine reached.image
      (fun observed => (observed.1.erase profile events, observed.2)) ?_ ?_
    · rintro ⟨state, log⟩ ⟨isInitial, rfl⟩
      cases isInitial
      refine ⟨?_, rfl⟩
      simp [initialState, machine, State.erase, EventLoopCore.erase,
        Point.filter]
    · rintro ⟨state, log⟩ label ⟨after, later⟩ earlier withdrawn stepped
      obtain ⟨moved, rfl⟩ := System.withHistory_step.mp stepped
      have clean := clean_of_reachableUnder earlier
      obtain same | ⟨native, followed, logged⟩ :=
        erase_step clean.snapshot moved log
      · exact .inl same
      · exact .inr ⟨label, native,
          System.withHistory_step.mpr ⟨followed, logged⟩⟩

theorem replay_applying (ops : List (PendingOp Source))
    (core : EventLoopCore backend Source) :
    (machine profile backend events).replay ⟨core, .applying ops⟩
        (List.replicate ops.length .next) =
      some ⟨ops.foldl (EventLoopCore.applyOp profile) core, .applying []⟩ := by
  induction ops generalizing core with
  | nil => rfl
  | cons op ops ih => exact ih (core.applyOp profile op)

/-- Where the condition fails, a source of another type is registered once the
changes are applied. -/
theorem registered_of_not_withdrawn {label : Label Source Events}
    (broken : ¬ state.Withdrawn profile label)
    (stepped : state.step profile label = some after) :
    ∃ last, (machine profile backend events).replay after
        (List.replicate state.core.pendingOps.length .next) = some last ∧
      last.point = .applying [] ∧ ∃ source ∈ last.core.sources,
        EventLoopCore.isSourceMatchBackend profile backend source = false := by
  simp only [State.Withdrawn, Classical.not_imp, not_forall, not_not] at broken
  obtain ⟨takes, source, foreign, present⟩ := broken
  obtain ⟨core, point⟩ := state
  have swapped : ∃ taken : EventLoopCore backend Source,
      after = ⟨taken, .applying core.pendingOps⟩ := by
    cases label with
    | applyInitialChanges =>
        have outside : core.inDispatch = false := by
          simpa [State.takes] using takes
        cases point with
        | idle | handling =>
            cases stepped
            exact ⟨_, if_neg (by simp [outside])⟩
        | _ => cases stepped
    | next =>
        cases point with
        | dispatching snapshot rest =>
            cases rest with
            | nil =>
                cases stepped
                exact ⟨_, rfl⟩
            | cons => cases takes
        | _ => cases takes
    | _ => cases takes
  obtain ⟨taken, rfl⟩ := swapped
  refine ⟨_, replay_applying _ taken, rfl, source, ?_, foreign⟩
  rw [EventLoopCore.toEventCore_foldl_applyOp]
  apply (EventCore.mem_foldl_applyOp core.pendingOps).mpr
  exact .inl present

end Theorems

end CoreRun

end Erased

namespace CoreRun

/-- A poll source and an epoll source of the same descriptor. -/
def mixedSources : Profile (Fin 2) where
  fd := fun _ => 5
  type := fun source => if source = 0 then .linuxPoll else .linuxEpoll

abbrev EpollState :=
  State (LinuxBackend.epoll.backend : InterestBackend Nat) (Fin 2)

/-- `attachSource`, called outside of the dispatch. -/
def attachAlone (source : Fin 2) : List (Label (Fin 2) Nat) :=
  [.addSource source, .applyInitialChanges, .next, .next]

def foreignFirst : List (Label (Fin 2) Nat) :=
  attachAlone 0 ++ attachAlone 1 ++
    [Label.enterWait, .returned [⟨5, 1⟩], .next]

theorem foreignFirst_not_inert :
    ∃ (state : EpollState) (log : Dispatches (Fin 2) Nat),
      (dispatchObserved mixedSources LinuxBackend.epoll.backend
        fun _ => 1).Reachable (state, log) ∧
      state.core.sources = [0, 1] ∧ log = [(⟨5, 1⟩, some 0)] ∧
      ¬ Inert mixedSources (fun _ => 1) state log := by
  have run : ((dispatchObserved mixedSources LinuxBackend.epoll.backend
      fun _ => 1).replay (initialState fun _ => 1, []) foreignFirst).map
        (fun observed => (observed.1.core.sources, observed.2)) =
      some ([0, 1], [(⟨5, 1⟩, some 0)]) := by
    decide +kernel
  have begun : (dispatchObserved mixedSources
      (LinuxBackend.epoll.backend : InterestBackend Nat) fun _ => 1).initial
        (initialState fun _ => 1, []) := ⟨rfl, rfl⟩
  obtain ⟨⟨state, log⟩, ends, found⟩ := Option.map_eq_some_iff.mp run
  simp only [Prod.mk.injEq] at found
  obtain ⟨sources, isLog⟩ := found
  refine ⟨state, log, System.Reachable.replay foreignFirst (.start begun) ends,
    sources, isLog, ?_⟩
  intro inert
  have native := inert.undispatched ⟨5, 1⟩ 0 (by simp [isLog])
  revert native
  decide

/-- The poll source is removed again before the changes are applied, also in
the handler. -/
def foreignWithdrawn : List (Label (Fin 2) Nat) :=
  ([.addSource 0, .addSource 1, .removeSource 0, .applyInitialChanges] :
    List (Label (Fin 2) Nat)) ++ List.replicate 4 Label.next ++
      ([.enterWait, .returned [⟨5, 1⟩], .next, .addSource 0, .removeSource 0,
        .next, .next] : List (Label (Fin 2) Nat))

theorem foreign_inert_of_withdrawn_foreignWithdrawn :
    ∃ (state : EpollState) (log : Dispatches (Fin 2) Nat),
      log = [(⟨5, 1⟩, some 1)] ∧
      Inert mixedSources (fun _ => 1) state log := by
  have begun : (dispatchObserved mixedSources
      (LinuxBackend.epoll.backend : InterestBackend Nat) fun _ => 1).initial
        (initialState fun _ => 1, []) := ⟨rfl, rfl⟩
  have run : ((dispatchObserved mixedSources
      (LinuxBackend.epoll.backend : InterestBackend Nat) fun _ => 1).replay
        (initialState fun _ => 1, []) foreignWithdrawn).map
          (fun observed => observed.2) = some [(⟨5, 1⟩, some 1)] := by
    decide +kernel
  obtain ⟨⟨state, log⟩, ends, isLog⟩ := Option.map_eq_some_iff.mp run
  refine ⟨state, log, isLog, foreign_inert_of_withdrawn ?_⟩
  exact System.ReachableUnder.replay foreignWithdrawn (.start begun)
    (by decide +kernel) ends

end CoreRun

end RopHive.Schedule
