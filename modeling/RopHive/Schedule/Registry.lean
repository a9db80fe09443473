import Mathlib.Data.Fintype.Basic
import Mathlib.Data.List.Infix
import RopHive.Schedule.EventLoopCore

namespace RopHive.Schedule

open Transition

/-! The four places that hold a registration: `sources_`, the flags and events
of each source, the table of the backend, and the operations still queued. -/

section Operations

variable {Source : Type} [DecidableEq Source]

def lastOp (ops : List (PendingOp Source)) (source : Source) :
    Option (PendingOp Source) :=
  ops.reverse.find? fun op => op.source = source

def Present (ops : List (PendingOp Source)) (source : Source) : Prop :=
  lastOp ops source = some (.add source)

/-- At every prefix two different present sources differ in their
descriptor. -/
def DistinctFds (profile : Profile Source) (ops : List (PendingOp Source)) :
    Prop :=
  ∀ earlier, earlier <+: ops → ∀ first second, Present earlier first →
    Present earlier second → profile.fd first = profile.fd second →
      first = second

@[simp] theorem not_present_nil (source : Source) : ¬ Present [] source :=
  nofun

theorem lastOp_concat (ops : List (PendingOp Source))
    (op : PendingOp Source) (source : Source) :
    lastOp (ops ++ [op]) source =
      if op.source = source then some op else lastOp ops source := by
  unfold lastOp
  rw [List.reverse_append, List.reverse_singleton, List.singleton_append,
    List.find?_cons]
  by_cases same : op.source = source <;> simp [same]

theorem lastOp_mem {ops : List (PendingOp Source)} {source : Source}
    {op : PendingOp Source} (last : lastOp ops source = some op) : op ∈ ops :=
  List.mem_reverse.mp (List.mem_of_find?_eq_some last)

@[simp] theorem present_concat_add (ops : List (PendingOp Source))
    (added source : Source) :
    Present (ops ++ [PendingOp.add added]) source ↔
      source = added ∨ Present ops source := by
  unfold Present
  rw [lastOp_concat]
  by_cases same : added = source
  · subst same
    simp [PendingOp.source]
  · simp [PendingOp.source, same, Ne.symm same]

@[simp] theorem present_concat_remove (ops : List (PendingOp Source))
    (removed source : Source) :
    Present (ops ++ [PendingOp.remove removed]) source ↔
      source ≠ removed ∧ Present ops source := by
  unfold Present
  rw [lastOp_concat]
  by_cases same : removed = source
  · subst same
    simp [PendingOp.source]
  · simp [PendingOp.source, same, Ne.symm same]

theorem DistinctFds.of_prefix {profile : Profile Source}
    {earlier ops : List (PendingOp Source)} (distinct : DistinctFds profile ops)
    (before : earlier <+: ops) : DistinctFds profile earlier :=
  fun first isPrefix => distinct first (isPrefix.trans before)

theorem distinctFds_iff_inits {profile : Profile Source}
    {ops : List (PendingOp Source)} :
    DistinctFds profile ops ↔
      ∀ earlier ∈ ops.inits, ∀ first second, Present earlier first →
        Present earlier second → profile.fd first = profile.fd second →
          first = second := by
  simp only [DistinctFds, List.mem_inits]

instance (ops : List (PendingOp Source)) (source : Source) :
    Decidable (Present ops source) :=
  inferInstanceAs (Decidable (lastOp ops source = _))

instance [Fintype Source] (profile : Profile Source)
    (ops : List (PendingOp Source)) : Decidable (DistinctFds profile ops) :=
  decidable_of_iff' _ distinctFds_iff_inits

end Operations

section Registered

variable {Events : Type} {backend : InterestBackend Events} {Source : Type}
  [DecidableEq Source] {profile : Profile Source}

/-- The places agree with each other and with the operations applied. -/
structure Registered (profile : Profile Source)
    (core : EventLoopCore backend Source)
    (applied : List (PendingOp Source)) : Prop where
  nodup : core.sources.Nodup
  mem_iff : ∀ source, source ∈ core.sources ↔
    lastOp applied source = some (.add source)
  armed_iff : ∀ source,
    (core.state source).armed = true ↔ source ∈ core.sources
  bound : ∀ source, (core.state source).armed = true →
    (core.state source).backend = true
  interest_iff : ∀ fd events,
    backend.interest core.table fd = some events ↔
      ∃ source ∈ core.sources, profile.fd source = fd ∧
        (core.state source).events = events

variable {core : EventLoopCore backend Source}
  {applied : List (PendingOp Source)}

theorem Registered.fd_unique (registered : Registered profile core applied)
    (distinct : DistinctFds profile applied) {first second : Source}
    (isFirst : first ∈ core.sources) (isSecond : second ∈ core.sources)
    (same : profile.fd first = profile.fd second) : first = second :=
  distinct applied (List.prefix_refl _) first second
    ((registered.mem_iff first).mp isFirst)
    ((registered.mem_iff second).mp isSecond) same

theorem Registered.setEvents (registered : Registered profile core applied)
    (distinct : DistinctFds profile applied)
    (source : Source)
    (type : source ∈ core.sources → profile.type source = backend.type)
    (events : Events) :
    Registered profile (core.setEvents profile source events) applied := by
  have state (other : Source) :
      (core.setEvents profile source events).state other =
        if other = source then { core.state source with events }
        else core.state other := EventLoopCore.state_setEvents events other
  refine ⟨?_, ?_, ?_, ?_, ?_⟩
  · simpa using registered.nodup
  · simpa using registered.mem_iff
  · intro other
    rw [state, EventLoopCore.toEventCore_setEvents, ← registered.armed_iff]
    split
    · next same => rw [same]
    · rfl
  · intro other
    rw [state]
    split
    · exact registered.bound source
    · exact registered.bound other
  · intro fd asked
    simp only [EventLoopCore.toEventCore_setEvents]
    by_cases armed : (core.state source).armed
    · have present := (registered.armed_iff source).mp armed
      have table : (core.setEvents profile source events).table =
          backend.registerFd core.table (profile.fd source) events := by
        simp [EventLoopCore.setEvents, armed, registered.bound source armed,
          EventLoopCore.isSourceMatchBackend, type present]
      rw [table, backend.interest_registerFd]
      split
      · next isFd =>
          constructor
          · rintro ⟨⟩
            exact ⟨source, present, isFd.symm, by rw [state, if_pos rfl]⟩
          · rintro ⟨other, member, sameFd, rfl⟩
            have same := registered.fd_unique distinct member present
              (sameFd.trans isFd)
            rw [state, if_pos same]
      · next otherFd =>
          rw [registered.interest_iff]
          apply exists_congr
          intro other
          apply and_congr_right
          intro member
          apply and_congr_right
          intro sameFd
          have apart : other ≠ source := by
            rintro rfl
            exact otherFd sameFd.symm
          rw [state, if_neg apart]
    · have absent : source ∉ core.sources :=
        fun member => armed ((registered.armed_iff source).mpr member)
      have table : (core.setEvents profile source events).table =
          core.table := by
        simp [EventLoopCore.setEvents, armed, EventLoopCore.setState]
      rw [table, registered.interest_iff]
      apply exists_congr
      intro other
      apply and_congr_right
      intro member
      have apart : other ≠ source := by
        rintro rfl
        exact absent member
      rw [state, if_neg apart]

theorem Registered.add (registered : Registered profile core applied)
    {source : Source} (type : profile.type source = backend.type)
    (distinct : DistinctFds profile (applied ++ [PendingOp.add source])) :
    Registered profile (core.applyOp profile (.add source))
      (applied ++ [PendingOp.add source]) := by
  have matching : EventLoopCore.isSourceMatchBackend profile backend source =
      true := by
    simp [EventLoopCore.isSourceMatchBackend, type]
  have mem_iff (other : Source) :
      other ∈ (core.applyOp profile (.add source)).sources ↔
        lastOp (applied ++ [PendingOp.add source]) other =
          some (.add other) := by
    have split := present_concat_add applied source other
    rw [Present] at split
    rw [split, EventLoopCore.sources_applyOp, EventCore.mem_applyOp_add,
      registered.mem_iff, Present]
  by_cases armed : (core.state source).armed
  · have present := (registered.armed_iff source).mp armed
    have sources : EventCore.applyOp core.sources (.add source) =
        core.sources := if_pos present
    have same : core.applyOp profile (.add source) = core := by
      simp [EventLoopCore.applyOp, EventLoopCore.arm, armed, sources]
    rw [same] at mem_iff ⊢
    exact ⟨registered.nodup, mem_iff, registered.armed_iff,
      registered.bound, registered.interest_iff⟩
  · have absent : source ∉ core.sources :=
      fun member => armed ((registered.armed_iff source).mpr member)
    have sources : EventCore.applyOp core.sources (.add source) =
        core.sources ++ [source] := if_neg absent
    have state (other : Source) :
        (core.applyOp profile (.add source)).state other =
          if other = source then
            { core.state source with armed := true, backend := true }
          else core.state other := by
      simp [EventLoopCore.applyOp, EventLoopCore.arm, armed, matching,
        EventLoopCore.setState, Function.update_apply]
    have table : (core.applyOp profile (.add source)).table =
        backend.registerFd core.table (profile.fd source)
          (core.state source).events := by
      simp [EventLoopCore.applyOp, EventLoopCore.arm, armed, matching,
        EventLoopCore.setState]
    refine ⟨?_, mem_iff, ?_, ?_, ?_⟩
    · rw [EventLoopCore.sources_applyOp, sources]
      rw [List.nodup_append]
      refine ⟨registered.nodup, List.pairwise_singleton _ _, ?_⟩
      rintro other member _ isNew rfl
      rw [List.mem_singleton.mp isNew] at member
      exact absent member
    · intro other
      rw [EventLoopCore.sources_applyOp, EventCore.mem_applyOp_add, state,
        ← registered.armed_iff]
      split
      · next same => simp [same]
      · next apart => simp [apart]
    · intro other
      rw [state]
      split
      · simp
      · exact registered.bound other
    · intro fd asked
      rw [table, backend.interest_registerFd, EventLoopCore.sources_applyOp,
        sources]
      split
      · next isFd =>
          constructor
          · rintro ⟨⟩
            exact ⟨source, by simp, isFd.symm, by rw [state, if_pos rfl]⟩
          · rintro ⟨other, member, sameFd, rfl⟩
            have same : other = source := by
              apply distinct _ (List.prefix_refl _) other source
              · rw [Present, ← mem_iff, EventLoopCore.sources_applyOp, sources]
                exact member
              · simp
              · exact sameFd.trans isFd
            rw [state, if_pos same]
      · next otherFd =>
          rw [registered.interest_iff]
          constructor
          · rintro ⟨other, member, sameFd, rfl⟩
            have apart : other ≠ source := by
              rintro rfl
              exact absent member
            exact ⟨other, by simp [member], sameFd, by rw [state, if_neg apart]⟩
          · rintro ⟨other, member, rfl, rfl⟩
            have apart : other ≠ source := by
              rintro rfl
              exact otherFd rfl
            refine ⟨other, ?_, rfl, by rw [state, if_neg apart]⟩
            simpa [apart] using member

theorem Registered.remove (registered : Registered profile core applied)
    {source : Source} (type : profile.type source = backend.type)
    (distinct : DistinctFds profile applied) :
    Registered profile (core.applyOp profile (.remove source))
      (applied ++ [PendingOp.remove source]) := by
  have matching : EventLoopCore.isSourceMatchBackend profile backend source =
      true := by
    simp [EventLoopCore.isSourceMatchBackend, type]
  have mem_iff (other : Source) :
      other ∈ (core.applyOp profile (.remove source)).sources ↔
        lastOp (applied ++ [PendingOp.remove source]) other =
          some (.add other) := by
    have split := present_concat_remove applied source other
    rw [Present] at split
    rw [split, EventLoopCore.sources_applyOp, EventCore.mem_applyOp_remove,
      registered.mem_iff, Present]
  have nodup : (core.applyOp profile (.remove source)).sources.Nodup := by
    rw [EventLoopCore.sources_applyOp]
    exact registered.nodup.filter _
  by_cases armed : (core.state source).armed
  · have present := (registered.armed_iff source).mp armed
    have state (other : Source) :
        (core.applyOp profile (.remove source)).state other =
          if other = source then
            { core.state source with armed := false, backend := false }
          else core.state other := by
      simp [EventLoopCore.applyOp, EventLoopCore.disarm, armed, matching,
        EventLoopCore.setState, Function.update_apply]
    have table : (core.applyOp profile (.remove source)).table =
        backend.unregisterFd core.table (profile.fd source) := by
      simp [EventLoopCore.applyOp, EventLoopCore.disarm, armed, matching,
        EventLoopCore.setState]
    refine ⟨nodup, mem_iff, ?_, ?_, ?_⟩
    · intro other
      rw [EventLoopCore.sources_applyOp, EventCore.mem_applyOp_remove, state,
        ← registered.armed_iff]
      split
      · next same => simp [same]
      · next apart => simp [apart]
    · intro other
      rw [state]
      split
      · simp
      · exact registered.bound other
    · intro fd asked
      rw [table, backend.interest_unregisterFd, EventLoopCore.sources_applyOp]
      split
      · next isFd =>
          simp only [reduceCtorEq, false_iff]
          rintro ⟨other, member, sameFd, _⟩
          obtain ⟨apart, kept⟩ := EventCore.mem_applyOp_remove .. |>.mp member
          exact apart (registered.fd_unique distinct kept present
            (sameFd.trans isFd))
      · next otherFd =>
          rw [registered.interest_iff]
          apply exists_congr
          intro other
          rw [EventCore.mem_applyOp_remove]
          constructor
          · rintro ⟨member, rfl, rfl⟩
            have apart : other ≠ source := by
              rintro rfl
              exact otherFd rfl
            exact ⟨⟨apart, member⟩, rfl, by rw [state, if_neg apart]⟩
          · rintro ⟨⟨apart, member⟩, rfl, rfl⟩
            exact ⟨member, rfl, by rw [state, if_neg apart]⟩
  · have absent : source ∉ core.sources :=
      fun member => armed ((registered.armed_iff source).mpr member)
    have sources : EventCore.applyOp core.sources (.remove source) =
        core.sources := by
      apply List.filter_eq_self.mpr
      intro other member
      have apart : other ≠ source := by
        rintro rfl
        exact absent member
      simpa using apart
    have same : core.applyOp profile (.remove source) = core := by
      simp [EventLoopCore.applyOp, EventLoopCore.disarm, armed, sources]
    rw [same] at mem_iff ⊢
    exact ⟨registered.nodup, mem_iff, registered.armed_iff,
      registered.bound, registered.interest_iff⟩

theorem Registered.applyOp (registered : Registered profile core applied)
    {op : PendingOp Source} (type : profile.type op.source = backend.type)
    (distinct : DistinctFds profile (applied ++ [op])) :
    Registered profile (core.applyOp profile op) (applied ++ [op]) := by
  cases op with
  | add source => exact registered.add type distinct
  | remove source =>
      exact registered.remove type
        (distinct.of_prefix (List.prefix_append _ _))

end Registered

namespace CoreRun

section Queued

variable {Events : Type} {backend : InterestBackend Events} {Source : Type}

/-- All operations queued so far, and those queued when
`applyPendingChanges` last took the queue. -/
structure Queued (Source : Type) where
  all : List (PendingOp Source) := []
  taken : List (PendingOp Source) := []
  deriving DecidableEq, Repr

namespace Queued

def push (queued : Queued Source) (op : PendingOp Source) : Queued Source :=
  { queued with
    all := queued.all ++ [op] }

def take (queued : Queued Source) (inDispatch : Bool) : Queued Source :=
  if inDispatch then queued
  else
    { queued with
      taken := queued.all }

def observe (state : State backend Source) (label : Label Source Events)
    (_ : State backend Source) (queued : Queued Source) : Queued Source :=
  match label, state.point with
  | .addSource source, _ => queued.push (.add source)
  | .removeSource source, _ => queued.push (.remove source)
  | .applyInitialChanges, _ => queued.take state.core.inDispatch
  | .next, .dispatching _ [] => queued.take false
  | _, _ => queued

variable [DecidableEq Source]

/-- All sources have the type of the backend, and no two present ones the
same descriptor. -/
structure Regular (profile : Profile Source) (type : BackendType)
    (ops : List (PendingOp Source)) : Prop where
  type : ∀ op ∈ ops, profile.type op.source = type
  distinct : DistinctFds profile ops

theorem Regular.of_prefix {profile : Profile Source} {type : BackendType}
    {earlier ops : List (PendingOp Source)} (regular : Regular profile type ops)
    (before : earlier <+: ops) : Regular profile type earlier where
  type := fun op member => regular.type op (before.subset member)
  distinct := regular.distinct.of_prefix before

end Queued

variable [DecidableEq Source] {profile : Profile Source}

/-- The queue of the core is the end of what was queued, and the places agree
on what has been applied of the rest. -/
structure Agrees (profile : Profile Source) (state : State backend Source)
    (queued : Queued Source) : Prop where
  waiting : queued.all = queued.taken ++ state.core.pendingOps
  registered : Queued.Regular profile backend.type queued.all →
    ∃ applied, queued.taken = applied ++ state.point.ops ∧
      Registered profile state.core applied

variable {state : State backend Source} {queued : Queued Source}

theorem Agrees.initial (events : Source → Events) :
    Agrees profile (initialState events : State backend Source) {} where
  waiting := rfl
  registered := by
    intro _
    refine ⟨[], rfl, .nil, ?_, ?_, ?_, ?_⟩
    · simp [initialState, lastOp]
    · simp [initialState]
    · simp [initialState]
    · simp [initialState, backend.interest_empty]

theorem Agrees.push (agrees : Agrees profile state queued)
    (op : PendingOp Source) :
    Agrees profile
      { state with
        core := state.core.push op } (queued.push op) where
  waiting := by
    simp [Queued.push, EventLoopCore.push, agrees.waiting]
  registered := by
    intro regular
    obtain ⟨applied, taken, registered⟩ :=
      agrees.registered (regular.of_prefix (List.prefix_append _ _))
    exact ⟨applied, taken, registered.nodup, registered.mem_iff,
      registered.armed_iff, registered.bound, registered.interest_iff⟩

theorem Agrees.setEvents (agrees : Agrees profile state queued)
    (source : Source) (events : Events) :
    Agrees profile
      { state with
        core := state.core.setEvents profile source events } queued where
  waiting := by simpa using agrees.waiting
  registered := by
    intro regular
    obtain ⟨applied, taken, registered⟩ := agrees.registered regular
    have before : applied <+: queued.all := by
      rw [agrees.waiting, taken, List.append_assoc]
      exact List.prefix_append _ _
    refine ⟨applied, taken, ?_⟩
    apply registered.setEvents (regular.of_prefix before).distinct
    intro member
    have added := lastOp_mem ((registered.mem_iff source).mp member)
    exact (regular.of_prefix before).type _ added

theorem Agrees.swapPending (agrees : Agrees profile state queued)
    (none : state.point.ops = []) :
    Agrees profile state.swapPending (queued.take state.core.inDispatch) := by
  unfold State.swapPending Queued.take
  split
  · exact agrees
  · refine ⟨by simp, ?_⟩
    intro regular
    obtain ⟨applied, taken, registered⟩ := agrees.registered regular
    rw [none, List.append_nil] at taken
    refine ⟨applied, ?_, registered.nodup, registered.mem_iff,
      registered.armed_iff, registered.bound, registered.interest_iff⟩
    rw [← taken]
    exact agrees.waiting

theorem Agrees.applyOp {core : EventLoopCore backend Source}
    {op : PendingOp Source} {ops : List (PendingOp Source)}
    (agrees : Agrees profile ⟨core, .applying (op :: ops)⟩ queued) :
    Agrees profile ⟨core.applyOp profile op, .applying ops⟩ queued where
  waiting := by
    simpa using agrees.waiting
  registered := by
    intro regular
    obtain ⟨applied, taken, registered⟩ := agrees.registered regular
    have more : queued.taken = (applied ++ [op]) ++ ops := by
      simpa [Point.ops] using taken
    have before : applied ++ [op] <+: queued.all := by
      rw [agrees.waiting, more, List.append_assoc]
      exact List.prefix_append _ _
    have earlier := regular.of_prefix before
    exact ⟨applied ++ [op], more,
      registered.applyOp (earlier.type op (by simp)) earlier.distinct⟩

theorem Agrees.move (agrees : Agrees profile state queued)
    {inDispatch : Bool} {point : Point Source Events}
    (same : point.ops = state.point.ops) :
    Agrees profile
      ⟨{ state.core with
        inDispatch := inDispatch }, point⟩ queued where
  waiting := agrees.waiting
  registered := by
    intro regular
    obtain ⟨applied, taken, registered⟩ := agrees.registered regular
    exact ⟨applied, taken.trans (by rw [same]), registered.nodup,
      registered.mem_iff, registered.armed_iff, registered.bound,
      registered.interest_iff⟩

theorem Agrees.step (agrees : Agrees profile state queued)
    (label : Label Source Events) (after : State backend Source)
    (stepped : state.step profile label = some after) :
    Agrees profile after (Queued.observe state label after queued) := by
  obtain ⟨core, point⟩ := state
  cases label with
  | addSource source =>
      cases stepped
      exact agrees.push _
  | removeSource source =>
      cases stepped
      exact agrees.push _
  | setEvents source events =>
      cases stepped
      exact agrees.setEvents source events
  | applyInitialChanges =>
      cases point with
      | idle | handling =>
          cases stepped
          exact agrees.swapPending rfl
      | _ => cases stepped
  | enterWait =>
      cases point with
      | idle =>
          cases stepped
          exact agrees.move rfl
      | _ => cases stepped
  | returned events =>
      cases point with
      | waiting =>
          cases stepped
          exact agrees.move rfl
      | _ => cases stepped
  | next =>
      cases point with
      | idle | waiting => cases stepped
      | dispatching snapshot rest =>
          cases rest with
          | nil =>
              cases stepped
              exact (agrees.move rfl).swapPending rfl
          | cons event rest =>
              simp only [State.step, State.next] at stepped
              split at stepped <;> cases stepped <;> exact agrees.move rfl
      | handling snapshot rest =>
          cases stepped
          exact agrees.move rfl
      | applying ops =>
          cases ops with
          | nil =>
              cases stepped
              exact agrees.move rfl
          | cons op ops =>
              cases stepped
              exact agrees.applyOp

end Queued

section Theorems

variable {Events Source : Type} [DecidableEq Events] [DecidableEq Source]

/-- When no operation is left to apply, the places agree with the operations
that the last `applyPendingChanges` took. -/
theorem registry_agrees (kind : LinuxBackend) (profile : Profile Source)
    (events : Source → Events)
    {state : State (kind.backend : InterestBackend Events) Source}
    {queued : Queued Source}
    (reached : ((machine profile kind.backend events).withHistory {}
      Queued.observe).Reachable (state, queued))
    (type : ∀ op ∈ queued.all,
      profile.type op.source = (kind.backend : InterestBackend Events).type)
    (distinct : DistinctFds profile queued.all)
    (done : state.point.ops = []) :
    queued.all = queued.taken ++ state.core.pendingOps ∧
      Registered profile state.core queued.taken := by
  have agrees : Agrees profile state queued := by
    apply System.withHistory_invariant (Agrees profile) ?_ ?_ reached
    · rintro _ rfl
      exact .initial events
    · intro state queued label after agrees _ stepped
      exact agrees.step label after stepped
  obtain ⟨applied, taken, registered⟩ := agrees.registered ⟨type, distinct⟩
  rw [done, List.append_nil] at taken
  rw [taken]
  exact ⟨taken ▸ agrees.waiting, registered⟩

end Theorems

def threeSources : Profile (Fin 3) where
  fd := fun source => if source = 1 then 6 else 5
  type := fun _ => .linuxPoll

def reuseWithinBatch : List (Label (Fin 3) Nat) :=
  ([.addSource 0, .addSource 1, .addSource 0, .applyInitialChanges] :
    List (Label (Fin 3) Nat)) ++ List.replicate 4 Label.next ++
      ([.setEvents 1 4, .enterWait, .returned [⟨5, 1⟩], .next,
        .removeSource 0, .removeSource 0, .addSource 2,
        .applyInitialChanges] : List (Label (Fin 3) Nat)) ++
          List.replicate 5 Label.next ++ [Label.setEvents 2 3]

def reuseOps : List (PendingOp (Fin 3)) :=
  [.add 0, .add 1, .add 0, .remove 0, .remove 0, .add 2]

theorem registry_agrees_reuseWithinBatch :
    ∃ state : State (LinuxBackend.poll.backend : InterestBackend Nat)
        (Fin 3),
      state.core.sources = [1, 2] ∧
      Registered threeSources state.core reuseOps := by
  have run : (((machine threeSources LinuxBackend.poll.backend
      fun _ => 1).withHistory {} Queued.observe).replay
        (initialState fun _ => 1, {}) reuseWithinBatch).map (fun observed =>
          (observed.1.core.sources, observed.1.point, observed.2.all,
            observed.2.taken)) =
        some ([1, 2], .applying [], reuseOps, reuseOps) := by
    decide +kernel
  have begun : ((machine threeSources
      (LinuxBackend.poll.backend : InterestBackend Nat) fun _ => 1).withHistory
        {} Queued.observe).initial (initialState fun _ => 1, {}) := ⟨rfl, rfl⟩
  obtain ⟨⟨state, queued⟩, ends, found⟩ := Option.map_eq_some_iff.mp run
  simp only [Prod.mk.injEq] at found
  obtain ⟨sources, point, all, taken⟩ := found
  obtain ⟨_, registered⟩ := registry_agrees .poll threeSources (fun _ => 1)
    (System.Reachable.replay reuseWithinBatch (.start begun) ends)
    (fun _ _ => rfl) (by rw [all]; decide +kernel) (by rw [point]; rfl)
  exact ⟨state, sources, taken ▸ registered⟩

end CoreRun

end RopHive.Schedule
