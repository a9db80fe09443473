import Mathlib.Tactic.Common

namespace RopHive.Schedule

variable {Source : Type}

inductive PendingOp (Source : Type) where
  | add (source : Source)
  | remove (source : Source)
  deriving DecidableEq, Repr

def PendingOp.source : PendingOp Source → Source
  | .add source | .remove source => source

/-- The part of `IEventLoopCore` that handlers can change: registrations made
while a batch is dispatched wait in `pendingOps`. -/
structure EventCore (Source : Type) where
  sources : List Source := []
  pendingOps : List (PendingOp Source) := []
  inDispatch : Bool := false
  deriving DecidableEq, Repr

namespace EventCore

variable [DecidableEq Source]

/-- One round of the loop of `applyPendingChanges`. -/
def applyOp (sources : List Source) : PendingOp Source → List Source
  | .add source => if source ∈ sources then sources else sources ++ [source]
  | .remove source => sources.filter (· ≠ source)

/-- What `sources_` becomes when the pending changes are applied. -/
def upcoming (core : EventCore Source) : List Source :=
  core.pendingOps.foldl applyOp core.sources

def applyPendingChanges (core : EventCore Source) : EventCore Source :=
  if core.inDispatch then core
  else { core with sources := core.upcoming, pendingOps := [] }

def addSource (core : EventCore Source) (source : Source) :
    EventCore Source :=
  { core with pendingOps := core.pendingOps ++ [.add source] }

def removeSource (core : EventCore Source) (source : Source) :
    EventCore Source :=
  { core with pendingOps := core.pendingOps ++ [.remove source] }

/-- `IOWorker::attachSource`. -/
def attachSource (core : EventCore Source) (source : Source) :
    EventCore Source :=
  (core.addSource source).applyPendingChanges

/-- `IOWorker::detachSource`. -/
def detachSource (core : EventCore Source) (source : Source) :
    EventCore Source :=
  (core.removeSource source).applyPendingChanges

@[simp] theorem mem_applyOp_add (sources : List Source)
    (source other : Source) :
    other ∈ applyOp sources (.add source) ↔
      other = source ∨ other ∈ sources := by
  simp only [applyOp]
  split
  · next present =>
      constructor
      · exact .inr
      · rintro (rfl | member)
        · exact present
        · exact member
  · simp [or_comm]

@[simp] theorem mem_applyOp_remove (sources : List Source)
    (source other : Source) :
    other ∈ applyOp sources (.remove source) ↔
      other ≠ source ∧ other ∈ sources := by
  simp [applyOp, and_comm]

@[simp] theorem upcoming_applyPendingChanges (core : EventCore Source) :
    core.applyPendingChanges.upcoming = core.upcoming := by
  unfold applyPendingChanges
  split <;> simp [upcoming]

@[simp] theorem inDispatch_applyPendingChanges (core : EventCore Source) :
    core.applyPendingChanges.inDispatch = core.inDispatch := by
  unfold applyPendingChanges
  split <;> rfl

theorem mem_upcoming_attachSource (core : EventCore Source)
    (source other : Source) :
    other ∈ (core.attachSource source).upcoming ↔
      other = source ∨ other ∈ core.upcoming := by
  rw [attachSource, upcoming_applyPendingChanges]
  simp [addSource, upcoming]

theorem mem_upcoming_detachSource (core : EventCore Source)
    (source other : Source) :
    other ∈ (core.detachSource source).upcoming ↔
      other ≠ source ∧ other ∈ core.upcoming := by
  rw [detachSource, upcoming_applyPendingChanges]
  simp [removeSource, upcoming]

theorem mem_upcoming_of_mem_sources {core : EventCore Source}
    {source : Source} (member : source ∈ core.sources)
    (kept : .remove source ∉ core.pendingOps) : source ∈ core.upcoming := by
  unfold upcoming
  revert member kept
  generalize core.sources = sources
  induction core.pendingOps generalizing sources with
  | nil => simp
  | cons op ops ih =>
      intro member kept
      simp only [List.mem_cons, not_or] at kept
      apply ih _ _ kept.2
      cases op with
      | add other => simp [member]
      | remove other =>
          have different : source ≠ other := fun same => by
            simp [same] at kept
          simp [member, different]

theorem mem_sources_or_add_mem_of_mem_upcoming {core : EventCore Source}
    {source : Source} (member : source ∈ core.upcoming) :
    source ∈ core.sources ∨ .add source ∈ core.pendingOps := by
  unfold upcoming at member
  revert member
  generalize core.sources = sources
  induction core.pendingOps generalizing sources with
  | nil => exact .inl
  | cons op ops ih =>
      intro member
      cases ih _ member with
      | inr queued => exact .inr (List.mem_cons_of_mem _ queued)
      | inl kept =>
          cases op with
          | add other =>
              rw [mem_applyOp_add] at kept
              cases kept with
              | inl same => exact .inr (by simp [same])
              | inr present => exact .inl present
          | remove other =>
              rw [mem_applyOp_remove] at kept
              exact .inl kept.2

/-- While a batch is dispatched `sources_` stays as the snapshot has it. -/
theorem sources_attachSource {core : EventCore Source}
    (dispatching : core.inDispatch = true) (source : Source) :
    (core.attachSource source).sources = core.sources := by
  simp [attachSource, addSource, applyPendingChanges, dispatching]

theorem sources_detachSource {core : EventCore Source}
    (dispatching : core.inDispatch = true) (source : Source) :
    (core.detachSource source).sources = core.sources := by
  simp [detachSource, removeSource, applyPendingChanges, dispatching]

end EventCore

end RopHive.Schedule
