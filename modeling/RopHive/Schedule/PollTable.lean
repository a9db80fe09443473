import Mathlib.Data.List.Induction
import RopHive.Data.KeyedVector
import RopHive.Schedule.InterestBackend

namespace RopHive.Schedule

/-! The table that `PollBackend` hands to `poll`, and the one that
`Win32Backend` hands to `MsgWaitForMultipleObjectsEx`. -/

structure PollFd where
  fd : Int
  events : BitVec 16
  revents : BitVec 16
  deriving DecidableEq, Repr

/-- `pollfds_` and `fd_index_`. -/
abbrev PollTable := KeyedVector Int PollFd

inductive InterestCall (Events : Type) where
  | registerFd (fd : Int) (events : Events)
  | unregisterFd (fd : Int)
  deriving DecidableEq, Repr

namespace InterestCall

variable {Events : Type}

def fd : InterestCall Events → Int
  | registerFd fd _ => fd
  | unregisterFd fd => fd

/-- The last call for the descriptor is one that registers it. -/
def LastRegistered (calls : List (InterestCall Events)) (fd : Int)
    (events : Events) : Prop :=
  ∃ earlier later,
    calls = earlier ++ InterestCall.registerFd fd events :: later ∧
    ∀ call ∈ later, call.fd ≠ fd

theorem lastRegistered_concat {calls : List (InterestCall Events)}
    {call : InterestCall Events} {fd : Int} {events : Events} :
    LastRegistered (calls ++ [call]) fd events ↔
      call = .registerFd fd events ∨
        call.fd ≠ fd ∧ LastRegistered calls fd events := by
  constructor
  · intro ⟨earlier, later, split, others⟩
    obtain rfl | ⟨initial, last, rfl⟩ := later.eq_nil_or_concat
    · obtain ⟨_, isLast⟩ := List.append_inj' split rfl
      exact .inl (List.singleton_inj.mp isLast)
    · rw [List.concat_eq_append] at split others
      rw [← List.cons_append, ← List.append_assoc] at split
      obtain ⟨rfl, isLast⟩ := List.append_inj' split rfl
      cases isLast
      exact .inr ⟨others _ (by simp), earlier, initial, rfl,
        fun call member => others call (by simp [member])⟩
  · rintro (rfl | ⟨other, earlier, later, rfl, others⟩)
    · exact ⟨calls, [], rfl, nofun⟩
    · refine ⟨earlier, later ++ [call], by simp, ?_⟩
      intro call' member
      obtain inside | isLast := List.mem_append.mp member
      · exact others call' inside
      · rwa [List.mem_singleton.mp isLast]

end InterestCall

namespace InterestBackend

variable {Events : Type} (backend : InterestBackend Events)

def call (table : backend.Table) : InterestCall Events → backend.Table
  | .registerFd fd events => backend.registerFd table fd events
  | .unregisterFd fd => backend.unregisterFd table fd

def after (calls : List (InterestCall Events)) : backend.Table :=
  calls.foldl backend.call backend.empty

theorem after_concat (calls : List (InterestCall Events))
    (call : InterestCall Events) :
    backend.after (calls ++ [call]) =
      backend.call (backend.after calls) call := by
  rw [after, List.foldl_append]
  rfl

theorem interest_after {calls : List (InterestCall Events)} {fd : Int}
    {events : Events} :
    backend.interest (backend.after calls) fd = some events ↔
      InterestCall.LastRegistered calls fd events := by
  induction calls using List.reverseRecOn with
  | nil =>
      constructor
      · intro found
        exact nomatch (backend.interest_empty fd).symm.trans found
      · intro ⟨earlier, later, split, _⟩
        simp at split
  | append_singleton calls last ih =>
      rw [after_concat, InterestCall.lastRegistered_concat, ← ih]
      cases last with
      | registerFd other registered =>
          rw [call, backend.interest_registerFd]
          by_cases same : fd = other
          · simp [same, InterestCall.fd]
          · simp [same, InterestCall.fd, Ne.symm same]
      | unregisterFd other =>
          rw [call, backend.interest_unregisterFd]
          by_cases same : fd = other
          · simp [same, InterestCall.fd]
          · simp [same, InterestCall.fd, Ne.symm same]

end InterestBackend

namespace PollTable

def registerFd (table : PollTable) (fd : Int) (events : BitVec 16) :
    PollTable :=
  match table.index fd with
  | some place => table.rewrite place fun pfd => { pfd with events := events }
  | none => table.append fd ⟨fd, events, 0⟩

def unregisterFd (table : PollTable) (fd : Int) : PollTable :=
  table.erase PollFd.fd fd

def call (table : PollTable) : InterestCall (BitVec 16) → PollTable
  | .registerFd fd events => table.registerFd fd events
  | .unregisterFd fd => table.unregisterFd fd

def after (calls : List (InterestCall (BitVec 16))) : PollTable :=
  calls.foldl call .empty

def interest (pfd : PollFd) : Int × BitVec 16 := (pfd.fd, pfd.events)

variable {table : PollTable} {backend : PollBackend (BitVec 16)}

theorem represents_registerFd (represents : table.Represents interest backend)
    (fd : Int) (events : BitVec 16) :
    (table.registerFd fd events).Represents interest
      (backend.registerFd fd events) := by
  unfold registerFd
  split
  · next place found => exact represents.rewrite found fun _ => rfl
  · next absent => exact represents.append absent rfl

theorem represents_call (represents : table.Represents interest backend)
    (call : InterestCall (BitVec 16)) :
    (table.call call).Represents interest
      (LinuxBackend.poll.backend.call backend call) := by
  cases call with
  | registerFd fd events => exact represents_registerFd represents fd events
  | unregisterFd fd => exact represents.erase fd

/-- The code's table is the finite map that sources see. -/
theorem represents_after (calls : List (InterestCall (BitVec 16))) :
    (after calls).Represents interest
      (LinuxBackend.poll.backend.after calls) := by
  induction calls using List.reverseRecOn with
  | nil => exact KeyedVector.represents_empty interest
  | append_singleton calls last ih =>
      rw [after, List.foldl_append, InterestBackend.after_concat]
      exact represents_call ih last

theorem agrees_after (calls : List (InterestCall (BitVec 16))) :
    (after calls).Agrees PollFd.fd :=
  (represents_after calls).agrees

end PollTable

/-- `handles_` and `handle_index_`; a `HANDLE` is its address. -/
abbrev HandleTable := KeyedVector Nat Nat

inductive HandleCall where
  | registerHandle (h : Nat)
  | unregisterHandle (h : Nat)
  deriving DecidableEq, Repr

namespace HandleTable

def registerHandle (table : HandleTable) (h : Nat) : HandleTable :=
  if h = 0 then table
  else
    match table.index h with
    | some _ => table
    | none => table.append h h

def unregisterHandle (table : HandleTable) (h : Nat) : HandleTable :=
  table.erase id h

def call (table : HandleTable) : HandleCall → HandleTable
  | .registerHandle h => table.registerHandle h
  | .unregisterHandle h => table.unregisterHandle h

def after (calls : List HandleCall) : HandleTable :=
  calls.foldl call .empty

theorem agrees_call {table : HandleTable} (agrees : table.Agrees id)
    (call : HandleCall) : (table.call call).Agrees id := by
  cases call with
  | unregisterHandle h => exact agrees.erase h
  | registerHandle h =>
      change (table.registerHandle h).Agrees id
      unfold registerHandle
      split
      · exact agrees
      · split
        · exact agrees
        · next absent => exact (agrees.represents.append absent rfl).agrees

theorem agrees_after (calls : List HandleCall) :
    (after calls).Agrees id := by
  induction calls using List.reverseRecOn with
  | nil => exact (KeyedVector.represents_empty fun h => (h, h)).agrees
  | append_singleton calls last ih =>
      rw [after, List.foldl_append]
      exact agrees_call ih last

end HandleTable

namespace HandleCall

/-- The handle was registered and not unregistered since; a null handle is
refused. -/
def Registered (calls : List HandleCall) (h : Nat) : Prop :=
  h ≠ 0 ∧ ∃ earlier later,
    calls = earlier ++ HandleCall.registerHandle h :: later ∧
    HandleCall.unregisterHandle h ∉ later

theorem registered_concat {calls : List HandleCall} {call : HandleCall}
    {h : Nat} :
    Registered (calls ++ [call]) h ↔
      h ≠ 0 ∧ call = .registerHandle h ∨
        call ≠ .unregisterHandle h ∧ Registered calls h := by
  constructor
  · intro ⟨nonzero, earlier, later, split, kept⟩
    obtain rfl | ⟨initial, last, rfl⟩ := later.eq_nil_or_concat
    · obtain ⟨_, isLast⟩ := List.append_inj' split rfl
      exact .inl ⟨nonzero, List.singleton_inj.mp isLast⟩
    · rw [List.concat_eq_append] at split kept
      rw [← List.cons_append, ← List.append_assoc] at split
      obtain ⟨rfl, isLast⟩ := List.append_inj' split rfl
      cases isLast
      simp only [List.mem_append, List.mem_singleton, not_or] at kept
      exact .inr ⟨Ne.symm kept.2, nonzero, earlier, initial, rfl, kept.1⟩
  · rintro (⟨nonzero, rfl⟩ | ⟨other, nonzero, earlier, later, rfl, kept⟩)
    · exact ⟨nonzero, calls, [], rfl, List.not_mem_nil⟩
    · exact ⟨nonzero, earlier, later ++ [call], by simp,
        by simp [kept, Ne.symm other]⟩

end HandleCall

namespace HandleTable

theorem mem_registerHandle {table : HandleTable} (agrees : table.Agrees id)
    {h other : Nat} :
    other ∈ (table.registerHandle h).records ↔
      other ≠ 0 ∧ h = other ∨ other ∈ table.records := by
  unfold registerHandle
  split
  · next null =>
      constructor
      · exact .inr
      · rintro (⟨nonzero, rfl⟩ | member)
        · exact absurd null nonzero
        · exact member
  · next nonzero =>
      split
      · next place found =>
          have present : h ∈ table.records := by
            obtain ⟨inside, isHandle⟩ :=
              agrees.represents.index_eq_some_iff.mp found
            exact isHandle ▸ List.getElem_mem inside
          constructor
          · exact .inr
          · rintro (⟨-, rfl⟩ | member)
            · exact present
            · exact member
      · simp only [KeyedVector.append, List.mem_append, List.mem_singleton]
        constructor
        · rintro (member | rfl)
          · exact .inr member
          · exact .inl ⟨nonzero, rfl⟩
        · rintro (⟨-, rfl⟩ | member)
          · exact .inr rfl
          · exact .inl member

/-- Whatever the order of the calls, the table holds what was registered
last. -/
theorem mem_after {calls : List HandleCall} {h : Nat} :
    h ∈ (after calls).records ↔ HandleCall.Registered calls h := by
  induction calls using List.reverseRecOn with
  | nil =>
      constructor
      · intro member
        cases member
      · intro ⟨_, earlier, later, split, _⟩
        simp at split
  | append_singleton calls last ih =>
      have agrees := agrees_after calls
      rw [HandleCall.registered_concat, ← ih, after, List.foldl_append]
      cases last with
      | registerHandle other =>
          refine (mem_registerHandle agrees).trans ?_
          simp [after]
      | unregisterHandle other =>
          refine (agrees.mem_erase other h).trans ?_
          simp [after, and_comm, eq_comm]

end HandleTable

/-- In both tables, after any calls, the index and the array are inverse to
each other. -/
theorem tables_bijective :
    (∀ calls : List (InterestCall (BitVec 16)),
      let table := PollTable.after calls
      (∀ fd place, table.index fd = some place ↔
        ∃ inside : place < table.records.length,
          table.records[place].fd = fd) ∧
      (table.records.map PollFd.fd).Nodup ∧
      (∀ fd events,
        (∃ pfd ∈ table.records, pfd.fd = fd ∧ pfd.events = events) ↔
          InterestCall.LastRegistered calls fd events) ∧
      ∀ fd pfd, pfd ∈ (table.unregisterFd fd).records ↔
        pfd ∈ table.records ∧ pfd.fd ≠ fd) ∧
    ∀ calls : List HandleCall,
      let table := HandleTable.after calls
      (∀ h place, table.index h = some place ↔
        ∃ inside : place < table.records.length, table.records[place] = h) ∧
      table.records.Nodup ∧
      (∀ h, h ∈ table.records ↔ HandleCall.Registered calls h) ∧
      ∀ h other, other ∈ (table.unregisterHandle h).records ↔
        other ∈ table.records ∧ other ≠ h := by
  constructor
  · intro calls
    have represents := PollTable.represents_after calls
    refine ⟨fun fd place => represents.index_eq_some_iff,
      represents.nodup_keys, fun fd events => ?_,
      (PollTable.agrees_after calls).mem_erase⟩
    rw [← LinuxBackend.poll.backend.interest_after]
    refine Iff.trans ?_ represents.lookup_eq_some_iff.symm
    simp [PollTable.interest]
  · intro calls
    have agrees := HandleTable.agrees_after calls
    refine ⟨fun h place => agrees.represents.index_eq_some_iff, ?_,
      fun _ => HandleTable.mem_after, agrees.mem_erase⟩
    have distinct := agrees.represents.nodup_keys
    simpa using distinct

end RopHive.Schedule
