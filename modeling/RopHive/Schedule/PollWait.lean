import Mathlib.Data.List.Nodup
import RopHive.Schedule.PollTable

namespace RopHive.Schedule

/-! `PollBackend::wait` as it is built with `ROPUI_DEBUG`, where it discards
invalid descriptors while it scans the table. -/

structure PollRawEvent where
  fd : Int
  revents : BitVec 16
  deriving DecidableEq, Repr

def pollNval : BitVec 16 := 0x020

namespace PollFd

def reported (pfd : PollFd) : Bool := pfd.revents ≠ 0

def invalid (pfd : PollFd) : Bool := pfd.revents &&& pollNval ≠ 0

def event (pfd : PollFd) : PollRawEvent := ⟨pfd.fd, pfd.revents⟩

theorem reported_of_invalid {pfd : PollFd} (invalid : pfd.invalid = true) :
    pfd.reported = true := by
  apply decide_eq_true
  intro nothing
  simp [PollFd.invalid, nothing] at invalid

theorem valid_of_idle {pfd : PollFd} (idle : pfd.reported = false) :
    pfd.invalid = false := by
  by_contra isInvalid
  rw [reported_of_invalid (by simpa using isInvalid)] at idle
  cases idle

end PollFd

namespace PollTable

/-- The scan with `left` slots of its range to go.  It has no outcome when it
reads a slot at or beyond `pollfds_.size()`. -/
def scan (ret : Nat) : Nat → Nat → Nat → PollTable → List PollRawEvent →
    Option (PollTable × List PollRawEvent)
  | 0, _, _, table, ready => some (table, ready)
  | left + 1, place, numFound, table, ready => do
      let pfd ← table.records[place]?
      if pfd.reported then
        let table := if pfd.invalid then table.unregisterFd pfd.fd else table
        -- The reference is to the slot, whatever stands there by now.
        let pfd ← table.records[place]?
        let ready := ready ++ [pfd.event]
        if ret ≤ numFound + 1 then some (table, ready)
        else scan ret left (place + 1) (numFound + 1) table ready
      else scan ret left (place + 1) numFound table ready

def polled (table : PollTable) (revents : Nat → BitVec 16) : PollTable :=
  { table with
    records := table.records.mapIdx fun place pfd =>
      { pfd with revents := revents place } }

/-- `poll` has returned the number of entries with `revents`. -/
def collect (table : PollTable) : Option (PollTable × List PollRawEvent) :=
  let ret := table.records.countP PollFd.reported
  if ret = 0 then some (table, [])
  else scan ret table.records.length 0 0 table []

def wait (table : PollTable) (revents : Nat → BitVec 16) :
    Option (PollTable × List PollRawEvent) :=
  (table.polled revents).collect

theorem agrees_polled {table : PollTable} (agrees : table.Agrees PollFd.fd)
    (revents : Nat → BitVec 16) :
    (table.polled revents).Agrees PollFd.fd := by
  intro fd place
  rw [show (table.polled revents).index = table.index from rfl,
    agrees fd place, polled, List.getElem?_mapIdx, Option.map_map]
  rfl

section Steps

variable {table : PollTable} {passed rest : List PollFd} {pfd last : PollFd}
  {ret left found : Nat} {ready : List PollRawEvent}

theorem records_unregister (agrees : table.Agrees PollFd.fd)
    (records : table.records = passed ++ pfd :: (rest ++ [last])) :
    (table.unregisterFd pfd.fd).records = passed ++ last :: rest := by
  have isLast : table.records.getLast? = some last := by
    rw [records, ← List.cons_append, ← List.append_assoc,
      List.getLast?_concat]
  have erased := @KeyedVector.Agrees.records_erase _ _ table _ _ agrees
    passed.length pfd last (by simp [records]) isLast
  rw [unregisterFd, erased, records, List.set_append_right _ _ (by simp)]
  rw [Nat.sub_self, List.set_cons_zero, ← List.cons_append,
    ← List.append_assoc, List.dropLast_concat]

theorem records_unregister_last (agrees : table.Agrees PollFd.fd)
    (records : table.records = passed ++ [pfd]) :
    (table.unregisterFd pfd.fd).records = passed := by
  have erased := @KeyedVector.Agrees.records_erase _ _ table _ _ agrees
    passed.length pfd pfd (by simp [records]) (by simp [records])
  rw [unregisterFd, erased, records]
  simp

theorem scan_outside (records : table.records = passed) :
    scan ret (left + 1) passed.length found table ready = none := by
  simp [scan, records]

theorem scan_idle (records : table.records = passed ++ pfd :: rest)
    (idle : pfd.reported = false) :
    scan ret (left + 1) passed.length found table ready =
      scan ret left (passed ++ [pfd]).length found table ready := by
  simp [scan, records, idle]

theorem scan_valid (records : table.records = passed ++ pfd :: rest)
    (reported : pfd.reported = true) (valid : pfd.invalid = false) :
    scan ret (left + 1) passed.length found table ready =
      if ret ≤ found + 1 then some (table, ready ++ [pfd.event])
      else scan ret left (passed ++ [pfd]).length (found + 1) table
        (ready ++ [pfd.event]) := by
  simp [scan, records, reported, valid]

theorem scan_invalid (agrees : table.Agrees PollFd.fd)
    (records : table.records = passed ++ pfd :: (rest ++ [last]))
    (invalid : pfd.invalid = true) :
    scan ret (left + 1) passed.length found table ready =
      if ret ≤ found + 1 then
        some (table.unregisterFd pfd.fd, ready ++ [last.event])
      else scan ret left (passed ++ [last]).length (found + 1)
        (table.unregisterFd pfd.fd) (ready ++ [last.event]) := by
  have reported := PollFd.reported_of_invalid invalid
  have removed := records_unregister agrees records
  simp [scan, records, reported, invalid, removed]

theorem scan_invalid_last (agrees : table.Agrees PollFd.fd)
    (records : table.records = passed ++ [pfd])
    (invalid : pfd.invalid = true) :
    scan ret (left + 1) passed.length found table ready = none := by
  have reported := PollFd.reported_of_invalid invalid
  have removed := records_unregister_last agrees records
  simp [scan, records, reported, invalid, removed]

theorem idle_of_countP (none : rest.countP PollFd.reported = 0) :
    ∀ pfd ∈ rest, pfd.reported = false := by
  simpa using List.countP_eq_zero.mp none

theorem fresh_of_agrees (agrees : table.Agrees PollFd.fd)
    (records : table.records = passed ++ pfd :: rest) :
    ∀ other ∈ rest, other.fd ≠ pfd.fd := by
  have distinct : (table.records.map PollFd.fd).Nodup :=
    agrees.represents.nodup_keys
  rw [records, List.map_append, List.map_cons] at distinct
  intro other inside same
  obtain ⟨absent, _⟩ := List.nodup_cons.mp (List.nodup_append.mp distinct).2.1
  exact absent (same ▸ List.mem_map_of_mem inside)

theorem scan_eq_none (agrees : table.Agrees PollFd.fd)
    (records : table.records = passed ++ rest)
    (missing : found + rest.countP PollFd.reported < ret)
    (shrunk : rest.length < left) :
    scan ret left passed.length found table ready = none := by
  induction left generalizing table passed rest found ready with
  | zero => cases shrunk
  | succ left ih =>
      cases rest with
      | nil => exact scan_outside (by simpa using records)
      | cons pfd rest =>
          have onward : table.records = (passed ++ [pfd]) ++ rest := by
            simpa using records
          rw [List.countP_cons] at missing
          rw [List.length_cons] at shrunk
          cases isReported : pfd.reported with
          | false =>
              rw [scan_idle records isReported]
              exact ih agrees onward (by omega) (by omega)
          | true =>
              rw [if_pos isReported] at missing
              cases isInvalid : pfd.invalid with
              | false =>
                  rw [scan_valid records isReported isInvalid,
                    if_neg (by omega)]
                  exact ih agrees onward (by omega) (by omega)
              | true =>
                  obtain rfl | ⟨rest, last, rfl⟩ := rest.eq_nil_or_concat'
                  · exact scan_invalid_last agrees records isInvalid
                  · rw [List.countP_append] at missing
                    rw [List.length_append, List.length_singleton] at shrunk
                    have removed :
                        (table.unregisterFd pfd.fd).records =
                          (passed ++ [last]) ++ rest := by
                      simpa using records_unregister agrees records
                    rw [scan_invalid agrees records isInvalid,
                      if_neg (by omega)]
                    exact ih (agrees.erase pfd.fd) removed (by omega)
                      (by omega)

end Steps

/-- As many entries at the end have no `revents` as there are invalid ones to
be filled up with them. -/
def IdleTail (entries : List PollFd) : Prop :=
  ∀ pfd ∈ entries.reverse.take (entries.countP PollFd.invalid),
    pfd.reported = false

instance (entries : List PollFd) : Decidable (IdleTail entries) :=
  inferInstanceAs (Decidable (∀ pfd ∈ _, _))

section IdleTails

variable {pfd last : PollFd} {rest : List PollFd}

theorem idleTail_of_valid (valid : ∀ pfd ∈ rest, pfd.invalid = false) :
    IdleTail rest := by
  have none : rest.countP PollFd.invalid = 0 :=
    List.countP_eq_zero.mpr fun pfd member => by simp [valid pfd member]
  simp [IdleTail, none]

theorem idleTail_cons (valid : pfd.invalid = false) :
    IdleTail (pfd :: rest) ↔ IdleTail rest := by
  have within : rest.countP PollFd.invalid ≤ rest.reverse.length := by
    simpa using List.countP_le_length
  rw [IdleTail, List.countP_cons_of_neg (by simp [valid]), List.reverse_cons,
    List.take_append_of_le_length within]
  rfl

theorem not_idleTail_singleton (invalid : pfd.invalid = true) :
    ¬ IdleTail [pfd] := by
  simp [IdleTail, invalid, PollFd.reported_of_invalid]

theorem idleTail_cons_concat (invalid : pfd.invalid = true) :
    IdleTail (pfd :: (rest ++ [last])) ↔
      last.reported = false ∧ IdleTail rest := by
  have within : rest.countP PollFd.invalid ≤ rest.reverse.length := by
    simpa using List.countP_le_length
  rw [IdleTail, List.countP_cons_of_pos invalid, List.countP_append,
    List.reverse_cons, List.reverse_append, List.reverse_singleton,
    List.singleton_append, List.cons_append, List.take_succ_cons,
    List.forall_mem_cons]
  apply and_congr_right
  intro idle
  have valid := PollFd.valid_of_idle idle
  rw [List.countP_singleton, if_neg (by simp [valid]), Nat.add_zero,
    List.take_append_of_le_length within]
  rfl

end IdleTails

/-- What a scan over the entries `rest` of a table does. -/
structure Reports (table : PollTable) (rest : List PollFd)
    (after : PollTable) (events : List PollRawEvent) : Prop where
  once : ∀ pfd ∈ rest, pfd.reported = true → pfd.invalid = false →
    events.filter (fun event => event.fd = pfd.fd) = [pfd.event]
  own : ∀ event ∈ events, ∃ pfd ∈ rest, pfd.invalid = false ∧
    event = pfd.event
  only : (∀ pfd ∈ rest, pfd.invalid = false) →
    ∀ event ∈ events, ∃ pfd ∈ rest, pfd.reported = true ∧ event = pfd.event
  filler : ∀ pfd ∈ rest, pfd.invalid = true →
    ∃ event ∈ events, event.revents = 0
  remain : ∀ pfd, pfd ∈ after.records ↔
    pfd ∈ table.records ∧ ¬ (pfd ∈ rest ∧ pfd.invalid = true)

section Reporting

variable {table after : PollTable} {passed rest : List PollFd}
  {pfd last : PollFd} {events : List PollRawEvent}

theorem Reports.nothing (valid : ∀ pfd ∈ rest, pfd.reported = false) :
    Reports table rest table [] where
  once := fun pfd member reported _ => by
    rw [valid pfd member] at reported
    cases reported
  own := nofun
  only := fun _ => nofun
  filler := fun pfd member invalid => by
    have reported := PollFd.reported_of_invalid invalid
    rw [valid pfd member] at reported
    cases reported
  remain := fun pfd => by
    refine ⟨fun member => ⟨member, fun ⟨inside, invalid⟩ => ?_⟩, And.left⟩
    have reported := PollFd.reported_of_invalid invalid
    rw [valid pfd inside] at reported
    cases reported

theorem Reports.idle (reports : Reports table rest after events)
    (idle : pfd.reported = false) :
    Reports table (pfd :: rest) after events where
  once := by
    rw [List.forall_mem_cons]
    refine ⟨fun reported => ?_, reports.once⟩
    rw [idle] at reported
    cases reported
  own := fun event member => by
    obtain ⟨source, inside, rest⟩ := reports.own event member
    exact ⟨source, .tail _ inside, rest⟩
  only := fun valid event member => by
    obtain ⟨source, inside, rest⟩ :=
      reports.only (List.forall_mem_cons.mp valid).2 event member
    exact ⟨source, .tail _ inside, rest⟩
  filler := by
    rw [List.forall_mem_cons]
    refine ⟨fun invalid => ?_, reports.filler⟩
    rw [PollFd.reported_of_invalid invalid] at idle
    cases idle
  remain := fun other => by
    rw [reports.remain other, List.mem_cons]
    apply and_congr_right
    intro _
    apply not_congr
    refine ⟨fun ⟨inside, invalid⟩ => ⟨.inr inside, invalid⟩, ?_⟩
    rintro ⟨rfl | inside, invalid⟩
    · rw [PollFd.reported_of_invalid invalid] at idle
      cases idle
    · exact ⟨inside, invalid⟩

theorem filter_event_ne (reports : Reports table rest after events)
    (fresh : ∀ other ∈ rest, other.fd ≠ pfd.fd) :
    events.filter (fun event => event.fd = pfd.fd) = [] := by
  rw [List.filter_eq_nil_iff]
  intro event member
  obtain ⟨source, inside, _, rfl⟩ := reports.own event member
  exact fun same => fresh source inside (of_decide_eq_true same)

theorem Reports.valid (reports : Reports table rest after events)
    (fresh : ∀ other ∈ rest, other.fd ≠ pfd.fd)
    (reported : pfd.reported = true) (valid : pfd.invalid = false) :
    Reports table (pfd :: rest) after (pfd.event :: events) where
  once := by
    rw [List.forall_mem_cons]
    constructor
    · intro _ _
      rw [List.filter_cons_of_pos (by simp [PollFd.event]),
        filter_event_ne reports fresh]
    · intro other inside reported isValid
      rw [List.filter_cons_of_neg]
      · exact reports.once other inside reported isValid
      · exact fun same => fresh other inside (of_decide_eq_true same).symm
  own := by
    rw [List.forall_mem_cons]
    refine ⟨⟨pfd, .head _, valid, rfl⟩, fun event member => ?_⟩
    obtain ⟨source, inside, rest⟩ := reports.own event member
    exact ⟨source, .tail _ inside, rest⟩
  only := by
    intro allValid
    rw [List.forall_mem_cons]
    refine ⟨⟨pfd, .head _, reported, rfl⟩, fun event member => ?_⟩
    obtain ⟨source, inside, rest⟩ :=
      reports.only (List.forall_mem_cons.mp allValid).2 event member
    exact ⟨source, .tail _ inside, rest⟩
  filler := by
    rw [List.forall_mem_cons]
    constructor
    · intro invalid
      rw [valid] at invalid
      cases invalid
    · intro other inside invalid
      obtain ⟨event, member, isZero⟩ := reports.filler other inside invalid
      exact ⟨event, .tail _ member, isZero⟩
  remain := fun other => by
    rw [reports.remain other, List.mem_cons]
    apply and_congr_right
    intro _
    apply not_congr
    refine ⟨fun ⟨inside, invalid⟩ => ⟨.inr inside, invalid⟩, ?_⟩
    rintro ⟨rfl | inside, invalid⟩
    · rw [valid] at invalid
      cases invalid
    · exact ⟨inside, invalid⟩

theorem Reports.discard (agrees : table.Agrees PollFd.fd)
    (records : table.records = passed ++ pfd :: (rest ++ [last]))
    (reports : Reports (table.unregisterFd pfd.fd) rest after events)
    (invalid : pfd.invalid = true) (idle : last.reported = false) :
    Reports table (pfd :: (rest ++ [last])) after (last.event :: events) := by
  have validLast := PollFd.valid_of_idle idle
  have distinct : (table.records.map PollFd.fd).Nodup :=
    agrees.represents.nodup_keys
  have unique (other : PollFd) (member : other ∈ table.records)
      (same : other.fd = pfd.fd) : other = pfd :=
    List.inj_on_of_nodup_map distinct member (by simp [records]) same
  rw [records] at distinct
  have apart : ∀ other ∈ rest, last.fd ≠ other.fd := by
    intro other inside same
    simp only [List.map_append, List.map_cons, List.map_nil,
      List.nodup_append, List.nodup_cons] at distinct
    exact distinct.2.1.2.2.2 _ (List.mem_map_of_mem inside) _ (.head _)
      same.symm
  have members (other : PollFd) :
      other ∈ pfd :: (rest ++ [last]) ↔
        other = pfd ∨ other ∈ rest ∨ other = last := by
    simp
  constructor
  · intro other member reported valid
    obtain rfl | inside | rfl := (members other).mp member
    · rw [invalid] at valid
      cases valid
    · rw [List.filter_cons_of_neg]
      · exact reports.once other inside reported valid
      · exact fun same => apart other inside (of_decide_eq_true same)
    · rw [idle] at reported
      cases reported
  · rw [List.forall_mem_cons]
    refine ⟨⟨last, by simp, validLast, rfl⟩, fun event member => ?_⟩
    obtain ⟨source, inside, rest⟩ := reports.own event member
    exact ⟨source, by simp [inside], rest⟩
  · intro allValid
    rw [allValid pfd (.head _)] at invalid
    cases invalid
  · intro _ _ _
    have nothing : last.revents = 0 := by
      simpa [PollFd.reported] using idle
    exact ⟨last.event, .head _, nothing⟩
  · intro other
    rw [reports.remain other, unregisterFd, agrees.mem_erase, members]
    constructor
    · rintro ⟨⟨member, otherFd⟩, kept⟩
      refine ⟨member, ?_⟩
      rintro ⟨rfl | inside | rfl, isInvalid⟩
      · exact otherFd rfl
      · exact kept ⟨inside, isInvalid⟩
      · rw [validLast] at isInvalid
        cases isInvalid
    · rintro ⟨member, kept⟩
      refine ⟨⟨member, fun same => ?_⟩, fun ⟨inside, isInvalid⟩ => ?_⟩
      · obtain rfl := unique other member same
        exact kept ⟨.inl rfl, invalid⟩
      · exact kept ⟨.inr (.inl inside), isInvalid⟩

end Reporting

/-- The scan reads inside the table exactly if it finds idle entries to fill
up with, and then reports what it should. -/
def Scanned (table : PollTable) (rest : List PollFd)
    (ready : List PollRawEvent)
    (result : Option (PollTable × List PollRawEvent)) : Prop :=
  IdleTail rest ∧ (∃ after events, result = some (after, ready ++ events) ∧
    Reports table rest after events) ∨
  ¬ IdleTail rest ∧ result = none

section Scans

variable {table : PollTable} {passed rest : List PollFd} {pfd last : PollFd}
  {ready : List PollRawEvent}
  {result : Option (PollTable × List PollRawEvent)}

theorem Scanned.finish (nothing : ∀ pfd ∈ rest, pfd.reported = false) :
    Scanned table rest ready (some (table, ready)) := by
  have valid : ∀ pfd ∈ rest, pfd.invalid = false :=
    fun pfd member => PollFd.valid_of_idle (nothing pfd member)
  exact .inl ⟨idleTail_of_valid valid, table, [], by simp,
    Reports.nothing nothing⟩

theorem Scanned.idle (scanned : Scanned table rest ready result)
    (idle : pfd.reported = false) :
    Scanned table (pfd :: rest) ready result := by
  rw [Scanned, idleTail_cons (PollFd.valid_of_idle idle)]
  obtain ⟨tail, after, events, isResult, reports⟩ | outside := scanned
  · exact .inl ⟨tail, after, events, isResult, reports.idle idle⟩
  · exact .inr outside

theorem Scanned.valid
    (scanned : Scanned table rest (ready ++ [pfd.event]) result)
    (fresh : ∀ other ∈ rest, other.fd ≠ pfd.fd)
    (reported : pfd.reported = true) (valid : pfd.invalid = false) :
    Scanned table (pfd :: rest) ready result := by
  rw [Scanned, idleTail_cons valid]
  obtain ⟨tail, after, events, isResult, reports⟩ | outside := scanned
  · exact .inl ⟨tail, after, pfd.event :: events, by simpa using isResult,
      reports.valid fresh reported valid⟩
  · exact .inr outside

theorem Scanned.discard (agrees : table.Agrees PollFd.fd)
    (records : table.records = passed ++ pfd :: (rest ++ [last]))
    (scanned : Scanned (table.unregisterFd pfd.fd) rest
      (ready ++ [last.event]) result)
    (invalid : pfd.invalid = true) (idle : last.reported = false) :
    Scanned table (pfd :: (rest ++ [last])) ready result := by
  rw [Scanned, idleTail_cons_concat invalid]
  obtain ⟨tail, after, events, isResult, reports⟩ | ⟨noTail, outside⟩ :=
    scanned
  · exact .inl ⟨⟨idle, tail⟩, after, last.event :: events,
      by simpa using isResult,
      reports.discard agrees records invalid idle⟩
  · exact .inr ⟨fun both => noTail both.2, outside⟩

end Scans

theorem scanned_scan {ret left found : Nat} {table : PollTable}
    {passed rest : List PollFd} (agrees : table.Agrees PollFd.fd)
    (records : table.records = passed ++ rest)
    (balanced : found + rest.countP PollFd.reported = ret)
    (unfinished : found < ret) (room : rest.length ≤ left)
    (ready : List PollRawEvent) :
    Scanned table rest ready
      (scan ret left passed.length found table ready) := by
  induction left generalizing table passed rest found ready with
  | zero =>
      obtain rfl := List.eq_nil_of_length_eq_zero (Nat.le_zero.mp room)
      simp at balanced
      omega
  | succ left ih =>
      cases rest with
      | nil =>
          simp at balanced
          omega
      | cons pfd rest =>
          have onward : table.records = (passed ++ [pfd]) ++ rest := by
            simpa using records
          rw [List.countP_cons] at balanced
          rw [List.length_cons] at room
          cases isReported : pfd.reported with
          | false =>
              rw [if_neg (by simp [isReported])] at balanced
              rw [scan_idle records isReported]
              exact (ih agrees onward balanced unfinished (by omega)
                ready).idle isReported
          | true =>
              rw [if_pos isReported] at balanced
              cases isInvalid : pfd.invalid with
              | false =>
                  rw [scan_valid records isReported isInvalid]
                  have fresh := fresh_of_agrees agrees records
                  split
                  · next finished =>
                      have none : rest.countP PollFd.reported = 0 := by omega
                      exact (Scanned.finish (idle_of_countP none)).valid
                        fresh isReported isInvalid
                  · exact (ih agrees onward (by omega) (by omega) (by omega)
                      _).valid fresh isReported isInvalid
              | true =>
                  obtain rfl | ⟨rest, last, rfl⟩ := rest.eq_nil_or_concat'
                  · exact .inr ⟨not_idleTail_singleton isInvalid,
                      scan_invalid_last agrees records isInvalid⟩
                  · rw [List.countP_append, List.countP_singleton] at balanced
                    rw [List.length_append, List.length_singleton] at room
                    have removed :
                        (table.unregisterFd pfd.fd).records =
                          (passed ++ [last]) ++ rest := by
                      simpa using records_unregister agrees records
                    have agreesAfter := agrees.erase pfd.fd
                    rw [scan_invalid agrees records isInvalid]
                    cases idle : last.reported with
                    | false =>
                        rw [if_neg (by simp [idle])] at balanced
                        refine Scanned.discard agrees records ?_ isInvalid idle
                        split
                        · next finished =>
                            exact Scanned.finish
                              (idle_of_countP (by omega))
                        · exact ih agreesAfter removed (by omega) (by omega)
                            (by omega) _
                    | true =>
                        -- Two entries have been used for one event.
                        rw [if_pos idle] at balanced
                        rw [if_neg (by omega)]
                        refine .inr ⟨fun tail => ?_, scan_eq_none agreesAfter
                          removed (by omega) (by omega)⟩
                        have isIdle :=
                          ((idleTail_cons_concat isInvalid).mp tail).1
                        rw [idle] at isIdle
                        cases isIdle

/-- Every ready descriptor is reported once, with its own events, and the
invalid ones are gone. -/
def ReportsEach (table : PollTable)
    (result : Option (PollTable × List PollRawEvent)) : Prop :=
  ∃ after ready, result = some (after, ready) ∧
    (∀ pfd ∈ table.records, pfd.reported = true → pfd.invalid = false →
      ready.filter (fun event => event.fd = pfd.fd) = [pfd.event]) ∧
    ∀ pfd, pfd ∈ after.records ↔
      pfd ∈ table.records ∧ pfd.invalid = false

/-- No event is reported but those of the entries with `revents`. -/
def ReportsOnly (table : PollTable)
    (result : Option (PollTable × List PollRawEvent)) : Prop :=
  ∀ after ready, result = some (after, ready) → ∀ event ∈ ready,
    ∃ pfd ∈ table.records, pfd.reported = true ∧ event = pfd.event

theorem scanned_collect {table : PollTable}
    (agrees : table.Agrees PollFd.fd) :
    Scanned table table.records [] table.collect := by
  simp only [collect]
  split
  · next none => exact Scanned.finish (idle_of_countP none)
  · exact @scanned_scan _ table.records.length 0 table [] _ agrees rfl
      (by simp) (by omega) (Nat.le_refl _) []

theorem reportsEach_iff {table : PollTable} (agrees : table.Agrees PollFd.fd) :
    ReportsEach table table.collect ↔ IdleTail table.records := by
  obtain ⟨tail, after, ready, isResult, reports⟩ | ⟨noTail, outside⟩ :=
    scanned_collect agrees
  · refine ⟨fun _ => tail, fun _ => ⟨after, ready, isResult, reports.once, ?_⟩⟩
    intro pfd
    rw [reports.remain pfd]
    apply and_congr_right
    intro inside
    simp [inside]
  · refine ⟨fun ⟨after, ready, isResult, _⟩ => ?_,
      fun tail => absurd tail noTail⟩
    rw [outside] at isResult
    cases isResult

theorem reportsOnly_iff {table : PollTable} (agrees : table.Agrees PollFd.fd) :
    ReportsEach table table.collect ∧ ReportsOnly table table.collect ↔
      ∀ pfd ∈ table.records, pfd.invalid = false := by
  rw [reportsEach_iff agrees]
  obtain ⟨tail, after, ready, isResult, reports⟩ | ⟨noTail, outside⟩ :=
    scanned_collect agrees
  · constructor
    · intro ⟨_, only⟩ pfd member
      by_contra isInvalid
      obtain ⟨event, reported, isZero⟩ :=
        reports.filler pfd member (by simpa using isInvalid)
      obtain ⟨source, _, something, rfl⟩ :=
        only after ready isResult event reported
      exact of_decide_eq_true something isZero
    · intro valid
      refine ⟨tail, fun _ _ result event member => ?_⟩
      rw [isResult] at result
      cases result
      exact reports.only valid event member
  · refine ⟨fun both => absurd both.1 noTail, fun valid => ?_⟩
    exact absurd (idleTail_of_valid valid) noTail

/-- For every table and whatever `poll` writes into it: the ready descriptors
are reported as they should be exactly if there are idle entries at the end
for all invalid ones.  Even then an entry without `revents` is reported for
each invalid one. -/
theorem wait_reports_iff {table : PollTable} (agrees : table.Agrees PollFd.fd)
    (revents : Nat → BitVec 16) :
    (ReportsEach (table.polled revents) (table.wait revents) ↔
      IdleTail (table.polled revents).records) ∧
    (ReportsEach (table.polled revents) (table.wait revents) ∧
        ReportsOnly (table.polled revents) (table.wait revents) ↔
      ∀ pfd ∈ (table.polled revents).records, pfd.invalid = false) :=
  ⟨reportsEach_iff (agrees_polled agrees revents),
    reportsOnly_iff (agrees_polled agrees revents)⟩

def twoRegistered : PollTable :=
  after [.registerFd 3 1, .registerFd 4 1]

/-- Three descriptors, the first invalid, the second readable and the last
idle; and two that are readable. -/
theorem wait_reports_iff_idleLast :
    (let table := after [.registerFd 3 1, .registerFd 4 1, .registerFd 5 1]
      let revents := fun place =>
        if place = 0 then pollNval else if place = 1 then 1 else 0
      (∃ pfd ∈ (table.polled revents).records, pfd.invalid = true) ∧
        ReportsEach (table.polled revents) (table.wait revents)) ∧
    ReportsOnly (twoRegistered.polled fun _ => 1)
      (twoRegistered.wait fun _ => 1) :=
  ⟨⟨by decide, (wait_reports_iff (agrees_after _) _).1.mpr (by decide)⟩,
    ((wait_reports_iff (agrees_after _) _).2.mpr (by decide)).2⟩

/-- The first is invalid, the second readable: it moves into the first slot,
and the scan goes on to the second. -/
theorem wait_reads_outside :
    ¬ ∀ (table : PollTable) (revents : Nat → BitVec 16),
      table.Agrees PollFd.fd →
        ReportsEach (table.polled revents) (table.wait revents) := by
  intro always
  obtain ⟨_, _, isResult, _⟩ :=
    always twoRegistered (fun place => if place = 0 then pollNval else 1)
      (agrees_after _)
  have outside : twoRegistered.wait
      (fun place => if place = 0 then pollNval else 1) = none := by decide
  rw [outside] at isResult
  cases isResult

end PollTable

end RopHive.Schedule
