import RopHive.Data.IndexedVector

/-! A vector of records beside a map from keys to places: two variables that
only the operations keep in agreement. -/

structure KeyedVector (Key Record : Type) where
  records : List Record
  index : Key → Option Nat

namespace KeyedVector

variable {Key Record Value : Type}

def empty : KeyedVector Key Record := ⟨[], fun _ => none⟩

/-- The map finds exactly the records of the vector. -/
def Agrees (keyOf : Record → Key) (vector : KeyedVector Key Record) : Prop :=
  ∀ key place, vector.index key = some place ↔
    (vector.records[place]?).map keyOf = some key

/-- The same map as the one that keeps its index right by its type. -/
structure Represents (view : Record → Key × Value)
    (vector : KeyedVector Key Record) (indexed : IndexedVector Key Value) :
    Prop where
  entries : indexed.entries = vector.records.map view
  index : indexed.index = vector.index

theorem represents_empty (view : Record → Key × Value) :
    Represents view empty .empty := ⟨rfl, rfl⟩

variable {view : Record → Key × Value} {vector : KeyedVector Key Record}
  {indexed : IndexedVector Key Value}

theorem Represents.agrees (represents : Represents view vector indexed) :
    vector.Agrees fun record => (view record).1 := by
  intro key place
  rw [← represents.index, indexed.indexed, represents.entries,
    List.getElem?_map, Option.map_map]
  rfl

theorem Represents.index_eq_some_iff
    (represents : Represents view vector indexed) {key : Key} {place : Nat} :
    vector.index key = some place ↔
      ∃ inside : place < vector.records.length,
        (view vector.records[place]).1 = key := by
  rw [represents.agrees key place]
  constructor
  · intro keyed
    obtain ⟨record, held, isKey⟩ := Option.map_eq_some_iff.mp keyed
    obtain ⟨inside, rfl⟩ := List.getElem?_eq_some_iff.mp held
    exact ⟨inside, isKey⟩
  · intro ⟨inside, isKey⟩
    rw [List.getElem?_eq_getElem inside, Option.map_some, isKey]

theorem Represents.nodup_keys
    (represents : Represents view vector indexed) :
    (vector.records.map fun record => (view record).1).Nodup := by
  have distinct := indexed.nodup_keys
  rwa [represents.entries, List.map_map] at distinct

theorem Represents.lookup_eq_some_iff
    (represents : Represents view vector indexed) {key : Key} {value : Value} :
    indexed.lookup key = some value ↔
      ∃ record ∈ vector.records, view record = (key, value) := by
  rw [IndexedVector.lookup_eq_some_iff, represents.entries, List.mem_map]

/-- A vector and a map in agreement, as one value. -/
def Agrees.toIndexed {keyOf : Record → Key} (agrees : vector.Agrees keyOf) :
    IndexedVector Key Record where
  entries := vector.records.map fun record => (keyOf record, record)
  index := vector.index
  indexed := fun key place => by
    rw [agrees key place, List.getElem?_map, Option.map_map]
    rfl

theorem Agrees.represents {keyOf : Record → Key}
    (agrees : vector.Agrees keyOf) :
    Represents (fun record => (keyOf record, record)) vector agrees.toIndexed :=
  ⟨rfl, rfl⟩

variable [DecidableEq Key]

def rewrite (vector : KeyedVector Key Record) (place : Nat)
    (change : Record → Record) : KeyedVector Key Record :=
  { vector with records := vector.records.modify place change }

def append (vector : KeyedVector Key Record) (key : Key) (record : Record) :
    KeyedVector Key Record where
  records := vector.records ++ [record]
  index := Function.update vector.index key (some vector.records.length)

/-- `if (index != last)`, the last record is copied to the place and found
there. -/
def moveLast (keyOf : Record → Key) (vector : KeyedVector Key Record)
    (place : Nat) : KeyedVector Key Record :=
  let last := vector.records.length - 1
  if place ≠ last then
    match vector.records[last]? with
    | some record =>
        { records := vector.records.set place record
          index := Function.update vector.index (keyOf record) (some place) }
    | none => vector
  else vector

def erase (keyOf : Record → Key) (vector : KeyedVector Key Record)
    (key : Key) : KeyedVector Key Record :=
  match vector.index key with
  | none => vector
  | some place =>
      let moved := vector.moveLast keyOf place
      { records := moved.records.dropLast
        index := Function.update moved.index key none }

theorem Represents.rewrite (represents : Represents view vector indexed)
    {key : Key} {place : Nat} (found : vector.index key = some place)
    {change : Record → Record} {value : Value}
    (changes : ∀ record, view (change record) = ((view record).1, value)) :
    Represents view (vector.rewrite place change)
      (indexed.insert key value) := by
  rw [← represents.index] at found
  unfold IndexedVector.insert
  split
  · next elsewhere foundAgain =>
      rw [found] at foundAgain
      cases foundAgain
      refine ⟨?_, represents.index⟩
      apply List.ext_getElem?
      intro at_
      simp only [KeyedVector.rewrite, represents.entries, List.getElem?_modify,
        List.getElem?_map]
      cases vector.records[at_]? with
      | none => rfl
      | some record =>
          by_cases here : place = at_
          · simp [here, changes]
          · simp [here]
  · next absent =>
      rw [found] at absent
      cases absent

theorem Represents.append (represents : Represents view vector indexed)
    {key : Key} (absent : vector.index key = none) {record : Record}
    {value : Value} (viewed : view record = (key, value)) :
    Represents view (vector.append key record) (indexed.insert key value) := by
  rw [← represents.index] at absent
  unfold IndexedVector.insert
  split
  · next place found =>
      rw [absent] at found
      cases found
  · constructor
    · simp [KeyedVector.append, represents.entries, viewed]
    · simp [KeyedVector.append, represents.entries, represents.index]

theorem Represents.moveLast (represents : Represents view vector indexed)
    {key : Key} {place : Nat} (found : indexed.index key = some place) :
    ((vector.moveLast (fun record => (view record).1) place).records.map
        view).dropLast = IndexedVector.fill indexed.entries place ∧
      Function.update
          (vector.moveLast (fun record => (view record).1) place).index key
          none = indexed.refill key place := by
  obtain ⟨last, isLast, lastAt, lastIndex⟩ := IndexedVector.exists_last found
  have sameLength : indexed.entries.length = vector.records.length := by
    rw [represents.entries, List.length_map]
  rw [represents.entries, List.length_map, List.getElem?_map] at lastAt
  obtain ⟨record, isRecord, rfl⟩ := Option.map_eq_some_iff.mp lastAt
  simp only [KeyedVector.moveLast, IndexedVector.fill, IndexedVector.refill,
    isLast, isRecord]
  split
  · simp [represents.entries, represents.index, List.map_set]
  · next isPlace =>
      -- The hole is the last place, so the last key is the erased one.
      have atEnd : place = vector.records.length - 1 := not_not.mp isPlace
      have sameKey : (view record).1 = key := by
        have keyed := (indexed.indexed key place).mp found
        rw [represents.entries, List.getElem?_map, atEnd, isRecord] at keyed
        exact Option.some.inj keyed
      refine ⟨?_, ?_⟩
      · rw [represents.entries]
        apply congrArg List.dropLast
        apply List.ext_getElem?
        intro at_
        rw [List.getElem?_set]
        split
        · next here =>
            subst here
            rw [List.getElem?_map, atEnd, isRecord]
            split
            · rfl
            · next outside =>
                rw [List.length_map] at outside
                have inside := IndexedVector.place_lt found
                omega
        · rfl
      · rw [sameKey, Function.update_idem, represents.index]

theorem Represents.erase (represents : Represents view vector indexed)
    (key : Key) :
    Represents view (vector.erase (fun record => (view record).1) key)
      (indexed.erase key) := by
  unfold KeyedVector.erase IndexedVector.erase
  rw [← represents.index]
  split
  · next absent =>
      split
      · exact represents
      · next place found =>
          rw [absent] at found
          cases found
  · next place found =>
      split
      · next absent =>
          rw [found] at absent
          cases absent
      · next again foundAgain =>
          rw [found] at foundAgain
          cases foundAgain
          obtain ⟨records, index⟩ := represents.moveLast found
          exact ⟨records.symm.trans (List.map_dropLast ..).symm, index.symm⟩

theorem Agrees.records_erase {keyOf : Record → Key}
    (agrees : vector.Agrees keyOf) {place : Nat} {record last : Record}
    (held : vector.records[place]? = some record)
    (isLast : vector.records.getLast? = some last) :
    (vector.erase keyOf (keyOf record)).records =
      (vector.records.set place last).dropLast := by
  have found : vector.index (keyOf record) = some place :=
    (agrees _ _).mpr (by rw [held]; rfl)
  rw [List.getLast?_eq_getElem?] at isLast
  simp only [KeyedVector.erase, found, KeyedVector.moveLast, isLast]
  split
  · rfl
  · next isPlace =>
      have atEnd : place = vector.records.length - 1 := not_not.mp isPlace
      rw [← atEnd, held] at isLast
      cases isLast
      obtain ⟨inside, rfl⟩ := List.getElem?_eq_some_iff.mp held
      rw [List.set_getElem_self]

theorem Agrees.erase {keyOf : Record → Key} (agrees : vector.Agrees keyOf)
    (key : Key) : (vector.erase keyOf key).Agrees keyOf :=
  (agrees.represents.erase key).agrees

theorem Agrees.mem_erase {keyOf : Record → Key} (agrees : vector.Agrees keyOf)
    (key : Key) (record : Record) :
    record ∈ (vector.erase keyOf key).records ↔
      record ∈ vector.records ∧ keyOf record ≠ key := by
  have before := @Represents.lookup_eq_some_iff _ _ _ _ _ _ agrees.represents
    (keyOf record) record
  have after := @Represents.lookup_eq_some_iff _ _ _ _ _ _
    (agrees.represents.erase key) (keyOf record) record
  rw [IndexedVector.lookup_erase] at after
  split at after
  · next same => simpa [same] using after
  · next other =>
      rw [before] at after
      simpa [other] using after.symm

end KeyedVector
