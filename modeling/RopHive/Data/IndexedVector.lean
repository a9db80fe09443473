import Mathlib

/-! Maps kept as a vector of entries with an index of its keys.  An entry is
erased by moving the last one into its place. -/

/-- The index finds exactly the entries of the vector. -/
structure IndexedVector (Key Value : Type) where
  entries : List (Key × Value)
  index : Key → Option Nat
  indexed : ∀ key place,
    index key = some place ↔ (entries[place]?).map Prod.fst = some key

namespace IndexedVector

variable {Key Value : Type}

def empty : IndexedVector Key Value where
  entries := []
  index := fun _ => none
  indexed := by simp

def lookup (vector : IndexedVector Key Value) (key : Key) : Option Value :=
  (vector.index key).bind fun place =>
    (vector.entries[place]?).map Prod.snd

theorem lookup_eq_some_iff {vector : IndexedVector Key Value} {key : Key}
    {value : Value} :
    vector.lookup key = some value ↔ (key, value) ∈ vector.entries := by
  constructor
  · intro found
    obtain ⟨place, isPlace, held⟩ := Option.bind_eq_some_iff.mp found
    obtain ⟨⟨_, _⟩, entry, rfl⟩ := Option.map_eq_some_iff.mp held
    have keyed := (vector.indexed key place).mp isPlace
    rw [entry] at keyed
    cases keyed
    exact List.mem_of_getElem? entry
  · intro member
    obtain ⟨place, inside, entry⟩ := List.getElem_of_mem member
    have held : vector.entries[place]? = some (key, value) :=
      List.getElem?_eq_some_iff.mpr ⟨inside, entry⟩
    have isPlace := (vector.indexed key place).mpr (by rw [held]; rfl)
    simp [lookup, isPlace, held]

theorem place_lt {vector : IndexedVector Key Value} {key : Key} {place : Nat}
    (found : vector.index key = some place) :
    place < vector.entries.length := by
  have keyed := (vector.indexed key place).mp found
  by_contra outside
  rw [List.getElem?_eq_none (by omega)] at keyed
  cases keyed

theorem exists_last {vector : IndexedVector Key Value} {key : Key}
    {place : Nat} (found : vector.index key = some place) :
    ∃ last, vector.entries.getLast? = some last ∧
      vector.entries[vector.entries.length - 1]? = some last ∧
      vector.index last.1 = some (vector.entries.length - 1) := by
  have inside := place_lt found
  have isLast := List.getLast?_eq_some_getLast
    (List.ne_nil_of_length_pos (show 0 < vector.entries.length by omega))
  refine ⟨_, isLast, ?_, ?_⟩
  · rw [← List.getLast?_eq_getElem?, isLast]
  · rw [vector.indexed, ← List.getLast?_eq_getElem?, isLast]
    rfl

theorem nodup_keys (vector : IndexedVector Key Value) :
    (vector.entries.map Prod.fst).Nodup := by
  rw [List.Nodup, List.pairwise_iff_getElem]
  intro first second bound inside before same
  rw [List.length_map] at bound inside
  have found := (vector.indexed _ second).mpr
    (by rw [List.getElem?_eq_getElem inside]; rfl)
  have again := (vector.indexed _ first).mpr
    (by rw [List.getElem?_eq_getElem bound]; rfl)
  simp only [List.getElem_map] at same
  rw [same, found] at again
  cases again
  exact Nat.lt_irrefl _ before

variable [DecidableEq Key]

theorem insert_indexed {vector : IndexedVector Key Value} {key : Key}
    (absent : vector.index key = none) (value : Value) (other : Key)
    (place : Nat) :
    Function.update vector.index key (some vector.entries.length) other =
        some place ↔
      ((vector.entries ++ [(key, value)])[place]?).map Prod.fst =
        some other := by
  have earlier := vector.indexed other place
  by_cases inside : place < vector.entries.length
  · rw [List.getElem?_append_left inside, ← earlier]
    by_cases same : other = key
    · subst same
      rw [Function.update_self, absent]
      simp only [Option.some.injEq, reduceCtorEq, iff_false]
      omega
    · rw [Function.update_of_ne same]
  · rw [List.getElem?_append_right (by omega)]
    rw [List.getElem?_eq_none (by omega)] at earlier
    by_cases same : other = key
    · subst same
      rw [Function.update_self]
      by_cases last : place = vector.entries.length
      · simp [last]
      · rw [List.getElem?_eq_none (by simp; omega)]
        simp only [Option.some.injEq, Option.map_none, reduceCtorEq, iff_false]
        omega
    · rw [Function.update_of_ne same, earlier]
      by_cases last : place = vector.entries.length
      · simp [last, Ne.symm same]
      · rw [List.getElem?_eq_none (by simp; omega)]

def insert (vector : IndexedVector Key Value) (key : Key) (value : Value) :
    IndexedVector Key Value :=
  match found : vector.index key with
  | some place =>
      { vector with
        entries := vector.entries.modify place fun entry => (entry.1, value)
        indexed := by
          intro other at_
          rw [vector.indexed, List.getElem?_modify]
          split <;> simp [Function.comp_def] }
  | none =>
      { entries := vector.entries ++ [(key, value)]
        index := Function.update vector.index key (some vector.entries.length)
        indexed := insert_indexed found value }

def fill (entries : List (Key × Value)) (place : Nat) : List (Key × Value) :=
  match entries.getLast? with
  | some last => (entries.set place last).dropLast
  | none => []

def refill (vector : IndexedVector Key Value) (key : Key) (place : Nat) :
    Key → Option Nat :=
  match vector.entries.getLast? with
  | some last =>
      Function.update (Function.update vector.index last.1 (some place)) key
        none
  | none => vector.index

omit [DecidableEq Key] in
theorem getElem?_fill {entries : List (Key × Value)} {last : Key × Value}
    (isLast : entries.getLast? = some last) (place at_ : Nat) :
    (fill entries place)[at_]? =
      if at_ < entries.length - 1 then
        if place = at_ then some last else entries[at_]?
      else none := by
  simp only [fill, isLast, List.getElem?_dropLast, List.length_set,
    List.getElem?_set]
  split
  · split
    · rw [if_pos (by omega)]
    · rfl
  · rfl

theorem refill_indexed {vector : IndexedVector Key Value} {key : Key}
    {place : Nat} (found : vector.index key = some place) (other : Key)
    (at_ : Nat) :
    vector.refill key place other = some at_ ↔
      ((fill vector.entries place)[at_]?).map Prod.fst = some other := by
  have keyed := (vector.indexed key place).mp found
  have inside := place_lt found
  obtain ⟨last, isLast, lastAt, lastIndex⟩ := exists_last found
  have atIndex := vector.indexed other at_
  simp only [refill, isLast, getElem?_fill isLast]
  by_cases isKey : other = key
  · subst isKey
    rw [Function.update_self]
    grind
  · rw [Function.update_of_ne isKey]
    by_cases moved : other = last.1
    · subst moved
      rw [Function.update_self]
      grind
    · rw [Function.update_of_ne moved]
      grind

def erase (vector : IndexedVector Key Value) (key : Key) :
    IndexedVector Key Value :=
  match found : vector.index key with
  | none => vector
  | some place =>
      { entries := fill vector.entries place
        index := vector.refill key place
        indexed := refill_indexed found }

theorem lookup_insert (vector : IndexedVector Key Value) (key other : Key)
    (value : Value) :
    (vector.insert key value).lookup other =
      if other = key then some value else vector.lookup other := by
  unfold insert
  split
  · next place found =>
      have keyed := (vector.indexed key place).mp found
      by_cases same : other = key
      · subst same
        simp only [lookup, found, Option.bind_some, List.getElem?_modify]
        grind
      · simp only [lookup, if_neg same]
        cases isPlace : vector.index other with
        | none => rfl
        | some elsewhere =>
            have apart : place ≠ elsewhere := by
              rintro rfl
              have keyedOther := (vector.indexed other place).mp isPlace
              rw [keyed] at keyedOther
              exact same (Option.some.inj keyedOther).symm
            simp [List.getElem?_modify, apart, Function.comp_def]
  · next found =>
      by_cases same : other = key
      · subst same
        simp [lookup]
      · simp only [lookup, if_neg same, Function.update_of_ne same]
        cases isPlace : vector.index other with
        | none => rfl
        | some elsewhere =>
            simp [List.getElem?_append_left (place_lt isPlace)]

theorem lookup_erase (vector : IndexedVector Key Value) (key other : Key) :
    (vector.erase key).lookup other =
      if other = key then none else vector.lookup other := by
  unfold erase
  split
  · next found =>
      split
      · next same => simp [same, lookup, found]
      · rfl
  · next place found =>
      have keyed := (vector.indexed key place).mp found
      have inside := place_lt found
      obtain ⟨last, isLast, lastAt, lastIndex⟩ := exists_last found
      simp only [lookup, refill, isLast, getElem?_fill isLast]
      by_cases isKey : other = key
      · simp [isKey]
      · rw [Function.update_of_ne isKey, if_neg isKey]
        by_cases moved : other = last.1
        · subst moved
          rw [Function.update_self, lastIndex]
          grind
        · rw [Function.update_of_ne moved]
          cases isPlace : vector.index other with
          | none => rfl
          | some elsewhere =>
              have keyedOther := (vector.indexed other elsewhere).mp isPlace
              have insideOther := place_lt isPlace
              grind

end IndexedVector
