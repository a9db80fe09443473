import Mathlib.Data.List.Perm.Basic
import Mathlib.Order.Lattice

/-! Queues from which an item of least key is popped at a time.  The contents
stand as a list; which of several items of least key comes first is a property
of the implementation. -/

namespace PriorityQueue

variable {Item Key : Type} [LinearOrder Key] (key : Item → Key)

/-- An implementation's choice of the item on top, as a function of the
contents. -/
structure TopRule where
  index : List Item → Nat
  least : ∀ {items : List Item}, items ≠ [] →
    ∃ item, items[index items]? = some item ∧
      ∀ other ∈ items, key item ≤ key other

theorem exists_least {items : List Item} (inhabited : items ≠ []) :
    ∃ item ∈ items, ∀ other ∈ items, key item ≤ key other := by
  induction items with
  | nil => contradiction
  | cons head tail ih =>
      by_cases empty : tail = []
      · subst empty
        exact ⟨head, by simp, by simp⟩
      · obtain ⟨item, member, least⟩ := ih empty
        obtain before | after := le_total (key head) (key item)
        · refine ⟨head, by simp, ?_⟩
          rintro other (_ | ⟨_, queued⟩)
          · exact le_refl _
          · exact le_trans before (least other queued)
        · refine ⟨item, by simp [member], ?_⟩
          rintro other (_ | ⟨_, queued⟩)
          · exact after
          · exact least other queued

def TopRule.first : TopRule key where
  index items := items.findIdx fun item : Item =>
    items.all fun other => decide (key item ≤ key other)
  least := by
    intro items inhabited
    obtain ⟨item, member, least⟩ := exists_least key inhabited
    have inside : (items.findIdx fun item : Item =>
        items.all fun other => decide (key item ≤ key other)) <
          items.length :=
      List.findIdx_lt_length_of_exists ⟨item, member, by simpa using least⟩
    refine ⟨_, List.getElem?_eq_getElem inside, ?_⟩
    simpa using List.findIdx_getElem (w := inside)

/-- `popped` was popped off `entry` one after the other, each item due and at
an index that `allowed` permits, which leaves `queue`. -/
inductive Pops (limit : Key) (allowed : List Item → Nat → Prop)
    (entry : List Item) : List Item → List Item → Prop
  | start : Pops limit allowed entry [] entry
  | pop {popped queue : List Item} {index : Nat} {item : Item} :
      Pops limit allowed entry popped queue → queue[index]? = some item →
      allowed queue index → (∀ other ∈ queue, key item ≤ key other) →
      key item ≤ limit →
      Pops limit allowed entry (popped ++ [item]) (queue.eraseIdx index)

variable {key}

theorem perm_cons_eraseIdx {queue : List Item} {index : Nat} {item : Item}
    (found : queue[index]? = some item) :
    queue.Perm (item :: queue.eraseIdx index) := by
  obtain ⟨inside, rfl⟩ := List.getElem?_eq_some_iff.mp found
  exact (List.getElem_cons_eraseIdx_perm inside).symm

namespace Pops

variable {limit : Key} {allowed : List Item → Nat → Prop}
  {entry popped queue : List Item}

theorem perm (pops : Pops key limit allowed entry popped queue) :
    entry.Perm (popped ++ queue) := by
  induction pops with
  | start => exact .refl _
  | pop _ found _ _ _ ih =>
      rw [List.append_assoc]
      exact ih.trans ((perm_cons_eraseIdx found).append_left _)

theorem due (pops : Pops key limit allowed entry popped queue) :
    ∀ item ∈ popped, key item ≤ limit := by
  induction pops with
  | start => simp
  | pop _ _ _ _ isDue ih =>
      intro item member
      cases List.mem_append.mp member with
      | inl earlier => exact ih item earlier
      | inr last =>
          rw [List.mem_singleton.mp last]
          exact isDue

theorem before_queue (pops : Pops key limit allowed entry popped queue) :
    ∀ item ∈ popped, ∀ other ∈ queue, key item ≤ key other := by
  induction pops with
  | start => simp
  | pop _ _ _ isLeast _ ih =>
      intro item member other queued
      have still := List.mem_of_mem_eraseIdx queued
      cases List.mem_append.mp member with
      | inl earlier => exact ih item earlier other still
      | inr last =>
          rw [List.mem_singleton.mp last]
          exact isLeast other still

theorem sorted (pops : Pops key limit allowed entry popped queue) :
    popped.Pairwise fun earlier later => key earlier ≤ key later := by
  induction pops with
  | start => exact .nil
  | pop earlier found _ _ _ ih =>
      refine List.pairwise_append.mpr ⟨ih, List.pairwise_singleton _ _, ?_⟩
      intro item member last isLast
      rw [List.mem_singleton.mp isLast]
      exact earlier.before_queue item member _ (List.mem_of_getElem? found)

theorem filter_later (pops : Pops key limit allowed entry popped queue) :
    queue.filter (fun item => limit < key item) =
      entry.filter fun item => limit < key item := by
  induction pops with
  | start => rfl
  | @pop popped queue index item _ found _ _ isDue ih =>
      rw [← ih]
      obtain ⟨inside, rfl⟩ := List.getElem?_eq_some_iff.mp found
      have split : queue =
          queue.take index ++ queue[index] :: queue.drop (index + 1) := by
        simp
      rw [List.eraseIdx_eq_take_drop_succ, List.filter_append]
      conv_rhs => rw [split]
      rw [List.filter_append, List.filter_cons_of_neg]
      simpa using isDue

theorem exact (pops : Pops key limit allowed entry popped queue)
    (finished : ∀ item ∈ queue, limit < key item) :
    popped.Perm (entry.filter fun item => key item ≤ limit) := by
  have filtered := (pops.perm.filter fun item => key item ≤ limit)
  rw [List.filter_append] at filtered
  have all : popped.filter (fun item => key item ≤ limit) = popped := by
    rw [List.filter_eq_self]
    intro item member
    simpa using pops.due item member
  have none : queue.filter (fun item => key item ≤ limit) = [] := by
    rw [List.filter_eq_nil_iff]
    intro item member
    simpa using finished item member
  rw [all, none, List.append_nil] at filtered
  exact filtered.symm

theorem queue_eq (pops : Pops key limit allowed entry popped queue)
    (finished : ∀ item ∈ queue, limit < key item) :
    queue = entry.filter fun item => limit < key item := by
  rw [← pops.filter_later, List.filter_eq_self.mpr]
  intro item member
  simpa using finished item member

theorem mono {weaker : List Item → Nat → Prop}
    (implied : ∀ queue index, allowed queue index → weaker queue index)
    (pops : Pops key limit allowed entry popped queue) :
    Pops key limit weaker entry popped queue := by
  induction pops with
  | start => exact .start
  | pop _ found isAllowed isLeast isDue ih =>
      exact ih.pop found (implied _ _ isAllowed) isLeast isDue

theorem length_le (pops : Pops key limit allowed entry popped queue) :
    popped.length ≤ entry.length := by
  rw [pops.perm.length_eq, List.length_append]
  exact Nat.le_add_right _ _

end Pops

section PopDue

variable (rule : TopRule key) (limit : Key)

def popDue : Nat → List Item → List Item × List Item
  | 0, queue => ([], queue)
  | fuel + 1, queue =>
      match queue[rule.index queue]? with
      | none => ([], queue)
      | some item =>
          if key item ≤ limit then
            (item :: (popDue fuel (queue.eraseIdx (rule.index queue))).1,
              (popDue fuel (queue.eraseIdx (rule.index queue))).2)
          else ([], queue)

variable {rule limit} {entry popped queue : List Item}

theorem popDue_pops {allowed : List Item → Nat → Prop}
    (permits : ∀ queue, allowed queue (rule.index queue)) (fuel : Nat)
    (before : Pops key limit allowed entry popped queue) :
    Pops key limit allowed entry (popped ++ (popDue rule limit fuel queue).1)
      (popDue rule limit fuel queue).2 := by
  induction fuel generalizing popped queue with
  | zero => simpa [popDue] using before
  | succ fuel ih =>
      cases found : queue[rule.index queue]? with
      | none => simpa [popDue, found] using before
      | some item =>
          simp only [popDue, found]
          split
          · next isDue =>
              have inhabited : queue ≠ [] := by
                rintro rfl
                simp at found
              obtain ⟨top, isTop, least⟩ := rule.least inhabited
              obtain rfl : item = top :=
                Option.some.inj (found.symm.trans isTop)
              have rest := ih (before.pop found (permits queue) least isDue)
              rwa [List.append_assoc] at rest
          · simpa using before

theorem popDue_over {fuel : Nat} (enough : queue.length ≤ fuel) :
    ∀ item ∈ (popDue rule limit fuel queue).2, limit < key item := by
  induction fuel generalizing queue with
  | zero =>
      obtain rfl := List.length_eq_zero_iff.mp (Nat.le_zero.mp enough)
      simp [popDue]
  | succ fuel ih =>
      by_cases inhabited : queue = []
      · subst inhabited
        simp [popDue]
      · obtain ⟨top, isTop, least⟩ := rule.least inhabited
        simp only [popDue, isTop]
        split
        · apply ih
          have inside := (List.getElem?_eq_some_iff.mp isTop).1
          rw [List.length_eraseIdx_of_lt inside]
          omega
        · next notDue =>
            intro item member
            exact lt_of_lt_of_le (not_le.mp notDue) (least item member)

theorem Pops.eq_popDue
    (pops : Pops key limit (fun queue index => index = rule.index queue) entry
      popped queue) (finished : ∀ item ∈ queue, limit < key item) :
    popDue rule limit entry.length entry = (popped, queue) := by
  have ahead : ∀ {popped queue : List Item},
      Pops key limit (fun queue index => index = rule.index queue) entry popped
        queue →
      popDue rule limit entry.length entry =
        (popped ++ (popDue rule limit queue.length queue).1,
          (popDue rule limit queue.length queue).2) := by
    intro popped queue pops
    induction pops with
    | start => rfl
    | @pop popped queue index item _ found isTop _ isDue ih =>
        subst isTop
        have inside := (List.getElem?_eq_some_iff.mp found).1
        have length : queue.length =
            (queue.eraseIdx (rule.index queue)).length + 1 := by
          rw [List.length_eraseIdx_of_lt inside]
          omega
        rw [ih, length]
        simp [popDue, found, isDue]
  rw [ahead pops]
  have none : popDue rule limit queue.length queue = ([], queue) := by
    cases length : queue.length with
    | zero => rfl
    | succ fuel =>
        have inhabited : queue ≠ [] := by
          rintro rfl
          cases length
        obtain ⟨top, isTop, _⟩ := rule.least inhabited
        have later := finished top (List.mem_of_getElem? isTop)
        simp [popDue, isTop, later]
  simp [none]

end PopDue

end PriorityQueue
