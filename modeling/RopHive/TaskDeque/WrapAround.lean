import RopHive.TaskDeque.BoundedList

namespace RopHive.TaskDeque

open Transition

/-! What becomes of accepted tasks when `bottom_` wraps. -/

section Ledger

variable {width : Nat} {Task : Type} (capacity : Capacity)

def keptAfter (kept : List Task) : Operation Task → Answer Task → List Task
  | .push (some task), .pushed true _
  | .pushCopy (some task), .pushed true _ => kept ++ [task]
  | .pop, .taken (some _) => kept.dropLast
  | .steal, .taken (some _) => kept.tail
  | _, _ => kept

def ledgered (width : Nat) (Task : Type) (capacity : Capacity) :
    Device (Deque width Task × List Task) (Operation Task) (Answer Task) where
  run := fun state operation =>
    let (answer, after) := state.1.run capacity operation
    (answer, after, keptAfter state.2 operation answer)

/-- The owner is given the newest of the tasks that the deque owes. -/
def PopsNewest (state : Deque width Task × List Task) : Prop :=
  ∀ task ∈ state.2.getLast?,
    (state.1.tryPopBottom capacity).1 = some (some task)

end Ledger

section Wrap

variable {width : Nat} {Task : Type} {capacity : Capacity}
  {deque : Deque width Task} {kept : List Task}

theorem keptAfter_boundedRun (bound : Nat) (kept : List Task)
    (operation : Operation Task) :
    keptAfter kept operation (boundedRun bound kept operation).1 =
      (boundedRun bound kept operation).2 := by
  cases operation with
  | push task | pushCopy task =>
      cases task with
      | none => rfl
      | some task =>
          by_cases room : kept.length < bound <;>
            simp [boundedRun, boundedPush, keptAfter, room]
  | pop =>
      obtain rfl | ⟨front, last, rfl⟩ := kept.eq_nil_or_concat
      · rfl
      · simp [boundedRun, keptAfter]
  | steal => cases kept <;> rfl
  | approxSize | remainingSpace => rfl

theorem holds_ledgered (fits : capacity.exponent < width)
    (holds : Deque.Holds capacity deque kept) {operation : Operation Task}
    (stays : Deque.Stays capacity deque operation) :
    Deque.Holds capacity
      ((ledgered width Task capacity).run (deque, kept) operation).2.1
      ((ledgered width Task capacity).run (deque, kept) operation).2.2 := by
  obtain ⟨answer, after⟩ := holds.step fits stays
  simp only [ledgered, answer, keptAfter_boundedRun]
  exact after

theorem popsNewest_of_holds (holds : Deque.Holds capacity deque kept) :
    PopsNewest capacity (deque, kept) := by
  intro task isLast
  rw [holds.pop.1, isLast]
  rfl

theorem wraps_of_not_stays (fits : capacity.exponent < width)
    (holds : Deque.Holds capacity deque kept) {operation : Operation Task}
    (wraps : ¬ Deque.Stays capacity deque operation) :
    ∃ task, keptAfter kept operation (deque.run capacity operation).1 =
        kept ++ [task] ∧
      (deque.run capacity operation).2.bottom = 0 ∧
      0 < (deque.run capacity operation).2.top.toNat := by
  cases operation with
  | push task | pushCopy task =>
      cases task with
      | none => exact absurd trivial wraps
      | some task =>
          obtain ⟨notFull, wrapped⟩ := not_or.mp wraps
          rw [Bool.not_eq_true] at notFull
          rw [ne_eq, not_not] at wrapped
          refine ⟨task, ?_⟩
          simp only [Deque.run, Deque.tryPushBottom, Deque.tryPushBottomCopy,
            notFull, Bool.false_eq_true, if_false]
          refine ⟨rfl, wrapped, ?_⟩
          have full := holds.isFull_iff fits
          have bottom := holds.bottom
          have bound := Deque.maxSize_lt fits
          have last : deque.bottom.toNat + 1 = 2 ^ width := by
            have small := deque.bottom.isLt
            by_contra more
            have value := congrArg BitVec.toNat wrapped
            rw [BitVec.toNat_add, Deque.toNat_one (by omega),
              Nat.mod_eq_of_lt (by omega)] at value
            simp at value
          rw [notFull] at full
          simp only [Bool.false_eq_true, false_iff] at full
          omega
  | pop | steal | approxSize | remainingSpace => exact absurd trivial wraps

theorem popsNewest_throughout_iff_from (fits : capacity.exponent < width)
    (operations : List (Operation Task))
    (holds : Deque.Holds capacity deque kept) :
    (∀ front, front <+: operations → PopsNewest capacity
      ((ledgered width Task capacity).after (deque, kept) front)) ↔
      (device width Task capacity).Throughout (Deque.Stays capacity) deque
        operations := by
  induction operations generalizing deque kept with
  | nil =>
      constructor
      · exact fun _ => trivial
      · intro _ front isFront
        rw [List.prefix_nil.mp isFront]
        exact popsNewest_of_holds holds
  | cons operation rest ih =>
      constructor
      · intro pops
        by_cases stays : Deque.Stays capacity deque operation
        · refine ⟨stays, (ih (holds_ledgered fits holds stays)).mp ?_⟩
          intro front isFront
          exact pops (operation :: front) (List.cons_prefix_cons.mpr
            ⟨rfl, isFront⟩)
        · obtain ⟨task, owes, wrapped, _⟩ :=
            wraps_of_not_stays fits holds stays
          have owed : ((ledgered width Task capacity).after (deque, kept)
              [operation]).2 = kept ++ [task] := owes
          have popped := pops [operation] (by simp) task (by simp [owed])
          have found : ((deque.run capacity operation).2.tryPopBottom
              capacity).1 = some (some task) := popped
          rw [Deque.tryPopBottom, if_pos wrapped] at found
          cases found
      · rintro ⟨stays, later⟩ front isFront
        cases front with
        | nil => exact popsNewest_of_holds holds
        | cons first front =>
            obtain ⟨rfl, shorter⟩ := List.cons_prefix_cons.mp isFront
            exact (ih (holds_ledgered fits holds stays)).mpr later front
              shorter

/-- A sequence of calls finds the newest task at every point just if it never
moves `bottom_` past its largest value. -/
theorem popsNewest_throughout_iff (fits : capacity.exponent < width)
    (operations : List (Operation Task)) :
    (∀ front, front <+: operations → PopsNewest capacity
      ((ledgered width Task capacity).after (.initial, []) front)) ↔
      (device width Task capacity).Throughout (Deque.Stays capacity) .initial
        operations :=
  popsNewest_throughout_iff_from fits operations Deque.holds_initial

theorem popsNewest_throughout_iff_mixedCalls :
    mixedCalls ≠ [] ∧ ∀ front, front <+: mixedCalls → PopsNewest ⟨3, by decide⟩
      ((ledgered 32 Nat ⟨3, by decide⟩).after (.initial, []) front) :=
  ⟨nofun,
    (popsNewest_throughout_iff (by decide) mixedCalls).mpr (by decide +kernel)⟩

theorem run_wrapped (fits : capacity.exponent < width)
    (wrapped : deque.bottom < deque.top) (operation : Operation Task) :
    (∀ item, (deque.run capacity operation).1 = .taken item → item = none) ∧
      (deque.run capacity operation).2.bottom <
        (deque.run capacity operation).2.top := by
  have passed : ¬ deque.top < deque.bottom := by
    rw [BitVec.lt_def] at wrapped ⊢
    omega
  have steal : deque.tryStealTop capacity = (none, deque) := by
    simp only [Deque.tryStealTop, if_neg passed]
  have pop : deque.tryPopBottom capacity = (none, deque) := by
    unfold Deque.tryPopBottom
    split
    · rfl
    · next nonzero =>
        have above : ¬ deque.top ≤ deque.bottom - 1 := by
          rw [BitVec.le_def, Deque.toNat_sub_one nonzero]
          rw [BitVec.lt_def] at wrapped
          omega
        simp only [if_neg above, BitVec.sub_add_cancel]
  have push (task : Option Task) :
      (deque.tryPushBottom capacity task).2.2.bottom <
        (deque.tryPushBottom capacity task).2.2.top := by
    cases task with
    | none => exact wrapped
    | some task =>
        simp only [Deque.tryPushBottom]
        split
        · exact wrapped
        · next notFull =>
            have bound := Deque.maxSize_lt fits
            have top := deque.top.isLt
            rw [BitVec.lt_def] at wrapped
            rw [Deque.isFull_iff_le fits, BitVec.toNat_sub,
              Nat.mod_eq_of_lt (by omega)] at notFull
            change deque.bottom + 1 < deque.top
            rw [BitVec.lt_def, BitVec.toNat_add, Deque.toNat_one (by omega),
              Nat.mod_eq_of_lt (by omega)]
            omega
  cases operation with
  | push task =>
      constructor
      · rintro item ⟨⟩
      · exact push task
  | pushCopy task =>
      constructor
      · rintro item ⟨⟩
      · cases task with
        | none => exact wrapped
        | some task => exact push (some task)
  | pop =>
      simp only [Deque.run, pop]
      constructor
      · rintro item ⟨⟩
        rfl
      · exact wrapped
  | steal =>
      simp only [Deque.run, steal]
      constructor
      · rintro item ⟨⟩
        rfl
      · exact wrapped
  | approxSize | remainingSpace =>
      constructor
      · rintro item ⟨⟩
      · exact wrapped

/-- With `bottom_` in front of `top_` nothing is ever taken again. -/
theorem taken_none_of_wrapped (fits : capacity.exponent < width)
    (wrapped : deque.bottom < deque.top) (operations : List (Operation Task)) :
    ∀ item, .taken item ∈
      (device width Task capacity).answers deque operations →
        item = none := by
  induction operations generalizing deque with
  | nil => nofun
  | cons operation rest ih =>
      obtain ⟨none, still⟩ := run_wrapped fits wrapped operation
      intro item member
      obtain isFirst | later := List.mem_cons.mp member
      · exact none item isFirst.symm
      · exact ih still item later

def pairs (task : Task) : Nat → List (Operation Task)
  | 0 => []
  | times + 1 => pairs task times ++ [.push (some task), .pop]

theorem Deque.Holds.bottom_pop {last : Task}
    (holds : Deque.Holds capacity deque [last]) :
    (deque.tryPopBottom capacity).2.bottom = deque.bottom := by
  have bottom := holds.bottom
  rw [List.length_singleton] at bottom
  have nonzero : deque.bottom ≠ 0 := by
    intro zero
    have value : deque.bottom.toNat = 0 := by simp [zero]
    omega
  have same : deque.top = deque.bottom - 1 := by
    apply BitVec.eq_of_toNat_eq
    rw [Deque.toNat_sub_one nonzero]
    omega
  unfold Deque.tryPopBottom
  simp only [if_neg nonzero, ← same, if_pos (BitVec.le_refl _), if_true]
  rw [same]
  exact BitVec.sub_add_cancel ..

theorem after_pairs (fits : capacity.exponent < width) (task : Task)
    {times : Nat} (small : times < 2 ^ width) :
    Deque.Holds capacity ((device width Task capacity).after .initial
        (pairs task times)) [] ∧
      ((device width Task capacity).after .initial
        (pairs task times)).bottom.toNat = times ∧
      (device width Task capacity).Throughout (Deque.Stays capacity) .initial
        (pairs task times) := by
  induction times with
  | zero => exact ⟨Deque.holds_initial, by simp [pairs, Device.after,
      Deque.initial], trivial⟩
  | succ times ih =>
      obtain ⟨holds, bottom, stayed⟩ := ih (by omega)
      rw [pairs, Device.after_append, Device.throughout_append]
      generalize (device width Task capacity).after .initial
        (pairs task times) = deque at holds bottom ⊢
      have room := Deque.maxSize_pos capacity
      have notFull : deque.isFull capacity = false := by
        rw [Bool.eq_false_iff, ne_eq, holds.isFull_iff fits]
        exact Nat.not_le.mpr room
      have moved : (deque.bottom + 1).toNat = times + 1 := by
        rw [BitVec.toNat_add, Deque.toNat_one (by omega), bottom,
          Nat.mod_eq_of_lt small]
      have unwrapped : deque.bottom + 1 ≠ 0 := by
        intro zero
        rw [zero] at moved
        simp at moved
      have pushed := holds.push fits room task unwrapped
      have ran : (deque.run capacity (.push (some task))).2 =
          { deque with
            buffer := Function.update deque.buffer
              (Deque.slot capacity deque.bottom) (some task)
            bottom := deque.bottom + 1
            size := deque.size + 1 } := by
        simp [Deque.run, Deque.tryPushBottom, notFull]
      simp only [Device.after, Device.Throughout, device, ran]
      rw [List.nil_append] at pushed
      refine ⟨pushed.pop.2, ?_, stayed, .inr unwrapped, trivial, trivial⟩
      exact (congrArg BitVec.toNat pushed.bottom_pop).trans moved

theorem not_stays_after_pairs (fits : capacity.exponent < width)
    (first second : Task) {times : Nat} (last : times + 1 = 2 ^ width) :
    ¬ (device width Task capacity).Throughout (Deque.Stays capacity) .initial
      (pairs first times ++ [Operation.push (some second)]) := by
  intro stays
  obtain ⟨holds, bottom, _⟩ := @after_pairs width Task capacity fits first
    times (by omega)
  rw [Device.throughout_append] at stays
  obtain full | unwrapped := stays.2.1
  · rw [holds.isFull_iff fits] at full
    exact Nat.not_le.mpr (Deque.maxSize_pos capacity) full
  · apply unwrapped
    apply BitVec.eq_of_toNat_eq
    simp [BitVec.toNat_add, bottom, last]

/-- A 32-bit process pushes and pops a task until the counters have their
largest value, and pushes another one. -/
theorem wrappingCalls_strand :
    ¬ ∀ operations front : List (Operation Nat), front <+: operations →
      PopsNewest ⟨8, by decide⟩
        ((ledgered 32 Nat ⟨8, by decide⟩).after (.initial, []) front) := by
  intro claimed
  obtain ⟨times, last⟩ : ∃ times, times + 1 = 2 ^ 32 :=
    ⟨4294967295, by decide⟩
  have stays := (popsNewest_throughout_iff_from (by decide)
    (pairs 0 times ++ [Operation.push (some 1)])
    Deque.holds_initial).mp (claimed _)
  exact not_stays_after_pairs (by decide) 0 1 last stays

end Wrap

end RopHive.TaskDeque
