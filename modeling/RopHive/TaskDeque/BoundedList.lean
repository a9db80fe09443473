import Mathlib.Data.BitVec
import RopHive.TaskDeque.Sequential

namespace RopHive.TaskDeque

open Transition

/-! One call at a time, a deque is a bounded list, as long as `bottom_` does
not wrap. -/

section Capacities

variable {width : Nat}

theorem doubleUpTo_zero {x : Nat} (positive : 0 < x) (fuel : Nat) :
    doubleUpTo width x fuel 0 = none := by
  induction fuel with
  | zero => rfl
  | succ fuel ih =>
      rw [doubleUpTo, if_pos positive]
      simpa using ih

theorem double {exponent : Nat} :
    (2 ^ exponent <<< 1) % 2 ^ width =
      if exponent + 1 < width then 2 ^ (exponent + 1) else 0 := by
  have twice : 2 ^ exponent <<< 1 = 2 ^ (exponent + 1) := by
    rw [Nat.shiftLeft_eq, ← Nat.pow_add]
  rw [twice]
  split
  · next small =>
      exact Nat.mod_eq_of_lt (Nat.pow_lt_pow_right (by decide) small)
  · next large =>
      exact Nat.mod_eq_zero_of_dvd (Nat.pow_dvd_pow 2 (by omega))

/-- The loop ends at the least power of two that is not below `x`. -/
theorem doubleUpTo_eq_some {x fuel exponent result : Nat}
    (positive : 0 < x) (small : exponent < width)
    (below : ∀ other < exponent, 2 ^ other < x)
    (found : doubleUpTo width x fuel (2 ^ exponent) = some result) :
    ∃ last < width, exponent ≤ last ∧ result = 2 ^ last ∧ x ≤ result ∧
      ∀ other < last, 2 ^ other < x := by
  induction fuel generalizing exponent with
  | zero => cases found
  | succ fuel ih =>
      rw [doubleUpTo] at found
      split at found
      · next isBelow =>
          rw [double] at found
          split at found
          · next next =>
              have extended (other : Nat) (within : other < exponent + 1) :
                  2 ^ other < x := by
                obtain earlier | rfl := Nat.lt_succ_iff_lt_or_eq.mp within
                · exact below other earlier
                · exact isBelow
              obtain ⟨last, fits, later, rest⟩ := ih next extended found
              exact ⟨last, fits, by omega, rest⟩
          · rw [doubleUpTo_zero positive] at found
            cases found
      · next reached =>
          cases found
          exact ⟨exponent, small, Nat.le_refl _, rfl, by omega, below⟩

theorem doubleUpTo_isSome {x fuel exponent : Nat}
    (small : exponent < width) (reachable : x ≤ 2 ^ (width - 1))
    (enough : width - exponent ≤ fuel) :
    (doubleUpTo width x fuel (2 ^ exponent)).isSome := by
  induction fuel generalizing exponent with
  | zero => omega
  | succ fuel ih =>
      rw [doubleUpTo]
      split
      · next isBelow =>
          have next : exponent + 1 < width := by
            by_contra last
            have same : exponent = width - 1 := by omega
            rw [← same] at reachable
            omega
          rw [double, if_pos next]
          exact ih next (by omega)
      · rfl

/-- The capacity of a deque that is asked to have room for `x` tasks. -/
structure Rounds (x : Nat) (capacity : Capacity) : Prop where
  enough : max x 2 ≤ capacity.val
  least : ∀ exponent, max x 2 ≤ 2 ^ exponent → capacity.val ≤ 2 ^ exponent

theorem roundUpWithin_eq_some {x turns result : Nat} (wide : 2 ≤ width)
    (isSize : x < 2 ^ width)
    (found : roundUpWithin width x turns = some result) :
    ∃ capacity : Capacity, result = capacity.val ∧
      capacity.exponent < width ∧ Rounds x capacity := by
  unfold roundUpWithin at found
  split at found
  · next tiny =>
      cases found
      refine ⟨⟨1, Nat.one_pos⟩, rfl, wide, ?_⟩
      have two : max x 2 = 2 := by omega
      exact ⟨by rw [two]; decide, fun exponent above => by
        rw [two] at above
        exact above⟩
  · next atLeast =>
      have larger : max x 2 = x := by omega
      split at found
      · next power =>
          cases found
          obtain ⟨exponent, rfl⟩ :=
            Nat.ne_zero_and_sub_one_eq_zero_iff_isPowerOfTwo.mp
              (of_decide_eq_true power)
          have positive : 0 < exponent := by
            cases exponent with
            | zero => simp at atLeast
            | succ exponent => exact Nat.succ_pos _
          refine ⟨⟨exponent, positive⟩, rfl,
            (Nat.pow_lt_pow_iff_right (by decide)).mp isSize, ?_⟩
          exact ⟨Nat.le_of_eq larger, fun other above => by
            rwa [larger] at above⟩
      · obtain ⟨last, fits, _, rfl, above, below⟩ :=
          @doubleUpTo_eq_some width x turns 0 result (by omega) (by omega)
            nofun found
        have positive : 0 < last := by
          cases last with
          | zero => omega
          | succ last => exact Nat.succ_pos _
        refine ⟨⟨last, positive⟩, rfl, fits, ?_⟩
        refine ⟨by rw [larger]; exact above, fun other enough => ?_⟩
        rw [larger] at enough
        by_contra smaller
        have earlier : other < last :=
          (Nat.pow_lt_pow_iff_right (by decide)).mp (Nat.not_le.mp smaller)
        have under := below other earlier
        omega

theorem roundUpPow2_eq_some {x result : Nat} (wide : 2 ≤ width)
    (isSize : x < 2 ^ width) (found : roundUpPow2 width x = some result) :
    ∃ capacity : Capacity, result = capacity.val ∧
      capacity.exponent < width ∧ Rounds x capacity :=
  roundUpWithin_eq_some wide isSize found

theorem roundUpPow2_isSome {x : Nat} (wide : 2 ≤ width)
    (reachable : x ≤ 2 ^ (width - 1)) : (roundUpPow2 width x).isSome := by
  unfold roundUpPow2
  split
  · rfl
  · split
    · rfl
    · exact @doubleUpTo_isSome width x (width + 1) 0 (by omega) reachable
        (by omega)

theorem roundUpWithin_eq_none {x : Nat} (wide : 2 ≤ width)
    (isSize : x < 2 ^ width) (beyond : 2 ^ (width - 1) < x) (turns : Nat) :
    roundUpWithin width x turns = none := by
  cases found : roundUpWithin width x turns with
  | none => rfl
  | some result =>
      obtain ⟨capacity, rfl, fits, rounds⟩ :=
        roundUpWithin_eq_some wide isSize found
      have bounded : capacity.val ≤ 2 ^ (width - 1) :=
        Nat.pow_le_pow_right (by decide) (by omega)
      have enough := rounds.enough
      omega

/-- What the deque relies on in a `capacity_` made for `x` tasks. -/
structure SuitsRequest (width x capacity : Nat) : Prop where
  power : ∃ exponent, capacity = 2 ^ exponent
  fits : capacity < 2 ^ width
  enough : max x 2 ≤ capacity
  least : ∀ exponent, max x 2 ≤ 2 ^ exponent → capacity ≤ 2 ^ exponent
  masked : ∀ index : BitVec width,
    (index &&& (BitVec.ofNat width capacity - 1)).toNat =
      index.toNat % capacity
  room : 1 ≤ capacity - 1

theorem Rounds.suits {x : Nat} {capacity : Capacity}
    (fits : capacity.exponent < width) (rounds : Rounds x capacity) :
    SuitsRequest width x capacity.val := by
  have small : capacity.val < 2 ^ width :=
    Nat.pow_lt_pow_right (by decide) fits
  have enough := rounds.enough
  refine ⟨⟨_, rfl⟩, small, enough, rounds.least, fun index => ?_, by omega⟩
  have mask : (BitVec.ofNat width capacity.val - 1).toNat =
      capacity.val - 1 := by
    rw [BitVec.toNat_sub, BitVec.toNat_ofNat, Nat.mod_eq_of_lt small]
    have one : (1 : BitVec width).toNat = 1 :=
      Nat.mod_eq_of_lt (show 1 < 2 ^ width by omega)
    rw [one, show 2 ^ width - 1 + capacity.val = 2 ^ width + (capacity.val - 1)
      by omega, Nat.add_mod_left]
    exact Nat.mod_eq_of_lt (by omega)
  rw [BitVec.toNat_and, mask]
  exact Nat.and_two_pow_sub_one_eq_mod index.toNat capacity.exponent

/-- A request is rounded up, in some number of turns, exactly when there is a
power of two for it in a `size_t`. -/
theorem roundUp_suits_iff (wide : 2 ≤ width) (x : BitVec width) :
    (∃ turns capacity, roundUpWithin width x.toNat turns = some capacity ∧
        SuitsRequest width x.toNat capacity) ↔
      x.toNat ≤ 2 ^ (width - 1) := by
  constructor
  · intro ⟨turns, capacity, found, _⟩
    by_contra beyond
    rw [roundUpWithin_eq_none wide x.isLt (by omega)] at found
    cases found
  · intro reachable
    obtain ⟨result, found⟩ :=
      Option.isSome_iff_exists.mp (roundUpPow2_isSome wide reachable)
    obtain ⟨capacity, rfl, fits, rounds⟩ :=
      roundUpPow2_eq_some wide x.isLt found
    exact ⟨width + 1, capacity.val, found, rounds.suits fits⟩

theorem roundUp_suits_iff_six :
    ∃ turns capacity, roundUpWithin 64 6 turns = some capacity ∧
      SuitsRequest 64 6 capacity :=
  (roundUp_suits_iff (by decide) (6 : BitVec 64)).mpr (by decide)

/-- The least request for which the constructor never returns. -/
theorem roundUp_endless :
    ¬ ∃ turns capacity,
      roundUpWithin 64 (2 ^ 63 + 1 : BitVec 64).toNat turns = some capacity ∧
        SuitsRequest 64 (2 ^ 63 + 1 : BitVec 64).toNat capacity := by
  intro ⟨turns, capacity, found, _⟩
  rw [roundUpWithin_eq_none (by decide) (BitVec.isLt _)
    (by decide +kernel)] at found
  cases found

end Capacities

namespace Deque

section Words

variable {width : Nat} {word : BitVec width}

theorem toNat_one (wide : 1 < 2 ^ width) : (1 : BitVec width).toNat = 1 :=
  Nat.mod_eq_of_lt wide

theorem toNat_add_one (unwrapped : word + 1 ≠ 0) :
    (word + 1).toNat = word.toNat + 1 := by
  have small := word.isLt
  by_cases last : word.toNat + 1 = 2 ^ width
  · exfalso
    apply unwrapped
    apply BitVec.eq_of_toNat_eq
    simp [BitVec.toNat_add, last]
  · rw [BitVec.toNat_add, toNat_one (by omega)]
    exact Nat.mod_eq_of_lt (by omega)

theorem toNat_sub_one (nonzero : word ≠ 0) :
    (word - 1).toNat = word.toNat - 1 := by
  have positive : word.toNat ≠ 0 := by
    intro zero
    apply nonzero
    apply BitVec.eq_of_toNat_eq
    simpa using zero
  have small := word.isLt
  have one : (1 : BitVec width).toNat = 1 := toNat_one (by omega)
  rw [BitVec.toNat_sub_of_le (by rw [BitVec.le_def, one]; omega), one]

end Words

section Refinement

variable {width : Nat} {Task : Type} {capacity : Capacity}
  {deque : Deque width Task} {tasks : List Task}

/-- The tasks lie in the slots from `top_` up to `bottom_`. -/
structure Holds (capacity : Capacity) (deque : Deque width Task)
    (tasks : List Task) : Prop where
  bottom : deque.bottom.toNat = deque.top.toNat + tasks.length
  room : tasks.length ≤ capacity.maxSize
  size : deque.size.toNat = tasks.length
  items : ∀ index < tasks.length,
    deque.buffer (capacity.slot (deque.top.toNat + index)) = tasks[index]?

/-- The call does not move `bottom_` past its largest value. -/
def Stays (capacity : Capacity) (deque : Deque width Task) :
    Operation Task → Prop
  | .push (some _) | .pushCopy (some _) =>
      deque.isFull capacity = true ∨ deque.bottom + 1 ≠ 0
  | _ => True

instance (deque : Deque width Task) (operation : Operation Task) :
    Decidable (Stays capacity deque operation) :=
  match operation with
  | .push (some _) | .pushCopy (some _) =>
      inferInstanceAs (Decidable (_ ∨ _))
  | .push none | .pushCopy none | .pop | .steal | .approxSize
  | .remainingSpace => .isTrue trivial

theorem holds_initial : Holds capacity (initial : Deque width Task) [] where
  bottom := by simp [initial]
  room := Nat.zero_le _
  size := by simp [initial]
  items := nofun

theorem maxSize_pos (capacity : Capacity) : 0 < capacity.maxSize := by
  have grows : 2 ^ 1 ≤ 2 ^ capacity.exponent :=
    Nat.pow_le_pow_right (by decide) capacity.positive
  simp only [Capacity.maxSize, Capacity.val]
  omega

theorem maxSize_lt (fits : capacity.exponent < width) :
    capacity.maxSize < 2 ^ width := by
  have grows : 2 ^ capacity.exponent < 2 ^ width :=
    Nat.pow_lt_pow_right (by decide) fits
  have positive := Nat.two_pow_pos capacity.exponent
  simp only [Capacity.maxSize, Capacity.val]
  omega

theorem toNat_maxSize (fits : capacity.exponent < width) :
    (maxSize capacity : BitVec width).toNat = capacity.maxSize := by
  rw [maxSize, BitVec.toNat_ofNat, Nat.mod_eq_of_lt (maxSize_lt fits)]

theorem isFull_iff_le (fits : capacity.exponent < width) :
    deque.isFull capacity = true ↔
      capacity.maxSize ≤ (deque.bottom - deque.top).toNat := by
  rw [isFull, decide_eq_true_iff, BitVec.le_def, toNat_maxSize fits]

namespace Holds

theorem toNat_used (holds : Holds capacity deque tasks) :
    (deque.bottom - deque.top).toNat = tasks.length := by
  have bottom := holds.bottom
  rw [BitVec.toNat_sub_of_le (by rw [BitVec.le_def]; omega)]
  omega

theorem isFull_iff (fits : capacity.exponent < width)
    (holds : Holds capacity deque tasks) :
    deque.isFull capacity = true ↔ capacity.maxSize ≤ tasks.length := by
  rw [isFull_iff_le fits, holds.toNat_used]

theorem remainingSpace (fits : capacity.exponent < width)
    (holds : Holds capacity deque tasks) :
    (deque.remainingSpace capacity).toNat =
      capacity.maxSize - tasks.length := by
  have room := holds.room
  have ordered : deque.top ≤ deque.bottom := by
    rw [BitVec.le_def, holds.bottom]
    omega
  have used := holds.toNat_used
  have bound : (maxSize capacity : BitVec width).toNat = capacity.maxSize :=
    toNat_maxSize fits
  simp only [Deque.remainingSpace, if_pos ordered]
  split
  · next full =>
      rw [BitVec.le_def, bound, used] at full
      simp
      omega
  · next free =>
      rw [BitVec.le_def, bound, used] at free
      rw [BitVec.toNat_sub_of_le (by rw [BitVec.le_def, bound, used]; omega),
        bound, used]

theorem slot_ne (holds : Holds capacity deque tasks)
    (room : tasks.length < capacity.maxSize) {index : Nat}
    (inside : index < tasks.length) :
    capacity.slot (deque.top.toNat + index) ≠
      capacity.slot deque.bottom.toNat := by
  have bottom := holds.bottom
  apply capacity.slot_ne (by omega)
  simp only [Capacity.maxSize] at room
  omega

theorem push (fits : capacity.exponent < width)
    (holds : Holds capacity deque tasks)
    (room : tasks.length < capacity.maxSize) (task : Task)
    (unwrapped : deque.bottom + 1 ≠ 0) :
    Holds capacity
      { deque with
        buffer := Function.update deque.buffer
          (Deque.slot capacity deque.bottom) (some task)
        bottom := deque.bottom + 1
        size := deque.size + 1 }
      (tasks ++ [task]) where
  bottom := by
    rw [toNat_add_one unwrapped, holds.bottom, List.length_append]
    rfl
  room := by
    rw [List.length_append]
    exact room
  size := by
    have small := maxSize_lt fits
    have size := holds.size
    rw [BitVec.toNat_add, toNat_one (by omega), size,
      Nat.mod_eq_of_lt (by omega), List.length_append]
    rfl
  items := by
    intro index inside
    rw [List.length_append, List.length_singleton] at inside
    by_cases last : index = tasks.length
    · subst last
      simp [Deque.slot, holds.bottom]
    · have earlier : index < tasks.length := by omega
      rw [List.getElem?_append_left earlier, ← holds.items index earlier]
      exact Function.update_of_ne (holds.slot_ne room earlier) ..

theorem size_sub_one (holds : Holds capacity deque tasks)
    (nonempty : 0 < tasks.length) :
    (deque.size - 1).toNat = tasks.length - 1 := by
  have size := holds.size
  have nonzero : deque.size ≠ 0 := by
    intro zero
    have value : deque.size.toNat = 0 := by simp [zero]
    omega
  rw [toNat_sub_one nonzero, size]

theorem pop_nil (holds : Holds capacity deque []) :
    deque.tryPopBottom capacity = (none, deque) := by
  have bottom := holds.bottom
  rw [List.length_nil] at bottom
  unfold tryPopBottom
  split
  · rfl
  · next nonzero =>
      have below := toNat_sub_one nonzero
      have positive : deque.bottom.toNat ≠ 0 := by
        intro zero
        apply nonzero
        apply BitVec.eq_of_toNat_eq
        simpa using zero
      have passed : ¬ deque.top ≤ deque.bottom - 1 := by
        rw [BitVec.le_def]
        omega
      simp only [if_neg passed, BitVec.sub_add_cancel]

theorem pop_append {front : List Task} {last : Task}
    (holds : Holds capacity deque (front ++ [last])) :
    (deque.tryPopBottom capacity).1 = some (some last) ∧
      Holds capacity (deque.tryPopBottom capacity).2 front := by
  have bottom := holds.bottom
  have room := holds.room
  have size := holds.size_sub_one (by simp)
  rw [List.length_append, List.length_singleton] at bottom room size
  have nonzero : deque.bottom ≠ 0 := by
    intro zero
    have value : deque.bottom.toNat = 0 := by simp [zero]
    omega
  have below : (deque.bottom - 1).toNat =
      deque.top.toNat + front.length := by
    rw [toNat_sub_one nonzero]
    omega
  have reached : deque.top ≤ deque.bottom - 1 := by
    rw [BitVec.le_def]
    omega
  have item : deque.buffer (Deque.slot capacity (deque.bottom - 1)) =
      some last := by
    rw [Deque.slot, below, holds.items front.length (by simp)]
    simp
  unfold tryPopBottom
  simp only [if_neg nonzero, if_pos reached]
  split
  · next same =>
      have alone : front = [] := by
        rw [same] at below
        exact List.eq_nil_of_length_eq_zero (by omega)
      subst alone
      refine ⟨congrArg some item, ?_⟩
      exact
        { bottom := by simp [takeSlot, same]
          room := Nat.zero_le _
          size := size
          items := nofun }
  · next different =>
      refine ⟨congrArg some item, ?_⟩
      exact
        { bottom := below
          room := Nat.le_of_succ_le room
          size := size
          items := by
            intro index inside
            have kept := holds.items index (by simp; omega)
            have apart : capacity.slot (deque.top.toNat + index) ≠
                Deque.slot capacity (deque.bottom - 1) := by
              rw [Deque.slot, below]
              apply capacity.slot_ne (by omega)
              simp only [Capacity.maxSize] at room
              omega
            rw [List.getElem?_append_left inside] at kept
            exact (Function.update_of_ne apart ..).trans kept }

theorem pop (holds : Holds capacity deque tasks) :
    (deque.tryPopBottom capacity).1 = tasks.getLast?.map some ∧
      Holds capacity (deque.tryPopBottom capacity).2 tasks.dropLast := by
  obtain rfl | ⟨front, last, rfl⟩ := tasks.eq_nil_or_concat
  · rw [holds.pop_nil]
    exact ⟨rfl, holds⟩
  · rw [List.concat_eq_append] at holds ⊢
    simpa using holds.pop_append

theorem steal (holds : Holds capacity deque tasks) :
    (deque.tryStealTop capacity).1 = tasks.head?.map some ∧
      Holds capacity (deque.tryStealTop capacity).2 tasks.tail := by
  have bottom := holds.bottom
  have room := holds.room
  unfold tryStealTop
  cases tasks with
  | nil =>
      have passed : ¬ deque.top < deque.bottom := by
        rw [BitVec.lt_def, bottom]
        simp
      simp only [if_neg passed]
      exact ⟨rfl, holds⟩
  | cons first rest =>
      rw [List.length_cons] at bottom room
      have reached : deque.top < deque.bottom := by
        rw [BitVec.lt_def]
        omega
      have item : deque.buffer (Deque.slot capacity deque.top) =
          some first := by
        have kept := holds.items 0 (by simp)
        simpa [Deque.slot] using kept
      have wide := deque.bottom.isLt
      have above : (deque.top + 1).toNat = deque.top.toNat + 1 := by
        rw [BitVec.toNat_add, toNat_one (by omega)]
        exact Nat.mod_eq_of_lt (by omega)
      simp only [if_pos reached]
      refine ⟨congrArg some item, ?_⟩
      exact
        { bottom := by
            change deque.bottom.toNat = (deque.top + 1).toNat + rest.length
            omega
          room := Nat.le_of_succ_le room
          size := holds.size_sub_one (by simp)
          items := by
            intro index inside
            change index < rest.length at inside
            have kept := holds.items (index + 1) (by simp; omega)
            have apart : capacity.slot ((deque.top + 1).toNat + index) ≠
                Deque.slot capacity deque.top := by
              rw [Deque.slot, above]
              apply Ne.symm
              apply capacity.slot_ne (by omega)
              simp only [Capacity.maxSize] at room
              omega
            have same : deque.top.toNat + 1 + index =
                deque.top.toNat + (index + 1) := by omega
            rw [List.getElem?_cons_succ] at kept
            apply (Function.update_of_ne apart ..).trans
            rw [above, same]
            exact kept }

theorem step (fits : capacity.exponent < width)
    (holds : Holds capacity deque tasks) {operation : Operation Task}
    (stays : Stays capacity deque operation) :
    (deque.run capacity operation).1 =
        (boundedRun capacity.maxSize tasks operation).1 ∧
      Holds capacity (deque.run capacity operation).2
        (boundedRun capacity.maxSize tasks operation).2 := by
  have full := holds.isFull_iff fits
  cases operation with
  | push task | pushCopy task =>
      cases task with
      | none => exact ⟨rfl, holds⟩
      | some task =>
          by_cases room : tasks.length < capacity.maxSize
          · have notFull : deque.isFull capacity = false := by
              rw [Bool.eq_false_iff, ne_eq, full]
              omega
            have unwrapped : deque.bottom + 1 ≠ 0 := by
              simpa [Stays, notFull] using stays
            have pushed := holds.push fits room task unwrapped
            simpa [Deque.run, boundedRun, boundedPush, tryPushBottom,
              tryPushBottomCopy, notFull, room] using pushed
          · have isFull : deque.isFull capacity = true := by
              rw [full]
              omega
            simpa [Deque.run, boundedRun, boundedPush, tryPushBottom,
              tryPushBottomCopy, isFull, room] using holds
  | pop =>
      obtain ⟨item, rest⟩ := holds.pop
      exact ⟨congrArg Answer.taken item, rest⟩
  | steal =>
      obtain ⟨item, rest⟩ := holds.steal
      exact ⟨congrArg Answer.taken item, rest⟩
  | approxSize => exact ⟨congrArg Answer.count holds.size, holds⟩
  | remainingSpace =>
      exact ⟨congrArg Answer.count (holds.remainingSpace fits), holds⟩

end Holds

end Refinement

end Deque

section Whole

variable {width : Nat} {Task : Type}

theorem answers_eq {capacity : Capacity} (fits : capacity.exponent < width)
    {operations : List (Operation Task)}
    (stays : (device width Task capacity).Throughout (Deque.Stays capacity)
      .initial operations) :
    (device width Task capacity).answers .initial operations =
        (boundedList Task capacity.maxSize).answers [] operations ∧
      Deque.Holds capacity
        ((device width Task capacity).after .initial operations)
        ((boundedList Task capacity.maxSize).after [] operations) :=
  Device.simulates (fun _ _ _ holds stays => holds.step fits stays)
    Deque.holds_initial stays

/-- A deque made for `x` tasks, called in any order without wrapping
`bottom_`. -/
theorem refines_boundedList (wide : 2 ≤ width) {x : Nat}
    (reachable : x ≤ 2 ^ (width - 1)) :
    ∃ capacity : Capacity, roundUpPow2 width x = some capacity.val ∧
      Rounds x capacity ∧
      ∀ operations : List (Operation Task),
        (device width Task capacity).Throughout (Deque.Stays capacity)
          .initial operations →
        (device width Task capacity).answers .initial operations =
          (boundedList Task (capacity.val - 1)).answers [] operations := by
  obtain ⟨result, found⟩ :=
    Option.isSome_iff_exists.mp (roundUpPow2_isSome wide reachable)
  have isSize : x < 2 ^ width := by
    have grows : 2 ^ (width - 1) < 2 ^ width :=
      Nat.pow_lt_pow_right (by decide) (by omega)
    omega
  obtain ⟨capacity, rfl, fits, rounds⟩ :=
    roundUpPow2_eq_some wide isSize found
  exact ⟨capacity, found, rounds, fun operations stays =>
    (answers_eq fits stays).1⟩

/-- The order of the calls in the tests: newest first from the bottom, oldest
first from the top, and no room for an eighth task. -/
def mixedCalls : List (Operation Nat) :=
  [.push (some 1), .push (some 2), .pushCopy (some 3), .steal, .pop,
    .push none, .pop, .pop, .approxSize, .remainingSpace]

theorem refines_boundedList_mixedCalls :
    ∃ capacity : Capacity, roundUpPow2 64 5 = some capacity.val ∧
      (device 64 Nat capacity).answers .initial mixedCalls =
        [.pushed true none, .pushed true none, .pushed true (some 3),
          .taken (some (some 1)), .taken (some (some 3)), .pushed true none,
          .taken (some (some 2)), .taken none, .count 0, .count 7] := by
  obtain ⟨capacity, found, _, refines⟩ :=
    @refines_boundedList 64 Nat (by decide) 5 (by decide)
  have eight : roundUpPow2 64 5 = some 8 := by decide +kernel
  have value : capacity.val = 8 := by
    rw [found] at eight
    exact Option.some.inj eight
  have isThree : capacity = ⟨3, by decide⟩ := by
    have power : 2 ^ capacity.exponent = 2 ^ 3 := value
    obtain ⟨exponent, positive⟩ := capacity
    obtain rfl := (Nat.pow_right_inj (by decide)).mp power
    rfl
  subst isThree
  have stays : (device 64 Nat ⟨3, by decide⟩).Throughout
      (Deque.Stays ⟨3, by decide⟩) .initial mixedCalls := by decide +kernel
  refine ⟨_, found, (refines mixedCalls stays).trans ?_⟩
  decide +kernel

end Whole

end RopHive.TaskDeque
