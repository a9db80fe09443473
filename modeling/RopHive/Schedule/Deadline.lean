import RopHive.Schedule.Time

namespace RopHive.Schedule

/-! Deadlines of delayed tasks.  `Clock::now() + delay` converts the delay to
nanoseconds, and neither the product nor the sum is checked. -/

section Wrap

def int64Min : Int := -2 ^ 63

def int64Max : Int := 2 ^ 63 - 1

theorem wrap64_of_fits {value : Int} (above : int64Min ≤ value)
    (below : value ≤ int64Max) : wrap64 value = value := by
  simp only [wrap64, int64Min, int64Max, Int.bmod_def] at *
  omega

theorem wrap64_add_wrap64 (left right : Int) :
    wrap64 (left + wrap64 right) = wrap64 (left + right) :=
  Int.add_bmod_bmod

theorem wrap64_of_past {value : Int} (past : int64Max < value)
    (near : value < int64Max + 2 ^ 63) : wrap64 value < 0 := by
  simp only [wrap64, int64Max, Int.bmod_def] at *
  omega

end Wrap

section Deadlines

variable {now longest : Int}

theorem timeAfter_eq (now delay : Int) :
    timeAfter now delay = wrap64 (now + delay * nanosPerMilli) :=
  wrap64_add_wrap64 ..

theorem deadlineAfter_eq (now delay : Int) :
    deadlineAfter now delay = timeAfter now (max delay 0) := by
  have clamped : (if delay < 0 then 0 else delay) = max delay 0 := by
    split <;> omega
  simp only [deadlineAfter, timeAfter, clamped]

/-- What the delays from `shortest` to `longest` lead to: no deadline is before
now, and a longer delay has no earlier one. -/
structure Ordered (deadline : Int → Int) (now shortest longest : Int) :
    Prop where
  not_past : ∀ delay, shortest ≤ delay → delay ≤ longest →
    now ≤ deadline delay
  monotone : ∀ delay longer, shortest ≤ delay → delay ≤ longer →
    longer ≤ longest → deadline delay ≤ deadline longer

theorem ordered_timeAfter_iff (started : 0 ≤ now) (early : now < 2 ^ 62) :
    Ordered (timeAfter now) now 0 longest ↔
      now + longest * nanosPerMilli ≤ int64Max := by
  have exact (delay : Int) (nonneg : 0 ≤ delay)
      (fits : now + delay * nanosPerMilli ≤ int64Max) :
      timeAfter now delay = now + delay * nanosPerMilli := by
    rw [timeAfter_eq]
    apply wrap64_of_fits _ fits
    simp only [int64Min, nanosPerMilli]
    omega
  constructor
  · intro ordered
    by_contra finished
    -- the shortest delay whose deadline does not fit
    have first : 0 ≤ (int64Max - now) / nanosPerMilli + 1 ∧
        (int64Max - now) / nanosPerMilli + 1 ≤ longest ∧
          int64Max < now +
            ((int64Max - now) / nanosPerMilli + 1) * nanosPerMilli ∧
          now + ((int64Max - now) / nanosPerMilli + 1) * nanosPerMilli <
            int64Max + 2 ^ 63 := by
      simp only [int64Max, nanosPerMilli] at *
      omega
    obtain ⟨nonneg, within, past, near⟩ := first
    have notPast := ordered.not_past _ nonneg within
    rw [timeAfter_eq] at notPast
    have negative := wrap64_of_past past near
    omega
  · intro fits
    have below (delay : Int) (within : delay ≤ longest) :
        now + delay * nanosPerMilli ≤ int64Max := by
      simp only [nanosPerMilli] at *
      omega
    constructor
    · intro delay nonneg within
      rw [exact delay nonneg (below delay within)]
      simp only [nanosPerMilli]
      omega
    · intro delay longer nonneg ordered within
      rw [exact delay nonneg (below delay (by omega)),
        exact longer (by omega) (below longer within)]
      simp only [nanosPerMilli]
      omega

theorem ordered_deadlineAfter_iff (started : 0 ≤ now)
    (early : now < 2 ^ 62) :
    Ordered (deadlineAfter now) now int64Min longest ↔
      now + max longest 0 * nanosPerMilli ≤ int64Max := by
  rw [← ordered_timeAfter_iff started early]
  constructor
  · intro ordered
    by_cases negative : longest < 0
    · rw [ordered_timeAfter_iff started early]
      simp only [int64Max, nanosPerMilli]
      omega
    · have clamped : max longest 0 = longest := by omega
      have same (delay : Int) (nonneg : 0 ≤ delay) :
          deadlineAfter now delay = timeAfter now delay := by
        rw [deadlineAfter_eq, Int.max_eq_left nonneg]
      rw [clamped]
      constructor
      · intro delay nonneg within
        rw [← same delay nonneg]
        exact ordered.not_past delay (by simp only [int64Min]; omega) within
      · intro delay longer nonneg later within
        rw [← same delay nonneg, ← same longer (by omega)]
        exact ordered.monotone delay longer
          (by simp only [int64Min]; omega) later within
  · intro ordered
    constructor
    · intro delay _ within
      rw [deadlineAfter_eq]
      exact ordered.not_past _ (by omega) (by omega)
    · intro delay longer _ later within
      rw [deadlineAfter_eq, deadlineAfter_eq]
      exact ordered.monotone _ _ (by omega) (by omega) (by omega)

/-- `Hive::postDelayed` and `EventLoop::postDelayed` with delays up to
`longest`, the first also with negative ones. -/
theorem deadlines_ordered_iff (started : 0 ≤ now) (early : now < 2 ^ 62) :
    (Ordered (deadlineAfter now) now int64Min longest ↔
      now + max longest 0 * nanosPerMilli ≤ int64Max) ∧
    (Ordered (timeAfter now) now 0 longest ↔
      now + longest * nanosPerMilli ≤ int64Max) :=
  ⟨ordered_deadlineAfter_iff started early,
    ordered_timeAfter_iff started early⟩

theorem deadlines_ordered_iff_aDayAhead :
    Ordered (deadlineAfter 5000000000) 5000000000 int64Min 86400000 ∧
      Ordered (timeAfter 5000000000) 5000000000 0 86400000 :=
  have iffs := @deadlines_ordered_iff 5000000000 86400000 (by decide)
    (by decide)
  ⟨iffs.1.mpr (by decide), iffs.2.mpr (by decide)⟩

/-- The longest delay of all has a deadline a millisecond ago. -/
theorem longestDelay_past :
    ¬ ∀ now, 0 ≤ now → now < 2 ^ 62 →
      Ordered (deadlineAfter now) now int64Min int64Max ∧
        Ordered (timeAfter now) now 0 int64Max := by
  intro claimed
  have notPast := (claimed 5000000000 (by decide) (by decide)).1.not_past
    int64Max (by decide) (by decide)
  revert notPast
  decide

end Deadlines

end RopHive.Schedule
