import Mathlib.Algebra.Group.Int.Defs
import Mathlib.Algebra.Group.Nat.Defs
import Mathlib.Tactic.Common

namespace RopHive.Schedule

/-! `steady_clock` time points are nanoseconds, `Duration` is milliseconds. -/

def nanosPerMilli : Int := 1000000

def intMax : Int := 2 ^ 31 - 1

/-- The value a signed 64-bit computation leaves. -/
def wrap64 (value : Int) : Int := value.bmod (2 ^ 64)

/-- `Clock::now() + delay` in `Hive::postDelayed`, after the clamp at zero. -/
def deadlineAfter (now delay : Int) : Int :=
  let delay := if delay < 0 then 0 else delay
  wrap64 (now + wrap64 (delay * nanosPerMilli))

/-- `Clock::now() + delay`. -/
def timeAfter (now delay : Int) : Int :=
  wrap64 (now + wrap64 (delay * nanosPerMilli))

/-- The wait of `computeNextTimeoutMs` for an earliest deadline. -/
def timeoutUntil (deadline now : Int) : Int :=
  if deadline ≤ now then 0
  else
    let ms := (deadline - now) / nanosPerMilli
    if intMax < ms then intMax else ms

theorem timeoutUntil_nonneg (deadline now : Int) :
    0 ≤ timeoutUntil deadline now := by
  unfold timeoutUntil
  split
  · exact Int.le_refl 0
  · next later =>
      have passes : 0 ≤ (deadline - now) / nanosPerMilli :=
        Int.ediv_nonneg (by omega) (by decide)
      simp only
      split
      · decide
      · exact passes

theorem timeoutUntil_le {deadline now : Int} (later : now < deadline) :
    now + timeoutUntil deadline now * nanosPerMilli ≤ deadline := by
  have whole : (deadline - now) / nanosPerMilli * nanosPerMilli ≤
      deadline - now := Int.ediv_mul_le _ (by decide)
  unfold timeoutUntil
  rw [if_neg (by omega)]
  simp only
  split
  · next above =>
      have fewer := Int.mul_le_mul_of_nonneg_right (Int.le_of_lt above)
        (show (0 : Int) ≤ nanosPerMilli by decide)
      omega
  · omega

theorem timeoutUntil_le_intMax (deadline now : Int) :
    timeoutUntil deadline now ≤ intMax := by
  unfold timeoutUntil
  split
  · decide
  · simp only
    split <;> omega

theorem lt_timeoutUntil {deadline now : Int} (later : now < deadline) :
    timeoutUntil deadline now = intMax ∨
      deadline < now + (timeoutUntil deadline now + 1) * nanosPerMilli := by
  have next : deadline - now <
      ((deadline - now) / nanosPerMilli + 1) * nanosPerMilli :=
    Int.lt_ediv_add_one_mul_self _ (by decide)
  unfold timeoutUntil
  rw [if_neg (by omega)]
  simp only
  split
  · exact .inl rfl
  · exact .inr (by omega)

end RopHive.Schedule
