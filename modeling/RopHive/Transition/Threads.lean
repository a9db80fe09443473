import Mathlib.Algebra.BigOperators.Group.Finset.Piecewise
import Mathlib.Algebra.Order.BigOperators.Group.Finset
import Mathlib.Data.Fintype.BigOperators
import Mathlib.Tactic.Ring

namespace Transition

/-! Totals over a family of threads, one member of which takes a step. -/

section Total

variable {Thread Point : Type} [Fintype Thread] [DecidableEq Thread]

def total (weight : Point → Int) (points : Thread → Point) : Int :=
  ∑ thread, weight (points thread)

theorem total_update (weight : Point → Int) (points : Thread → Point)
    (thread : Thread) (point : Point) :
    total weight (Function.update points thread point) =
      total weight points - weight (points thread) + weight point := by
  have rest : ∀ point, total weight (Function.update points thread point) =
      weight point + ∑ other ∈ Finset.univ.erase thread,
        weight (points other) := by
    intro point
    unfold total
    rw [← Finset.add_sum_erase _ _ (Finset.mem_univ thread),
      Function.update_self]
    congr 1
    apply Finset.sum_congr rfl
    intro other member
    rw [Function.update_of_ne (Finset.ne_of_mem_erase member)]
  have before := rest (points thread)
  rw [Function.update_eq_self] at before
  rw [rest, before]
  ring

omit [DecidableEq Thread] in
theorem exists_of_total_pos {weight : Point → Int}
    {points : Thread → Point} (positive : 0 < total weight points) :
    ∃ thread, 0 < weight (points thread) := by
  by_contra none
  push Not at none
  have bounded : total weight points ≤ 0 :=
    Finset.sum_nonpos fun thread _ => none thread
  omega

omit [DecidableEq Thread] in
theorem total_nonneg {weight : Point → Int}
    (nonneg : ∀ point, 0 ≤ weight point) (points : Thread → Point) :
    0 ≤ total weight points :=
  Finset.sum_nonneg fun thread _ => nonneg (points thread)

end Total

end Transition
