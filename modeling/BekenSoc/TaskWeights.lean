import Mathlib.Algebra.BigOperators.Fin
import Mathlib.Algebra.Order.BigOperators.Group.Finset

/-!
Counting tasks by the place they are at.

A weight gives every place a number; the load is the sum over all tasks.  A step
moves one task, so the load changes by the difference of two weights.
-/

namespace BekenSoc.TaskWeights

open Function

variable {Task Place : Type*} [Fintype Task]

def load (weight : Place → Nat) (place : Task → Place) : Nat := ∑ t, weight (place t)

theorem load_update [DecidableEq Task] (weight : Place → Nat) (place : Task → Place) (t : Task)
    (x : Place) : load weight (update place t x) + weight (place t) =
      load weight place + weight x := by
  have hrest : ∀ u ∈ Finset.univ.erase t, weight (update place t x u) = weight (place u) := by
    intro u hu
    rw [update_of_ne (Finset.ne_of_mem_erase hu)]
  have hnew : weight x + ∑ u ∈ Finset.univ.erase t, weight (place u) =
      load weight (update place t x) := by
    rw [← Finset.sum_congr rfl hrest]
    have hsum := Finset.add_sum_erase Finset.univ
      (fun u => weight (update place t x u)) (Finset.mem_univ t)
    rw [update_self] at hsum
    exact hsum
  have hold := Finset.add_sum_erase Finset.univ (fun u => weight (place u)) (Finset.mem_univ t)
  unfold load at *
  omega

theorem le_load (weight : Place → Nat) (place : Task → Place) (t : Task) :
    weight (place t) ≤ load weight place :=
  Finset.single_le_sum (f := fun t => weight (place t))
    (fun _ _ => Nat.zero_le _) (Finset.mem_univ t)

theorem load_pos {weight : Place → Nat} {place : Task → Place} {t : Task}
    {x : Place} (hx : place t = x) (hpos : 0 < weight x) : 0 < load weight place :=
  Nat.lt_of_lt_of_le (hx ▸ hpos) (le_load weight place t)

theorem add_le_load [DecidableEq Task] (weight : Place → Nat) (place : Task → Place) {t u : Task}
    (hne : t ≠ u) : weight (place t) + weight (place u) ≤ load weight place := by
  rw [← Finset.sum_pair (f := fun t => weight (place t)) hne]
  exact Finset.sum_le_sum_of_subset (Finset.subset_univ _)

theorem load_eq_zero {weight : Place → Nat} {place : Task → Place}
    (h : ∀ t, weight (place t) = 0) : load weight place = 0 :=
  Finset.sum_eq_zero fun t _ => h t

end BekenSoc.TaskWeights
