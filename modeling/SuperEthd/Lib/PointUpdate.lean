import Mathlib.Algebra.BigOperators.Group.Finset.Basic
import Mathlib.Tactic.Abel

/-! # Sums over a table

What parties hold in all, when one of them changes: an entry of a table, and the sum over a table, after a
point update. -/

namespace PointUpdate

/-- An entry that is replaced by what counts the same. -/
theorem apply_congr {ι α β : Type} [DecidableEq ι] (g : α → β) (f : ι → α) {i : ι} {a : α} (h : g a = g (f i))
    (j : ι) : g (Function.update f i a j) = g (f j) := by
  by_cases hj : j = i
  · rw [hj, Function.update_self, h]
  · rw [Function.update_of_ne hj]

variable {ι α M : Type} [DecidableEq ι] [AddCommMonoid M] {s : Finset ι} (g : α → M) (f : ι → α) {i : ι}

/-- **The sum after an update**, where the entry is one of those that are summed. -/
theorem sum_add (hi : i ∈ s) (a : α) :
    ∑ j ∈ s, g (Function.update f i a j) + g (f i) = ∑ j ∈ s, g (f j) + g a := by
  have hrest : ∑ j ∈ s.erase i, g (Function.update f i a j) = ∑ j ∈ s.erase i, g (f j) := by
    apply Finset.sum_congr rfl
    intro j hj
    rw [Function.update_of_ne (Finset.ne_of_mem_erase hj)]
  rw [← Finset.add_sum_erase _ _ hi, ← Finset.add_sum_erase _ _ hi, hrest, Function.update_self]
  abel

/-- An entry that is not summed does not matter. -/
theorem sum_of_notMem (hi : i ∉ s) (a : α) :
    ∑ j ∈ s, g (Function.update f i a j) = ∑ j ∈ s, g (f j) := by
  apply Finset.sum_congr rfl
  intro j hj
  rw [Function.update_of_ne]
  rintro rfl
  exact hi hj

/-- Nor does one that is replaced by what counts the same. -/
theorem sum_congr {a : α} (h : g a = g (f i)) :
    ∑ j ∈ s, g (Function.update f i a j) = ∑ j ∈ s, g (f j) :=
  Finset.sum_congr rfl fun j _ => apply_congr g f h j

end PointUpdate
