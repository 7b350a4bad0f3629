import Mathlib.Algebra.BigOperators.Intervals
import Mathlib.Algebra.Order.Group.Defs

/-!
# A counter clipped from above

The counter starts full, at `cap`, and each step adds a change of either sign
and cuts what exceeds `cap`. Unrolled, its value is the least of the totals of
all its recent windows, each started full.
-/

namespace Clipped

open Finset

variable {α : Type*} [AddCommGroup α] [LinearOrder α] [IsOrderedAddMonoid α]

def level (cap : α) (change : ℕ → α) : ℕ → α
  | 0 => cap
  | k + 1 => min cap (level cap change k + change k)

variable {cap : α} {change : ℕ → α}

theorem le_level_iff {x : α} {k : ℕ} :
    x ≤ level cap change k ↔ ∀ j ≤ k, x ≤ cap + ∑ i ∈ Ico j k, change i := by
  induction k generalizing x with
  | zero =>
    constructor
    · intro h j hj
      rw [Nat.le_zero.mp hj, Ico_self, sum_empty, add_zero]
      exact h
    · intro h
      simpa [level] using h 0 le_rfl
  | succ k ih =>
    -- the window that starts now is the bound `cap`, the older ones grow by one change
    have hgrow : ∀ j ≤ k, (x ≤ cap + ∑ i ∈ Ico j (k + 1), change i ↔
        x - change k ≤ cap + ∑ i ∈ Ico j k, change i) := by
      intro j hj
      rw [sum_Ico_succ_top hj, ← add_assoc, sub_le_iff_le_add]
    rw [level, le_min_iff, ← sub_le_iff_le_add, ih]
    constructor
    · intro h j hj
      rcases Nat.le_succ_iff.mp hj with hj | rfl
      · exact (hgrow j hj).mpr (h.2 j hj)
      · rw [Ico_self, sum_empty, add_zero]
        exact h.1
    · intro h
      refine ⟨?_, fun j hj => (hgrow j hj).mp (h j (hj.trans (Nat.le_succ k)))⟩
      simpa using h (k + 1) le_rfl

end Clipped
