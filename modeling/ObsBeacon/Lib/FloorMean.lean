import Mathlib.Algebra.Order.BigOperators.Group.List
import Mathlib.Data.Nat.ModEq
import Mathlib.Tactic

/-! The mean of a list of natural numbers, rounded down. -/
namespace FloorMean

variable {α : Type*} {xs : List ℕ} {b : ℕ}

/-- The mean rounded down; 0 for the empty list. -/
def floorMean (xs : List ℕ) : ℕ := xs.sum / xs.length

theorem le_floorMean (hne : xs ≠ []) (h : ∀ x ∈ xs, b ≤ x) : b ≤ floorMean xs := by
  have hpos : 0 < xs.length := List.length_pos_iff.mpr hne
  have hsum := List.card_nsmul_le_sum xs b h
  rw [smul_eq_mul, mul_comm] at hsum
  exact (Nat.le_div_iff_mul_le hpos).mpr hsum

theorem floorMean_le (h : ∀ x ∈ xs, x ≤ b) : floorMean xs ≤ b := by
  have hsum := List.sum_le_card_nsmul xs b h
  rw [smul_eq_mul] at hsum
  exact Nat.div_le_of_le_mul hsum

/-- The means of two parts fall short of the mean of the whole by less than one each. -/
theorem floorMean_add (ts : List α) (f g : α → ℕ) :
    floorMean (ts.map f) + floorMean (ts.map g) ≤ floorMean (ts.map fun t => f t + g t) ∧
      floorMean (ts.map fun t => f t + g t) ≤
        floorMean (ts.map f) + floorMean (ts.map g) + 1 := by
  simp only [floorMean, List.length_map, List.sum_map_add]
  exact ⟨Nat.div_add_div_le_add_div, Nat.add_div_le_div_add_div_add_one _ _ _⟩

end FloorMean
