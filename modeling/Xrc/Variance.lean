/-
The sample variance of a list over an ordered field.

The squares around any other centre than the mean sum to more, by exactly the number of elements
times the square of the distance (`squares_eq_add`). Both bounds come from it: what a rounded
mean adds, and, around the middle of the range, how large the sum gets at all
(`squares_mean_le`).
-/
import Mathlib.Algebra.BigOperators.Group.List.Basic
import Mathlib.Algebra.Order.BigOperators.Group.List
import Mathlib.Algebra.Order.Field.Basic
import Mathlib.Tactic.FieldSimp
import Mathlib.Tactic.Linarith
import Mathlib.Tactic.Ring

set_option autoImplicit false

namespace Xrc.Variance

variable {K : Type*} [Field K]

/-- The mean of a list. -/
def mean (xs : List K) : K := xs.sum / xs.length

/-- The squares of the distances from a centre, summed. -/
def squares (xs : List K) (c : K) : K := (xs.map fun x => (x - c) ^ 2).sum

/-- The sample variance. -/
def variance (xs : List K) : K := squares xs (mean xs) / (xs.length - 1)

/-- The squares around a centre, expanded. -/
theorem squares_eq (xs : List K) (c : K) :
    squares xs c = squares xs 0 - 2 * c * xs.sum + xs.length * c ^ 2 := by
  unfold squares
  induction xs with
  | nil => simp
  | cons x xs ih =>
      simp only [List.map_cons, List.sum_cons, List.length_cons, Nat.cast_add, Nat.cast_one]
      rw [ih]
      ring

section Order

variable [LinearOrder K] [IsStrictOrderedRing K] {xs : List K}

theorem length_mul_mean (hne : xs ≠ []) : xs.length * mean xs = xs.sum := by
  have hlength : (xs.length : K) ≠ 0 := Nat.cast_ne_zero.mpr (by simpa using hne)
  rw [mean, mul_div_cancel₀ _ hlength]

/-- **Around another centre** the squares sum to more, by the distance of the two centres. The sum
of the squares is therefore least around the mean, and any other centre can be measured against
it. -/
theorem squares_eq_add (hne : xs ≠ []) (c : K) :
    squares xs c = squares xs (mean xs) + xs.length * (mean xs - c) ^ 2 := by
  rw [squares_eq xs c, squares_eq xs (mean xs), ← length_mul_mean hne]
  ring

/-- The squares around the mean sum to the least. -/
theorem squares_mean_le_squares (hne : xs ≠ []) (c : K) : squares xs (mean xs) ≤ squares xs c := by
  rw [squares_eq_add hne c]
  have hlength : (0 : K) ≤ xs.length := Nat.cast_nonneg _
  have hadded : 0 ≤ xs.length * (mean xs - c) ^ 2 := mul_nonneg hlength (sq_nonneg _)
  linarith

/-- A list within reach of a centre. -/
theorem squares_le {c r : K} (h : ∀ x ∈ xs, |x - c| ≤ r) : squares xs c ≤ xs.length * r ^ 2 := by
  have heach : ∀ y ∈ xs.map fun x => (x - c) ^ 2, y ≤ r ^ 2 := by
    intro y hy
    obtain ⟨x, hx, rfl⟩ := List.mem_map.mp hy
    exact sq_le_sq.mpr (le_trans (h x hx) (le_abs_self r))
  have hsum := List.sum_le_card_nsmul _ _ heach
  rwa [List.length_map, nsmul_eq_mul] at hsum

/-- **The largest variance** of numbers between two bounds: no more than if half of them were at
each of the two. -/
theorem squares_mean_le {a b : K} (hne : xs ≠ []) (h : ∀ x ∈ xs, a ≤ x ∧ x ≤ b) :
    squares xs (mean xs) ≤ xs.length * ((b - a) / 2) ^ 2 := by
  refine le_trans (squares_mean_le_squares hne ((a + b) / 2)) (squares_le ?_)
  intro x hx
  obtain ⟨hlower, hupper⟩ := h x hx
  rw [abs_le]
  constructor
  · linarith
  · linarith

end Order

end Xrc.Variance
