import FrameAtlas.Scalar.Exact
import Mathlib.Algebra.Order.Ring.Rat

namespace FrameAtlas.Scalar

theorem isUndefined_eq_false (x : Rat) : isUndefined x = false := by
  rw [isUndefined, beq_self_eq_true]
  rfl

/-- The larger of two exact numbers is their maximum, since neither is undefined. -/
theorem larger_eq_max (a b : Rat) : larger a b = max a b := by
  rw [larger, isUndefined_eq_false, if_neg Bool.false_ne_true]
  rcases lt_or_ge a b with h | h
  · rw [if_pos h, max_eq_right (le_of_lt h)]
  · rw [if_neg (not_lt.2 h), max_eq_left h]

theorem le_clamp {low high : Rat} (h : low ≤ high) (x : Rat) : low ≤ clamp low high x := by
  have hraised : low ≤ if x < low then low else x := by
    split
    · exact le_refl low
    · rename_i hnot
      exact not_lt.1 hnot
  unfold clamp
  simp only
  generalize (if x < low then low else x) = raised at hraised ⊢
  split
  · exact h
  · exact hraised

end FrameAtlas.Scalar
