import Mathlib.Tactic.Linarith
import QuantityCalculus.Proofs.Numeric.Exact

/-!
# Rounding to an integer

The integer that a rational is rounded to is at most a half away, so that no integer is nearer (`abs_sub_roundHalfAway_le`), and it
changes its sign with the rational. In exact arithmetic signs, the magnitude and the larger of two numbers are those of the rationals.
-/

namespace QuantityCalculus

/-- Rounding is at most a half off. -/
theorem abs_sub_roundHalfAway_le_half (q : ℚ) : |q - roundHalfAway q| ≤ 1 / 2 := by
  rw [abs_le]
  unfold roundHalfAway
  split
  · have hfloor := Int.floor_le (-q + 1 / 2)
    have hlt := Int.lt_floor_add_one (-q + 1 / 2)
    push_cast
    constructor <;> linarith
  · have hfloor := Int.floor_le (q + 1 / 2)
    have hlt := Int.lt_floor_add_one (q + 1 / 2)
    constructor <;> linarith

/-- What is less than a half away from an integer is rounded to it. -/
theorem roundHalfAway_eq {q : ℚ} {n : ℤ} (h : |q - n| < 1 / 2) : roundHalfAway q = n := by
  have htriangle : |(roundHalfAway q : ℚ) - n| ≤ |q - roundHalfAway q| + |q - n| := by
    rw [abs_sub_comm q (roundHalfAway q)]
    exact abs_sub_le ..
  have hlt : |(roundHalfAway q : ℚ) - n| < 1 := by linarith [abs_sub_roundHalfAway_le_half q]
  rw [← Int.cast_sub, ← Int.cast_abs, ← Int.cast_one, Int.cast_lt, Int.abs_lt_one_iff] at hlt
  exact sub_eq_zero.1 hlt

/-- No integer is nearer than the one that a rational is rounded to. -/
theorem abs_sub_roundHalfAway_le (q : ℚ) (n : ℤ) : |q - roundHalfAway q| ≤ |q - n| := by
  rcases lt_or_ge |q - n| (1 / 2) with h | h
  · rw [roundHalfAway_eq h]
  · exact (abs_sub_roundHalfAway_le_half q).trans h

/-- Rounding goes by the magnitude. -/
theorem roundHalfAway_neg (q : ℚ) : roundHalfAway (-q) = -roundHalfAway q := by
  unfold roundHalfAway
  rcases lt_trichotomy q 0 with h | rfl | h
  · rw [if_pos h, if_neg (by linarith), neg_neg]
  · norm_num
  · rw [if_pos (by linarith), if_neg (by linarith), neg_neg]

/-- What is not negative is rounded so. -/
theorem roundHalfAway_nonneg {q : ℚ} (h : 0 ≤ q) : 0 ≤ roundHalfAway q := by
  unfold roundHalfAway
  rw [if_neg (not_lt.2 h)]
  exact Int.floor_nonneg.2 (by linarith)

/-- What is at most an integer is rounded so. -/
theorem roundHalfAway_le {q : ℚ} {n : ℤ} (h : q ≤ n) : roundHalfAway q ≤ n := by
  have hhalf := neg_le_of_abs_le (abs_sub_roundHalfAway_le_half q)
  have hlt : (roundHalfAway q : ℚ) < n + 1 := by linarith
  exact Int.lt_add_one_iff.1 (by exact_mod_cast hlt)

namespace ExactNumeric

variable {F : Type} [ExactNumeric F]

/-- An exact number that is positive. -/
theorem toRat_pos_iff (x : F) : 0 < toRat x ↔ 0 < x := by rw [lt_iff (0 : F), toRat_zero]

/-- An exact number that is negative. -/
theorem toRat_neg_iff (x : F) : toRat x < 0 ↔ x < 0 := by rw [lt_iff x, toRat_zero]

/-- An exact number that is not negative. -/
theorem toRat_nonneg_iff (x : F) : 0 ≤ toRat x ↔ 0 ≤ x := by rw [le_iff (0 : F), toRat_zero]

/-- An exact number that is not positive. -/
theorem toRat_nonpos_iff (x : F) : toRat x ≤ 0 ↔ x ≤ 0 := by rw [le_iff x, toRat_zero]

/-- The magnitude of an exact number. -/
@[simp] theorem toRat_abs (x : F) : toRat (Numeric.abs x) = |toRat x| := by
  unfold Numeric.abs
  split
  · rename_i h
    rw [toRat_neg, abs_of_neg ((hasNegativeSign_iff x).1 h)]
  · rename_i h
    rw [hasNegativeSign_iff, not_lt] at h
    rw [abs_of_nonneg h]

/-- An exact number is one. -/
theorem isNaN_eq_false (x : F) : Numeric.isNaN x = false := by
  have hfinite := isFinite_eq x
  unfold Numeric.isFinite at hfinite
  simpa using (Bool.and_eq_true_iff.1 hfinite).1

/-- An exact number is not infinite. -/
theorem isInfinite_eq_false (x : F) : Numeric.isInfinite x = false := by
  have hfinite := isFinite_eq x
  unfold Numeric.isFinite at hfinite
  simpa using (Bool.and_eq_true_iff.1 hfinite).2

/-- The larger of two exact numbers. -/
@[simp] theorem toRat_max (x y : F) : toRat (Numeric.max x y) = max (toRat x) (toRat y) := by
  unfold Numeric.max
  rw [isNaN_eq_false, if_neg Bool.false_ne_true]
  split
  · rename_i h
    exact (max_eq_right ((lt_iff x y).1 h).le).symm
  · rename_i h
    rw [lt_iff, not_lt] at h
    exact (max_eq_left h).symm

end ExactNumeric

end QuantityCalculus
