import QuantityCalculus.Composition.Hierarchy
import QuantityCalculus.Proofs.Numeric.Rounding

/-!
# Whole components

In exact arithmetic, the whole part of a component is the nearest integer where that is within the tolerance, relative to the
component, and else the next integer towards zero. It is less than one off (`abs_sub_wholeOf_lt_one`), and goes past the component
by no more than the tolerance (`wholeOf_sub_le`). What is left of a component never fills a whole number of a smaller unit: a rest
that would be snapped to all of the `k` smaller units in one larger unit would have been snapped to that one already
(`abs_wholeOf_mul_le`).
-/

namespace QuantityCalculus.Composition

open ExactNumeric

/-- How near to an integer, relative to its magnitude, a component counts as that integer. -/
def tolerance : ℚ := 1 / 10 ^ 9

/-- The integer part of a rational component. -/
def wholeOf (v : ℚ) : ℤ :=
  if |v - roundHalfAway v| ≤ tolerance * max |v| 1 then roundHalfAway v else if v < 0 then ⌈v⌉ else ⌊v⌋

/-- The integer part of an exact component is that of its rational. -/
theorem toRat_wholePart {F : Type} [ExactNumeric F] (x : F) : toRat (wholePart x) = wholeOf (toRat x) := by
  have htolerance : toRat (snapTolerance : F) = tolerance := by
    unfold snapTolerance tolerance
    rw [toRat_ofDecimal]
    norm_num
  have hsnap : Numeric.abs (x - Numeric.round x) ≤ snapTolerance * Numeric.max (Numeric.abs x) 1 ↔
      |toRat x - roundHalfAway (toRat x)| ≤ tolerance * max |toRat x| 1 := by
    rw [le_iff, toRat_abs, toRat_sub, toRat_round, toRat_mul, htolerance, toRat_max, toRat_abs, toRat_one]
  have hneg : x < 0 ↔ toRat x < 0 := by rw [lt_iff, toRat_zero]
  unfold wholePart wholeOf
  simp only [hsnap, hneg]
  split
  · exact toRat_round x
  split
  · exact toRat_ceil x
  · exact toRat_floor x

/-- The tolerance of a component. -/
theorem tolerance_nonneg (v : ℚ) : 0 ≤ tolerance * max |v| 1 :=
  mul_nonneg (by norm_num [tolerance]) (le_max_of_le_right zero_le_one)

/-- The whole part goes by the magnitude. -/
theorem wholeOf_neg (v : ℚ) : wholeOf (-v) = -wholeOf v := by
  have hsnap : |-v - roundHalfAway (-v)| = |v - roundHalfAway v| := by
    rw [roundHalfAway_neg, Int.cast_neg, neg_sub_neg, abs_sub_comm]
  unfold wholeOf
  rw [hsnap, abs_neg]
  split
  · exact roundHalfAway_neg v
  rcases lt_trichotomy v 0 with h | rfl | h
  · rw [if_neg (by linarith), if_pos h, Int.floor_neg]
  · norm_num
  · rw [if_pos (by linarith), if_neg (by linarith), Int.ceil_neg]

/-- The whole part of what is not negative is not. -/
theorem wholeOf_nonneg {v : ℚ} (h : 0 ≤ v) : 0 ≤ wholeOf v := by
  unfold wholeOf
  split
  · exact roundHalfAway_nonneg h
  · rw [if_neg (not_lt.2 h)]
    exact Int.floor_nonneg.2 h

/-- The whole part of what is not negative goes past it by the tolerance at most. -/
theorem wholeOf_sub_le {v : ℚ} (h : 0 ≤ v) : wholeOf v - v ≤ tolerance * max v 1 := by
  have htolerance := tolerance_nonneg v
  rw [abs_of_nonneg h] at htolerance
  unfold wholeOf
  rw [abs_of_nonneg h]
  split
  · rename_i hsnap
    rw [abs_sub_comm] at hsnap
    exact (le_abs_self _).trans hsnap
  · rw [if_neg (not_lt.2 h)]
    linarith [Int.floor_le v]

/-- The whole part is less than one off. -/
theorem abs_sub_wholeOf_lt_one (v : ℚ) : |v - wholeOf v| < 1 := by
  unfold wholeOf
  split
  · linarith [abs_sub_roundHalfAway_le_half v]
  split
  · rw [abs_sub_comm, abs_lt]
    constructor <;> linarith [Int.ceil_lt_add_one v, Int.le_ceil v]
  · rw [abs_lt]
    constructor <;> linarith [Int.floor_le v, Int.lt_floor_add_one v]

/-- What is further than the tolerance from one has no whole part. -/
theorem wholeOf_eq_zero {v : ℚ} (h : |v| < 1 - tolerance) : wholeOf v = 0 := by
  -- The whole part goes by the magnitude, so that `v` may be taken as not negative.
  wlog hv : 0 ≤ v generalizing v
  · have hneg := this (v := -v) (by rwa [abs_neg]) (by linarith)
    rwa [wholeOf_neg, neg_eq_zero] at hneg
  rw [abs_of_nonneg hv] at h
  have htolerance : 0 < tolerance := by norm_num [tolerance]
  have hle := wholeOf_sub_le hv
  rw [max_eq_right (by linarith : v ≤ 1), mul_one] at hle
  have hlt : wholeOf v < 1 := by
    have : (wholeOf v : ℚ) < 1 := by linarith
    exact_mod_cast this
  have hnonneg := wholeOf_nonneg hv
  omega

/-- A component that is almost an integer from below is that integer. -/
theorem sub_wholeOf_lt (v : ℚ) : v - wholeOf v < 1 - tolerance := by
  by_contra hge
  have htolerance : tolerance < 1 / 2 := by norm_num [tolerance]
  have hhalf := abs_sub_roundHalfAway_le_half v
  unfold wholeOf at hge
  split at hge
  · -- A snapped component is at most a half off.
    have := le_abs_self (v - roundHalfAway v)
    linarith
  split at hge
  · -- Rounded up, it is at least the component.
    linarith [Int.le_ceil v, (by norm_num [tolerance] : (0 : ℚ) < 1 - tolerance)]
  · -- Rounded down from within the tolerance, it would have been snapped up.
    rename_i hsnap _
    have hnearest := abs_sub_roundHalfAway_le v (⌊v⌋ + 1)
    have hlt := Int.lt_floor_add_one v
    have hone : tolerance * 1 ≤ tolerance * max |v| 1 :=
      mul_le_mul_of_nonneg_left (le_max_right ..) (by norm_num [tolerance])
    push_cast at hnearest
    rw [abs_of_nonpos (by linarith : v - (⌊v⌋ + 1) ≤ 0)] at hnearest
    linarith

/-- What is left of a component, measured in a unit of which `k` make one, has a whole part of less than `k`. -/
theorem abs_wholeOf_mul_le {k : ℕ} (hk : 0 < k) (v : ℚ) : |wholeOf (k * (v - wholeOf v))| ≤ k - 1 := by
  -- The whole part goes by the magnitude, so that the rest may be taken as not negative.
  wlog h : 0 ≤ v - wholeOf v generalizing v
  · have hneg := this (-v) (by rw [wholeOf_neg]; push_cast; linarith)
    have hrest : (k : ℚ) * (-v - wholeOf (-v)) = -(k * (v - wholeOf v)) := by
      rw [wholeOf_neg]
      push_cast
      ring
    rwa [hrest, wholeOf_neg, abs_neg] at hneg
  have hk' : (1 : ℚ) ≤ k := by exact_mod_cast hk
  have hrest := sub_wholeOf_lt v
  have htolerance : 0 < tolerance := by norm_num [tolerance]
  have hnonneg : 0 ≤ (k : ℚ) * (v - wholeOf v) := mul_nonneg (by linarith) h
  have hle := wholeOf_sub_le hnonneg
  have hmax : max ((k : ℚ) * (v - wholeOf v)) 1 ≤ k := max_le (by nlinarith) hk'
  have hlt : (wholeOf (k * (v - wholeOf v)) : ℚ) < k := by nlinarith
  rw [abs_of_nonneg (wholeOf_nonneg hnonneg)]
  have : wholeOf (k * (v - wholeOf v)) < k := by exact_mod_cast hlt
  omega

end QuantityCalculus.Composition
