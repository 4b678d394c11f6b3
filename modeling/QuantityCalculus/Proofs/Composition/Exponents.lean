import Mathlib.Tactic.NormNum
import QuantityCalculus.Composition
import QuantityCalculus.Proofs.Numeric.Rounding

/-!
# Exponents as small rationals

Two rationals with small denominators are far apart (`one_div_le_abs_sub`): with denominators up to twelve, at most one of them is as near
to a number as the search for an exponent asks for (`eq_of_isNear`). So it makes no difference which denominator is tried first, and the
exponent of a unit is the rational near to it, if there is one (`rationalExponent?_eq_some_iff`).
-/

namespace QuantityCalculus

/-! ## Distances of rationals -/

/-- A rational that a factor makes an integer other than zero is not nearer to zero than the inverse of the factor. -/
theorem one_div_le_abs {q d : ℚ} {n : ℤ} (hd : 0 < d) (hn : q * d = n) (hq : q ≠ 0) : 1 / d ≤ |q| := by
  have hne : n ≠ 0 := by
    rintro rfl
    rw [Int.cast_zero] at hn
    exact mul_ne_zero hq hd.ne' hn
  have hone : (1 : ℚ) ≤ |(n : ℚ)| := by exact_mod_cast Int.one_le_abs hne
  rw [← hn, abs_mul, abs_of_pos hd] at hone
  exact (div_le_iff₀ hd).2 hone

/-- Different rationals are at least as far apart as one over the product of their denominators. -/
theorem one_div_le_abs_sub {r s : ℚ} (h : r ≠ s) : 1 / (r.den * s.den : ℚ) ≤ |r - s| := by
  have hpos : (0 : ℚ) < r.den * s.den := by exact_mod_cast Nat.mul_pos r.den_pos s.den_pos
  have hinteger : (r - s) * (r.den * s.den) = ((r.num * s.den - s.num * r.den : ℤ) : ℚ) := by
    push_cast
    rw [← Rat.mul_den_eq_num r, ← Rat.mul_den_eq_num s]
    ring
  exact one_div_le_abs hpos hinteger (sub_ne_zero.2 h)

/-- In lowest terms, neither part of a fraction is larger. -/
theorem abs_num_le_and_den_le (n : ℤ) {d : ℕ} (hd : d ≠ 0) : |(n / d : ℚ).num| ≤ |n| ∧ (n / d : ℚ).den ≤ d := by
  rw [← Int.cast_natCast, ← Rat.divInt_eq_div]
  constructor
  · rcases eq_or_ne n 0 with rfl | hn
    · rw [Rat.zero_divInt]
      exact le_rfl
    · exact Int.le_of_dvd (abs_pos.2 hn) ((abs_dvd_abs _ _).2 (Rat.num_dvd n (by exact_mod_cast hd)))
  · exact Nat.le_of_dvd (Nat.pos_of_ne_zero hd) (by exact_mod_cast Rat.den_dvd n d)

namespace Composition

open ExactNumeric

/-- A rational with a denominator up to twelve is so near to a number that it may be its exponent. -/
structure IsNear (x r : ℚ) : Prop where
  den_le : r.den ≤ 12
  abs_sub_lt : |r - x| < 1 / 10 ^ 9

/-- At most one rational is so near. -/
theorem eq_of_isNear {x r s : ℚ} (hr : IsNear x r) (hs : IsNear x s) : r = s := by
  by_contra hne
  have hrden : (r.den : ℚ) ≤ 12 := by exact_mod_cast hr.den_le
  have hsden : (s.den : ℚ) ≤ 12 := by exact_mod_cast hs.den_le
  have hproduct : (r.den * s.den : ℚ) ≤ 12 * 12 := mul_le_mul hrden hsden s.den.cast_nonneg (by norm_num)
  have hpos : (0 : ℚ) < r.den * s.den := by exact_mod_cast Nat.mul_pos r.den_pos s.den_pos
  have hfar : 1 / (12 * 12 : ℚ) ≤ |r - s| :=
    (one_div_le_one_div_of_le hpos hproduct).trans (one_div_le_abs_sub hne)
  have hnear : |r - s| < 1 / 10 ^ 9 + 1 / 10 ^ 9 :=
    calc |r - s| ≤ |r - x| + |x - s| := abs_sub_le ..
      _ = |r - x| + |s - x| := by rw [abs_sub_comm x s]
      _ < 1 / 10 ^ 9 + 1 / 10 ^ 9 := add_lt_add hr.abs_sub_lt hs.abs_sub_lt
  norm_num at hfar hnear
  linarith

variable {F : Type} [ExactNumeric F] {x : F} {r : ℚ}

/-! ## One denominator -/

/-- With one denominator, the exponent is the product with it, rounded, over it; it has to be near, and the product small. -/
theorem exponentOver?_eq_some_iff {d : ℕ} (hd : d ≠ 0) : exponentOver? x d = some r ↔
    r = roundHalfAway (toRat x * d) / d ∧ |r - toRat x| < 1 / 10 ^ 9 ∧ |roundHalfAway (toRat x * d)| < 2 ^ 63 - 1 := by
  have hd' : toRat (Numeric.ofNat d : F) ≠ 0 := by
    rw [toRat_ofNat]
    exact_mod_cast hd
  have hround : toRat (Numeric.round (x * Numeric.ofNat d)) = roundHalfAway (toRat x * d) := by
    rw [toRat_round, toRat_mul, toRat_ofNat]
  have htruncate : Numeric.truncate (Numeric.round (x * Numeric.ofNat d)) = roundHalfAway (toRat x * d) := by
    rw [truncate_eq, hround, roundTowardsZero_intCast]
  have hnear : Numeric.abs (Numeric.round (x * Numeric.ofNat d) / Numeric.ofNat d - x) < Numeric.ofDecimal 1 (-9) ↔
      |roundHalfAway (toRat x * d) / d - toRat x| < 1 / 10 ^ 9 := by
    rw [lt_iff, toRat_abs, toRat_sub, toRat_div _ _ hd', hround, toRat_ofNat, toRat_ofDecimal]
    norm_num
  have hsmall : Numeric.abs (Numeric.round (x * Numeric.ofNat d)) < Numeric.ofInt (2 ^ 63 - 1) ↔
      |roundHalfAway (toRat x * d)| < 2 ^ 63 - 1 := by
    rw [lt_iff, toRat_abs, hround, toRat_ofInt, ← Int.cast_abs, Int.cast_lt]
  unfold exponentOver?
  dsimp only
  rw [htruncate, Rat.mkRat_eq_div, Option.ite_none_right_eq_some, hnear, hsmall, Option.some.injEq]
  constructor
  · rintro ⟨⟨hlt, hbound⟩, rfl⟩
    exact ⟨rfl, hlt, hbound⟩
  · rintro ⟨rfl, hlt, hbound⟩
    exact ⟨⟨hlt, hbound⟩, rfl⟩

/-- What is found with one of the denominators is near. -/
theorem isNear_of_exponentOver? {d : ℕ} (hpos : 1 ≤ d) (hle : d ≤ 12) (h : exponentOver? x d = some r) :
    IsNear (toRat x) r ∧ |r.num| < 2 ^ 63 - 1 := by
  obtain ⟨rfl, hlt, hbound⟩ := (exponentOver?_eq_some_iff (by omega)).1 h
  obtain ⟨hnum, hden⟩ := abs_num_le_and_den_le (roundHalfAway (toRat x * d)) (d := d) (by omega)
  exact ⟨⟨hden.trans hle, hlt⟩, hnum.trans_lt hbound⟩

/-- What is near is found with its own denominator. -/
theorem exponentOver?_den (hnear : IsNear (toRat x) r) (hbound : |r.num| < 2 ^ 63 - 1) : exponentOver? x r.den = some r := by
  have hden : (0 : ℚ) < r.den := by exact_mod_cast r.den_pos
  have hle : (r.den : ℚ) ≤ 12 := by exact_mod_cast hnear.den_le
  have hround : roundHalfAway (toRat x * r.den) = r.num := by
    apply roundHalfAway_eq
    have hscaled : |toRat x * r.den - r.num| = |r - toRat x| * r.den := by
      rw [← Rat.mul_den_eq_num r, ← sub_mul, abs_mul, abs_of_pos hden, abs_sub_comm]
    calc |toRat x * r.den - r.num| = |r - toRat x| * r.den := hscaled
      _ ≤ 1 / 10 ^ 9 * 12 := mul_le_mul hnear.abs_sub_lt.le hle hden.le (by norm_num)
      _ < 1 / 2 := by norm_num
  rw [exponentOver?_eq_some_iff r.den_ne_zero, hround]
  exact ⟨(Rat.num_div_den r).symm, hnear.abs_sub_lt, hbound⟩

/-! ## The search -/

/-- The exponent is the rational that is near, if there is one. -/
theorem rationalExponent?_eq_some_iff :
    rationalExponent? x = some r ↔ IsNear (toRat x) r ∧ |r.num| < 2 ^ 63 - 1 := by
  have hsound {s : ℚ} (h : rationalExponent? x = some s) : IsNear (toRat x) s ∧ |s.num| < 2 ^ 63 - 1 := by
    unfold rationalExponent? at h
    rw [if_pos (isFinite_eq x)] at h
    obtain ⟨d, hd, hfound⟩ := List.exists_of_findSome?_eq_some h
    have hrange := List.mem_range'_1.1 hd
    exact isNear_of_exponentOver? (by omega) (by omega) hfound
  refine ⟨hsound, fun ⟨hnear, hbound⟩ => ?_⟩
  -- some denominator is successful, and all of them find the same
  have hsome : (rationalExponent? x).isSome := by
    unfold rationalExponent?
    rw [if_pos (isFinite_eq x), List.findSome?_isSome_iff]
    have hpos := r.den_pos
    have hle := hnear.den_le
    refine ⟨r.den, List.mem_range'_1.2 (by omega), ?_⟩
    rw [exponentOver?_den hnear hbound]
    rfl
  obtain ⟨s, hs⟩ := Option.isSome_iff_exists.1 hsome
  rw [hs, eq_of_isNear (hsound hs).1 hnear]

/-- A number is recognized as the small rational that it is meant to be. A fraction with a denominator up to twelve is its own exponent
in lowest terms, if its numerator has less than 63 bits; and where an exponent is found, it has such a denominator and is less than a
billionth away, as no other rational with such a denominator is. -/
theorem exponent_is_only_near_rational :
    (∀ (p : ℤ) (q : ℕ), 1 ≤ q → q ≤ 12 → |p| < 2 ^ 62 → rationalExponent? (ofRat (p / q) : F) = some (mkRat p q)) ∧
      ∀ (x : F) (r : ℚ), rationalExponent? x = some r →
        |r - toRat x| < 1 / 10 ^ 9 ∧ r.den ≤ 12 ∧ ∀ s : ℚ, s.den ≤ 12 → |s - toRat x| < 1 / 10 ^ 9 → s = r := by
  constructor
  · intro p q hpos hle hp
    obtain ⟨hnum, hden⟩ := abs_num_le_and_den_le p (d := q) (by omega)
    rw [Rat.mkRat_eq_div, rationalExponent?_eq_some_iff, toRat_ofRat]
    refine ⟨⟨hden.trans hle, ?_⟩, by omega⟩
    rw [sub_self, abs_zero]
    norm_num
  · intro x r h
    have hnear := (rationalExponent?_eq_some_iff.1 h).1
    exact ⟨hnear.abs_sub_lt, hnear.den_le, fun s hden hlt => eq_of_isNear ⟨hden, hlt⟩ hnear⟩

/-- Minus nine twelfths are minus three quarters, and a ten-billionth above a third it is still a third, and nothing else. -/
theorem exponent_near_a_third :
    ((1 ≤ 12 ∧ 12 ≤ 12 ∧ |(-9 : ℤ)| < 2 ^ 62) ∧ rationalExponent? (ofRat ((-9 : ℤ) / (12 : ℕ)) : ℚ) = some (-3 / 4)) ∧
      rationalExponent? (1 / 3 + 1 / 10 ^ 10 : ℚ) = some (1 / 3) ∧
      ∀ s : ℚ, s.den ≤ 12 → |s - (1 / 3 + 1 / 10 ^ 10)| < 1 / 10 ^ 9 → s = 1 / 3 := by
  obtain ⟨hfraction, honly⟩ := exponent_is_only_near_rational (F := ℚ)
  have hbound : |(-9 : ℤ)| < 2 ^ 62 := by decide
  have hquarters : (mkRat (-9) 12 : ℚ) = -3 / 4 := by decide +kernel
  have hthird : rationalExponent? (1 / 3 + 1 / 10 ^ 10 : ℚ) = some (1 / 3) := by decide +kernel
  rw [← hquarters]
  exact ⟨⟨⟨by decide, by decide, hbound⟩, hfraction (-9) 12 (by decide) (by decide) hbound⟩, hthird, (honly _ _ hthird).2.2⟩

end Composition

end QuantityCalculus
