import QuantityCalculus.Fraction
import QuantityCalculus.Proofs.Numeric.Rounding

/-!
# The nearest fraction

In exact arithmetic, rounding the product with a denominator gives the fraction of that denominator that is nearest, and the search
over the allowed denominators keeps the nearest of these (`nearest_spec`). For a number below one the numerator found is at most the
denominator, so that a fraction or a whole one is left beside the integer part.
-/

namespace QuantityCalculus.Fraction

-- Powers of integers are those of the core library, whatever else is loaded.
attribute [local instance (1001)] instPowNat

open ExactNumeric

/-! ## Denominators -/

/-- The denominators that the bounds allow besides one. -/
def Bounds.Allows (b : Bounds) (d : ℕ) : Prop :=
  2 ≤ d ∧ (d ≤ b.all ∨ Even d ∧ d ≤ b.even ∨ (∃ k, d = 2 ^ k) ∧ d ≤ b.powersOfTwo)

/-- The search is over one and the allowed denominators. -/
theorem Bounds.mem_denominators_iff {b : Bounds} {d : ℕ} : d ∈ b.denominators ↔ d = 1 ∨ b.Allows d := by
  unfold denominators Allows
  simp only [List.mem_cons, List.mem_append, List.mem_range'_1, List.mem_map, List.mem_range]
  refine or_congr_right ⟨?_, ?_⟩
  · rintro ((hall | ⟨k, hk, rfl⟩) | ⟨k, hk, rfl⟩)
    · omega
    · exact ⟨by omega, .inr (.inl ⟨even_two_mul _, by omega⟩)⟩
    · have hne : b.powersOfTwo ≠ 0 := by
        rintro hzero
        rw [hzero, Nat.log2_zero] at hk
        nomatch hk
      have htwo : 2 ^ 1 ≤ 2 ^ (k + 1) := Nat.pow_le_pow_right (by decide) (by omega)
      exact ⟨htwo, .inr (.inr ⟨⟨k + 1, rfl⟩, (Nat.le_log2 hne).1 hk⟩)⟩
  · rintro ⟨htwo, hall | ⟨⟨k, rfl⟩, heven⟩ | ⟨⟨k, rfl⟩, hpow⟩⟩
    · exact .inl (.inl (by omega))
    · exact .inl (.inr ⟨k - 1, by omega, by omega⟩)
    · cases k with
      | zero => omega
      | succ k =>
        have hpos := Nat.two_pow_pos (k + 1)
        exact .inr ⟨k, (Nat.le_log2 (by omega)).2 hpow, rfl⟩

/-- No denominator is zero. -/
theorem Bounds.pos_of_mem_denominators {b : Bounds} {d : ℕ} (h : d ∈ b.denominators) : 0 < d := by
  rcases mem_denominators_iff.1 h with rfl | ⟨htwo, -⟩ <;> omega

/-! ## One denominator -/

variable {F : Type} [ExactNumeric F]

/-- A number that is not negative is rounded to a natural number. -/
theorem natCast_toNat {x : F} (hx : 0 ≤ toRat x) : ((toNat x : ℕ) : ℤ) = roundHalfAway (toRat x) := by
  unfold toNat
  rw [truncate_eq, toRat_round, roundTowardsZero_intCast, Int.toNat_of_nonneg (roundHalfAway_nonneg hx)]

/-- The numerator of a candidate is the product with the denominator, rounded. -/
theorem natCast_candidate_numerator {x : F} (hx : 0 ≤ toRat x) (d : ℕ) :
    ((candidate x d).numerator : ℤ) = roundHalfAway (toRat x * d) := by
  have hproduct : toRat (x * Numeric.ofNat d) = toRat x * d := by rw [toRat_mul, toRat_ofNat]
  rw [← hproduct]
  exact natCast_toNat (by rw [hproduct]; exact mul_nonneg hx d.cast_nonneg)

/-- The error of a candidate is its distance. -/
theorem toRat_candidate_error (x : F) {d : ℕ} (hd : 0 < d) :
    toRat (candidate x d).error = |toRat x - (candidate x d).numerator / d| := by
  have hd' : toRat (Numeric.ofNat d : F) ≠ 0 := by
    rw [toRat_ofNat]
    exact_mod_cast hd.ne'
  unfold candidate
  rw [toRat_abs, toRat_sub, toRat_div _ _ hd', toRat_ofNat, toRat_ofNat]

/-- No fraction of the denominator is nearer than its candidate. -/
theorem candidate_error_le {x : F} (hx : 0 ≤ toRat x) {d : ℕ} (hd : 0 < d) (n : ℤ) :
    toRat (candidate x d).error ≤ |toRat x - n / d| := by
  have hd' : (0 : ℚ) < d := by exact_mod_cast hd
  have hscaled (m : ℤ) : |toRat x - m / d| = |toRat x * d - m| / d := by
    rw [← abs_of_pos hd', ← abs_div, abs_of_pos hd', sub_div, mul_div_cancel_right₀ _ hd'.ne']
  rw [toRat_candidate_error x hd, ← Int.cast_natCast, natCast_candidate_numerator hx, hscaled, hscaled]
  exact div_le_div_of_nonneg_right (abs_sub_roundHalfAway_le _ n) hd'.le

/-- The numerator for a number below one is at most the denominator. -/
theorem candidate_numerator_le {x : F} (hx : 0 ≤ toRat x) (hlt : toRat x < 1) (d : ℕ) : (candidate x d).numerator ≤ d := by
  have hle : toRat x * d ≤ (d : ℤ) := by
    rw [Int.cast_natCast]
    exact mul_le_of_le_one_left d.cast_nonneg hlt.le
  have hround := roundHalfAway_le hle
  rw [← natCast_candidate_numerator hx] at hround
  exact_mod_cast hround

/-! ## All denominators -/

/-- The search starts with the candidate of the denominator one. -/
theorem start_eq_candidate (x : F) :
    (⟨toNat x, 1, Numeric.abs (x - Numeric.ofNat (toNat x))⟩ : Candidate F) = candidate x 1 := by
  have hone : toRat (Numeric.ofNat 1 : F) ≠ 0 := by
    rw [toRat_ofNat, Nat.cast_one]
    exact one_ne_zero
  have hmul : x * Numeric.ofNat 1 = x := toRat_injective (by rw [toRat_mul, toRat_ofNat, Nat.cast_one, mul_one])
  have hdiv (y : F) : y / Numeric.ofNat 1 = y :=
    toRat_injective (by rw [toRat_div _ _ hone, toRat_ofNat, Nat.cast_one, div_one])
  unfold candidate
  dsimp only
  rw [hmul, hdiv]

/-- The search keeps a candidate, and none of those it has seen is nearer. -/
theorem nearest_spec (x : F) (ds : List ℕ) : ∃ d ∈ 1 :: ds, nearest x ds = candidate x d ∧
    ∀ d' ∈ 1 :: ds, toRat (candidate x d).error ≤ toRat (candidate x d').error := by
  unfold nearest
  rw [start_eq_candidate]
  dsimp only
  generalize 1 = first
  induction ds generalizing first with
  | nil => exact ⟨first, List.mem_singleton_self _, rfl, fun d' hd' => by rw [List.mem_singleton.1 hd']⟩
  | cons next ds ih =>
    rw [List.foldl_cons]
    by_cases hcloser : (candidate x next).error < (candidate x first).error
    · rw [if_pos hcloser]
      obtain ⟨d, hd, hnearest, hle⟩ := ih next
      refine ⟨d, List.mem_cons_of_mem _ hd, hnearest, fun d' hd' => ?_⟩
      rcases List.mem_cons.1 hd' with rfl | hd'
      · exact (hle next (List.mem_cons_self ..)).trans ((lt_iff _ _).1 hcloser).le
      · exact hle d' hd'
    · rw [if_neg hcloser]
      obtain ⟨d, hd, hnearest, hle⟩ := ih first
      have hfirst := hle first (List.mem_cons_self ..)
      refine ⟨d, ?_, hnearest, fun d' hd' => ?_⟩
      · rcases List.mem_cons.1 hd with rfl | hd
        · exact List.mem_cons_self ..
        · exact List.mem_cons_of_mem _ (List.mem_cons_of_mem _ hd)
      · rcases List.mem_cons.1 hd' with rfl | hd'
        · exact hfirst
        rcases List.mem_cons.1 hd' with rfl | hd'
        · rw [lt_iff, not_lt] at hcloser
          exact hfirst.trans hcloser
        · exact hle d' (List.mem_cons_of_mem _ hd')

/-- The fraction that is found for a number below one has an allowed denominator, and none with such a denominator is nearer. -/
theorem nearest_fraction {x : F} (hx : 0 ≤ toRat x) (hlt : toRat x < 1) (b : Bounds) :
    (nearest x b.denominators).denominator ∈ b.denominators ∧
      (nearest x b.denominators).numerator ≤ (nearest x b.denominators).denominator ∧
      ∀ (n : ℤ), ∀ d ∈ b.denominators,
        |toRat x - (nearest x b.denominators).numerator / (nearest x b.denominators).denominator| ≤ |toRat x - n / d| := by
  have hmem (d : ℕ) : d ∈ 1 :: b.denominators ↔ d ∈ b.denominators := by
    rw [List.mem_cons, or_iff_right_of_imp]
    rintro rfl
    exact Bounds.mem_denominators_iff.2 (.inl rfl)
  obtain ⟨d, hd, hnearest, hle⟩ := nearest_spec x b.denominators
  rw [hmem] at hd
  rw [hnearest]
  refine ⟨hd, candidate_numerator_le hx hlt d, fun n d' hd' => ?_⟩
  calc |toRat x - (candidate x d).numerator / d| = toRat (candidate x d).error :=
        (toRat_candidate_error x (Bounds.pos_of_mem_denominators hd)).symm
    _ ≤ toRat (candidate x d').error := hle d' ((hmem d').2 hd')
    _ ≤ |toRat x - n / d'| := candidate_error_le hx (Bounds.pos_of_mem_denominators hd') n

end QuantityCalculus.Fraction
