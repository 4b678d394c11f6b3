import QuantityCalculus.Proofs.Fraction.Approximation

/-!
# The text of a mixed number

What is written is zero, an integer, a fraction in lowest terms below one, or both, each with the sign of the number (`Spells`); and
in exact arithmetic the text stands for the nearest of the allowed fractions (`exists_spells_write`). A fraction that is rounded up to
one is added to the integer.
-/

namespace QuantityCalculus

open ExactNumeric

/-- Exact numbers of which the integers are written in digits. -/
class ExactText (F : Type) extends ExactNumeric F where
  text_ofNat : ∀ n : ℕ, Numeric.text (Numeric.ofNat n : F) = toString n

instance : ExactText ℚ where
  text_ofNat _ := rfl

namespace Fraction

/-- The texts of the mixed numbers, whose terms have a sign: zero, an integer, a fraction, or both. -/
inductive Spells (sign : String) : String → ℚ → Prop
  | zero : Spells sign "0" 0
  | integer {n : ℕ} : 0 < n → Spells sign (sign ++ toString n) n
  | fraction {p q : ℕ} : 0 < p → p < q → p.Coprime q → Spells sign (sign ++ toString p ++ "/" ++ toString q) (p / q)
  | mixed {n p q : ℕ} : 0 < n → 0 < p → p < q → p.Coprime q →
      Spells sign (sign ++ toString n ++ " " ++ (sign ++ toString p ++ "/" ++ toString q)) (n + p / q)

/-- A fraction in lowest terms. -/
theorem lowest_terms {p q : ℕ} (hp : 0 < p) (hpq : p < q) :
    0 < p / p.gcd q ∧ p / p.gcd q < q / p.gcd q ∧ (p / p.gcd q).Coprime (q / p.gcd q) ∧
      (p / q : ℚ) = (p / p.gcd q : ℕ) / (q / p.gcd q : ℕ) := by
  have hg : 0 < p.gcd q := Nat.gcd_pos_of_pos_left q hp
  refine ⟨Nat.div_pos (Nat.gcd_le_left q hp) hg, Nat.div_lt_div_of_lt_of_dvd (Nat.gcd_dvd_right p q) hpq,
    Nat.coprime_div_gcd_div_gcd hg, ?_⟩
  have hg' : (p.gcd q : ℚ) ≠ 0 := by exact_mod_cast hg.ne'
  have hcancel {n : ℕ} (h : p.gcd q ∣ n) : (n : ℚ) = (n / p.gcd q : ℕ) * p.gcd q := by
    exact_mod_cast (Nat.div_mul_cancel h).symm
  rw [hcancel (Nat.gcd_dvd_left p q), hcancel (Nat.gcd_dvd_right p q), mul_div_mul_right _ _ hg']

variable {F : Type} [ExactText F]

/-- An exact natural number is written in digits. -/
theorem text_eq_toString {x : F} {n : ℕ} (h : toRat x = n) : Numeric.text x = toString n := by
  obtain rfl : x = Numeric.ofNat n := toRat_injective (by rw [h, toRat_ofNat])
  exact ExactText.text_ofNat n

/-- Terms spell the integer and the fraction that they are made of. -/
theorem spells_terms (sign : String) {integer : F} {n : ℕ} (hn : toRat integer = n) {p q : ℕ} (hpq : p < q) :
    Spells sign (if (terms sign integer p q).isEmpty then "0" else " ".intercalate (terms sign integer p q)) (n + p / q) := by
  have hzero : (integer == 0) = true ↔ n = 0 := by
    rw [beq_iff, hn, toRat_zero, Nat.cast_eq_zero]
  unfold terms
  rw [text_eq_toString hn]
  simp only [hzero, beq_iff_eq]
  obtain rfl | hp := Nat.eq_zero_or_pos p
  · obtain rfl | hn := Nat.eq_zero_or_pos n
    · simpa using Spells.zero
    · simpa [hn.ne'] using Spells.integer hn
  · obtain ⟨hp', hpq', hcoprime, hvalue⟩ := lowest_terms hp hpq
    rw [hvalue]
    obtain rfl | hn := Nat.eq_zero_or_pos n
    · simpa [hp.ne'] using Spells.fraction hp' hpq' hcoprime
    · simpa [hp.ne', hn.ne'] using Spells.mixed hn hp' hpq' hcoprime

/-- The text of a number spells the nearest of the allowed fractions of its magnitude. -/
theorem exists_spells_write (x : F) (b : Bounds) :
    ∃ magnitude : ℚ, Spells (if x < 0 then "-" else "") (write x b) magnitude ∧
      (∃ n : ℕ, ∃ d ∈ b.denominators, magnitude = n / d) ∧
      ∀ (n : ℤ), ∀ d ∈ b.denominators, |(|toRat x| - magnitude)| ≤ |(|toRat x| - n / d)| := by
  have hfloor : toRat (Numeric.floor (Numeric.abs x)) = (⌊|toRat x|⌋.toNat : ℕ) := by
    rw [toRat_floor, toRat_abs, ← Int.cast_natCast, Int.toNat_of_nonneg (Int.floor_nonneg.2 (abs_nonneg _))]
  have hrest : toRat (Numeric.abs x - Numeric.floor (Numeric.abs x)) = |toRat x| - (⌊|toRat x|⌋.toNat : ℕ) := by
    rw [toRat_sub, hfloor, toRat_abs]
  have hfract : toRat (Numeric.abs x - Numeric.floor (Numeric.abs x)) = Int.fract |toRat x| := by
    rw [toRat_sub, toRat_floor, toRat_abs, Int.fract]
  generalize ⌊|toRat x|⌋.toNat = whole at hfloor hrest
  obtain ⟨hmem, hle, hnearest⟩ := nearest_fraction (x := Numeric.abs x - Numeric.floor (Numeric.abs x))
    (by rw [hfract]; exact Int.fract_nonneg _) (by rw [hfract]; exact Int.fract_lt_one _) b
  unfold write
  rw [isNaN_eq_false, isInfinite_eq_false, if_neg Bool.false_ne_true, if_neg Bool.false_ne_true]
  dsimp only
  generalize nearest (Numeric.abs x - Numeric.floor (Numeric.abs x)) b.denominators = best at hmem hle hnearest ⊢
  have hdenominator : (best.denominator : ℚ) ≠ 0 := by exact_mod_cast (Bounds.pos_of_mem_denominators hmem).ne'
  refine ⟨whole + best.numerator / best.denominator, ?_, ⟨whole * best.denominator + best.numerator, best.denominator, hmem, ?_⟩, ?_⟩
  · generalize (if x < 0 then "-" else "") = sign
    by_cases hwhole : best.numerator = best.denominator
    · -- A whole unit is carried.
      have hcarry : toRat (Numeric.floor (Numeric.abs x) + 1) = (whole + 1 : ℕ) := by
        rw [toRat_add, hfloor, toRat_one, Nat.cast_succ]
      have hspells := spells_terms sign hcarry Nat.zero_lt_one
      rw [if_pos (beq_iff_eq.2 hwhole), hwhole, div_self hdenominator]
      simpa using hspells
    · rw [if_neg (fun h => hwhole (eq_of_beq h))]
      exact spells_terms sign hfloor (lt_of_le_of_ne hle hwhole)
  · push_cast
    rw [add_div, mul_div_cancel_right₀ _ hdenominator]
  · intro n d hd
    have hd' : (d : ℚ) ≠ 0 := by exact_mod_cast (Bounds.pos_of_mem_denominators hd).ne'
    have hshift : |toRat x| - n / d = toRat (Numeric.abs x - Numeric.floor (Numeric.abs x)) - (n - whole * d : ℤ) / d := by
      rw [hrest]
      push_cast
      rw [sub_div, mul_div_cancel_right₀ _ hd']
      ring
    rw [hshift, ← sub_sub, ← hrest]
    exact hnearest _ d hd

end Fraction

end QuantityCalculus
