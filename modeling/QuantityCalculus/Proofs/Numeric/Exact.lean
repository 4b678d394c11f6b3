import Mathlib.Algebra.Order.Field.Rat
import Mathlib.Algebra.Order.Floor.Ring
import Mathlib.Data.Rat.Floor
import Mathlib.Tactic.Ring
import QuantityCalculus.Numeric
import QuantityCalculus.Proofs.RepeatedSquaring

/-!
# Exact arithmetic

A number type computes exactly when each of its numbers is a rational and its operations are those of the rationals. What is
proved for every such type is what an algorithm means before rounding. The laws are kept apart from `Numeric`, so that a number
type that rounds stays one; nothing is said of roots, elementary functions and powers with a fractional exponent, which are not
rational.
-/

namespace QuantityCalculus

/-- The nearest integer, a half away from zero. -/
def roundHalfAway (q : ℚ) : ℤ := if q < 0 then -⌊-q + 1 / 2⌋ else ⌊q + 1 / 2⌋

/-- The integer next to a rational on the side of zero. -/
def roundTowardsZero (q : ℚ) : ℤ := if q < 0 then ⌈q⌉ else ⌊q⌋

/-- A number type whose numbers are rationals and whose arithmetic is exact. -/
class ExactNumeric (F : Type) extends Numeric F where
  /-- The rational that a number is. -/
  toRat : F → ℚ
  toRat_injective : Function.Injective toRat
  toRat_zero : toRat 0 = 0
  toRat_one : toRat 1 = 1
  toRat_add : ∀ x y : F, toRat (x + y) = toRat x + toRat y
  toRat_sub : ∀ x y : F, toRat (x - y) = toRat x - toRat y
  toRat_mul : ∀ x y : F, toRat (x * y) = toRat x * toRat y
  toRat_neg : ∀ x : F, toRat (-x) = -toRat x
  /-- Nothing is said of a quotient by zero. -/
  toRat_div : ∀ x y : F, toRat y ≠ 0 → toRat (x / y) = toRat x / toRat y
  /-- Nothing is said of a negative power of zero. -/
  toRat_pow : ∀ (x y : F) (n : ℤ), toRat y = n → (n < 0 → toRat x ≠ 0) → toRat (Numeric.pow x y) = toRat x ^ n
  toRat_ofInt : ∀ i : ℤ, toRat (Numeric.ofInt i) = i
  toRat_ofDecimal : ∀ (digits : ℕ) (scale : ℤ), toRat (Numeric.ofDecimal digits scale) = digits * 10 ^ scale
  toRat_floor : ∀ x : F, toRat (Numeric.floor x) = ⌊toRat x⌋
  toRat_ceil : ∀ x : F, toRat (Numeric.ceil x) = ⌈toRat x⌉
  toRat_round : ∀ x : F, toRat (Numeric.round x) = roundHalfAway (toRat x)
  truncate_eq : ∀ x : F, Numeric.truncate x = roundTowardsZero (toRat x)
  beq_iff : ∀ x y : F, (x == y) = true ↔ toRat x = toRat y
  lt_iff : ∀ x y : F, x < y ↔ toRat x < toRat y
  le_iff : ∀ x y : F, x ≤ y ↔ toRat x ≤ toRat y
  hasNegativeSign_iff : ∀ x : F, Numeric.hasNegativeSign x = true ↔ toRat x < 0
  isFinite_eq : ∀ x : F, Numeric.isFinite x = true

attribute [simp] ExactNumeric.toRat_zero ExactNumeric.toRat_one ExactNumeric.toRat_add ExactNumeric.toRat_sub
  ExactNumeric.toRat_mul ExactNumeric.toRat_neg ExactNumeric.toRat_ofInt ExactNumeric.toRat_ofDecimal

/-- Rounding keeps an integer. -/
theorem roundHalfAway_intCast (n : ℤ) : roundHalfAway n = n := by
  have hhalf : ⌊(1 / 2 : ℚ)⌋ = 0 := by
    rw [Int.floor_eq_iff]
    norm_num
  unfold roundHalfAway
  split
  · rw [← Int.cast_neg, Int.floor_intCast_add, hhalf, add_zero, neg_neg]
  · rw [Int.floor_intCast_add, hhalf, add_zero]

/-- Rounding towards zero keeps an integer. -/
theorem roundTowardsZero_intCast (n : ℤ) : roundTowardsZero n = n := by
  unfold roundTowardsZero
  split
  · rw [Int.ceil_intCast]
  · rw [Int.floor_intCast]

/-! ## Derived operations -/

namespace ExactNumeric

variable {F : Type} [ExactNumeric F]

/-- A natural number is itself. -/
@[simp] theorem toRat_ofNat (n : ℕ) : toRat (Numeric.ofNat n : F) = n := by
  unfold Numeric.ofNat
  rw [toRat_ofInt, Int.cast_natCast]

/-- The exact number that a rational is. -/
def ofRat (q : ℚ) : F := Numeric.ofInt q.num / Numeric.ofNat q.den

/-- Every rational is an exact number. -/
@[simp] theorem toRat_ofRat (q : ℚ) : toRat (ofRat q : F) = q := by
  have hden : toRat (Numeric.ofNat q.den : F) ≠ 0 := by
    rw [toRat_ofNat]
    exact_mod_cast q.den_ne_zero
  unfold ofRat
  rw [toRat_div _ _ hden, toRat_ofInt, toRat_ofNat, Rat.num_div_den]

/-- Every exact number is a rational. -/
@[simp] theorem ofRat_toRat (x : F) : ofRat (toRat x) = x := toRat_injective (toRat_ofRat _)

/-- Repeated squaring multiplies the result so far by a power of the square. -/
theorem toRat_powFrom (result square : F) (exponent : ℕ) :
    toRat (Id.run (powFrom (fun x y => pure (x * y)) result square exponent)) = toRat result * toRat square ^ exponent := by
  have hmul {i j : ℕ} {x y : F} (hx : toRat x = toRat result * toRat square ^ i) (hy : toRat y = toRat square ^ j) :
      toRat (x * y) = toRat result * toRat square ^ (i + j) := by
    rw [toRat_mul, hx, hy, mul_assoc, ← pow_add]
  have hsquare {j : ℕ} {y : F} (hy : toRat y = toRat square ^ j) : toRat (y * y) = toRat square ^ (j + j) := by
    rw [toRat_mul, hy, ← pow_add]
  obtain ⟨x, hpower, hx⟩ : ∃ x, powFrom (m := Id) (fun x y => pure (x * y)) result square exponent = pure x ∧
      toRat x = toRat result * toRat square ^ (0 + 1 * exponent) :=
    powFrom_induction (R := fun i x => toRat x = toRat result * toRat square ^ i) (S := fun j y => toRat y = toRat square ^ j) hmul
      hsquare (by rw [pow_zero, mul_one]) (by rw [pow_one]) exponent
  rw [hpower, Id.run_pure, hx, zero_add, one_mul]

/-- The power with an integer exponent is that of the rational, unless zero is inverted. -/
theorem toRat_powInt (x : F) {exponent : ℤ} (h : exponent < 0 → toRat x ≠ 0) :
    toRat (Numeric.powInt x exponent) = toRat x ^ exponent := by
  unfold Numeric.powInt powBySquaring
  dsimp only
  by_cases hneg : exponent < 0
  · have hpower : toRat (Id.run (powFrom (fun x y => pure (x * y)) 1 x exponent.natAbs)) = toRat x ^ exponent.natAbs := by
      rw [toRat_powFrom, toRat_one, one_mul]
    have habs : (exponent.natAbs : ℤ) = -exponent := by omega
    rw [if_pos hneg, toRat_div _ _ (by rw [hpower]; exact pow_ne_zero _ (h hneg)), hpower, toRat_one, ← zpow_natCast,
      habs, zpow_neg, one_div, inv_inv]
  · have habs : (exponent.natAbs : ℤ) = exponent := by omega
    rw [if_neg hneg, toRat_powFrom, toRat_one, one_mul, ← zpow_natCast, habs]

end ExactNumeric

/-! ## The rationals -/

/-- The rationals as a number type. What is not rational is zero. -/
instance : Numeric ℚ where
  decideLT := inferInstance
  decideLE := inferInstance
  ofInt i := i
  ofDecimal digits scale := digits * 10 ^ scale
  infinity := 0
  notANumber := 0
  pi := 0
  e := 0
  isNaN _ := false
  isInfinite _ := false
  hasNegativeSign x := x < 0
  floor x := ⌊x⌋
  ceil x := ⌈x⌉
  round x := roundHalfAway x
  truncate := roundTowardsZero
  remainder x y := x - y * roundTowardsZero (x / y)
  pow x y := if y.den = 1 then x ^ y.num else 0
  sqrt _ := 0
  elementary _ _ := 0
  angle _ _ := 0
  text x := toString x

/-- Rational arithmetic is exact. -/
instance : ExactNumeric ℚ where
  toRat x := x
  toRat_injective := Function.injective_id
  toRat_zero := rfl
  toRat_one := rfl
  toRat_add _ _ := rfl
  toRat_sub _ _ := rfl
  toRat_mul _ _ := rfl
  toRat_neg _ := rfl
  toRat_div _ _ _ := rfl
  toRat_pow x y n hy _ := by
    subst hy
    exact if_pos rfl
  toRat_ofInt _ := rfl
  toRat_ofDecimal _ _ := rfl
  toRat_floor _ := rfl
  toRat_ceil _ := rfl
  toRat_round _ := rfl
  truncate_eq _ := rfl
  beq_iff x y := beq_iff_eq
  lt_iff _ _ := Iff.rfl
  le_iff _ _ := Iff.rfl
  hasNegativeSign_iff _ := decide_eq_true_iff
  isFinite_eq _ := rfl

end QuantityCalculus
