import Mathlib.LinearAlgebra.Matrix.ZPow
import QuantityCalculus.Proofs.Matrix.Determinant
import QuantityCalculus.Proofs.RepeatedSquaring

/-!
# Powers of matrices

In exact arithmetic the integer powers of a matrix of numbers are those of linear algebra, so that the product of two powers is the
power with the sum of the exponents (`powers_add_exponents`). A negative exponent takes the inverse first, which a matrix with the
determinant zero does not have.
-/

namespace QuantityCalculus.Matrix

open ExactNumeric Outcome

variable {α K : Type} {r : ElementRing α} {ι : K → α} {n : ℕ}

/-- Repeated squaring gives the power with a natural exponent. -/
theorem powBySquaring_ofSquare [CommRing K] (h : r.Embeds ι) (A : Matrix.Square (n + 1) K) (k : ℕ) :
    powBySquaring (product r) (identity r (n + 1)) (ofSquare ι A) k = .ok (ofSquare ι (A ^ k)) := by
  have hmul {i j : ℕ} {x y : Matrix α} (hx : x = ofSquare ι (A ^ i)) (hy : y = ofSquare ι (A ^ j)) :
      ∃ z, product r x y = pure z ∧ z = ofSquare ι (A ^ (i + j)) := by
    subst hx hy
    refine ⟨_, ?_, rfl⟩
    rw [product_ofSquare h, pow_add]
    rfl
  have hone : identity r (n + 1) = ofSquare ι (A ^ 0) := by rw [pow_zero, identity_eq_ofSquare h]
  have hbase : ofSquare ι A = ofSquare ι (A ^ 1) := by rw [pow_one]
  obtain ⟨x, hpower, hx⟩ := powFrom_invariant (R := fun i x => x = ofSquare ι (A ^ i)) (S := fun j y => y = ofSquare ι (A ^ j))
    (product r) hmul (fun hy => hmul hy hy) hone hbase k
  unfold powBySquaring
  rw [hpower, hx, zero_add, one_mul]
  rfl

variable [Field K] {div : α → α → Outcome α}

/-- The power with an integer exponent, of a matrix that has an inverse if the exponent is negative. -/
theorem power_ofSquare (h : r.Embeds ι) (hdiv : ∀ p q, q ≠ 0 → div (ι p) (ι q) = .ok (ι (p / q))) (A : Matrix.Square (n + 1) K)
    {e : ℤ} (he : 0 ≤ e ∨ A.det ≠ 0) : power r div (ofSquare ι A) e = .ok (ofSquare ι (A ^ e)) := by
  unfold power
  rw [requireSquare_ofSquare, ok_bind, height_ofSquare]
  by_cases hneg : e < 0
  · have hexponent : e = -(e.natAbs : ℤ) := by omega
    rw [if_pos hneg, inverse_ofSquare h hdiv (he.resolve_left hneg.not_ge), ok_bind]
    dsimp only
    rw [powBySquaring_ofSquare h, Matrix.inv_pow', ← Matrix.zpow_neg_natCast, ← hexponent]
  · have hexponent : (e.natAbs : ℤ) = e := by omega
    rw [if_neg hneg, ok_bind]
    dsimp only
    rw [powBySquaring_ofSquare h, ← zpow_natCast, hexponent]

/-- A matrix without inverse has no power with a negative exponent. -/
theorem power_ofSquare_singular (h : r.Embeds ι) {A : Matrix.Square (n + 1) K} (hdet : A.det = 0) {e : ℤ} (he : e < 0) :
    power r div (ofSquare ι A) e = .error (.domain "inv" .singular) := by
  unfold power
  rw [requireSquare_ofSquare, ok_bind, if_pos he, inverse_ofSquare_singular h hdet]
  rfl

variable {F : Type} [ExactNumeric F]

/-- The powers of a matrix of numbers with a determinant other than zero are a group: each exponent has its power, the products of
powers add the exponents, and the exponents zero and one give the identity and the matrix itself. For a determinant of zero, the same
holds of the exponents that are not negative, and the negative ones have no power. -/
theorem powers_add_exponents (c : Catalog F) {n : ℕ} (hn : 0 < n) {m : Matrix (Value F)} (hm : m.IsNumeric n) :
    ∃ d : F, determinant (Builtin.elements c) m = .ok (.number d) ∧
      power (Builtin.elements c) (Algebra.div c) m 0 = .ok (identity (Builtin.elements c) n) ∧
      power (Builtin.elements c) (Algebra.div c) m 1 = .ok m ∧
      (∀ a b : ℤ, d ≠ 0 ∨ 0 ≤ a ∧ 0 ≤ b → ∃ p q s,
        power (Builtin.elements c) (Algebra.div c) m a = .ok p ∧ power (Builtin.elements c) (Algebra.div c) m b = .ok q ∧
        power (Builtin.elements c) (Algebra.div c) m (a + b) = .ok s ∧ product (Builtin.elements c) p q = .ok s) ∧
      (d = 0 → ∀ a < 0, power (Builtin.elements c) (Algebra.div c) m a = .error (.domain "inv" .singular)) := by
  obtain ⟨n, rfl⟩ := Nat.exists_eq_add_one_of_ne_zero hn.ne'
  obtain ⟨A, rfl⟩ := hm.exists_eq_ofSquare
  have hembeds := Value.embeds_ofRat (F := F) (c := c)
  have hzero : (ExactNumeric.ofRat A.det : F) = 0 ↔ A.det = 0 := by
    rw [← toRat_injective.eq_iff, toRat_ofRat, toRat_zero]
  have hpower {e : ℤ} (he : 0 ≤ e ∨ A.det ≠ 0) := power_ofSquare hembeds (fun p _ hq => Value.div_ofRat (c := c) p hq) A he
  refine ⟨ExactNumeric.ofRat A.det, determinant_ofSquare hembeds A, ?_, ?_, fun a b hab => ?_,
    fun hdet a ha => power_ofSquare_singular hembeds (hzero.1 hdet) ha⟩
  · rw [hpower (.inl le_rfl), zpow_zero, identity_eq_ofSquare hembeds]
  · rw [hpower (.inl zero_le_one), zpow_one]
  · have hadd : A ^ (a + b) = A ^ a * A ^ b := by
      rcases hab with hdet | ⟨ha, hb⟩
      · exact Matrix.zpow_add (isUnit_iff_ne_zero.2 fun h => hdet (hzero.2 h)) a b
      · exact Matrix.zpow_add_of_nonneg ha hb
    have hdefined {e : ℤ} (he : 0 ≤ a ∧ 0 ≤ b → 0 ≤ e) : 0 ≤ e ∨ A.det ≠ 0 := by
      rcases hab with hdet | hnonneg
      · exact .inr fun h => hdet (hzero.2 h)
      · exact .inl (he hnonneg)
    refine ⟨_, _, _, hpower (hdefined And.left), hpower (hdefined And.right), hpower (hdefined fun h => add_nonneg h.1 h.2), ?_⟩
    rw [product_ofSquare hembeds, hadd]

/-- A matrix to the power three, by its inverse to the power two. -/
theorem power_three_by_inverse :
    let m : Matrix (Value ℚ) := ⟨[[.number 1, .number 1], [.number 1, .number 0]]⟩
    let r : ElementRing (Value ℚ) := Builtin.elements .empty
    0 < 2 ∧ m.IsNumeric 2 ∧ (5 : ℤ) + -2 = 3 ∧ ∃ p q s,
      power r (Algebra.div .empty) m 5 = .ok p ∧ power r (Algebra.div .empty) m (-2) = .ok q ∧
      power r (Algebra.div .empty) m 3 = .ok s ∧ product r p q = .ok s := by
  intro m r
  have hm : m.IsNumeric 2 := by
    refine ⟨⟨rfl, ?_⟩, ?_⟩
    · simp [m]
    · simp [m]
  obtain ⟨d, hdet, -, -, hadd, -⟩ := powers_add_exponents .empty (by decide : 0 < 2) hm
  have hvalue : (determinant r m).toOption.bind Value.number? = some (-1) := by decide +kernel
  obtain rfl : d = -1 := by
    rw [hdet] at hvalue
    exact Option.some.inj hvalue
  exact ⟨by decide, hm, rfl, hadd 5 (-2) (.inl (by decide))⟩

end QuantityCalculus.Matrix
