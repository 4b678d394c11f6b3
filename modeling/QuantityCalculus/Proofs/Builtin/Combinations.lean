import Mathlib.Algebra.Order.Ring.Pow
import Mathlib.Data.Nat.Choose.Bounds
import QuantityCalculus.Proofs.Algebra.Bits
import QuantityCalculus.Proofs.Binary64.Arithmetic
import QuantityCalculus.Proofs.Binary64.Infinity
import QuantityCalculus.Proofs.Builtin.Arguments

/-!
# Combinations in doubles

A falling factorial of doubles is a product with an error in each factor, and infinite once it is beyond the doubles
(`approximates_fallingFactorial`). The number of combinations is a quotient of two of these, each of which can be infinite by itself:
both are from 171 factors on, so that the quotient is not a number, and with fewer factors it is only the dividend that can be
(`Builtin.binom_degenerate_iff`).
-/

namespace QuantityCalculus

open Binary64
open scoped Nat

/-! ## Products of several factors -/

/-- What a product of doubles that are at least one comes to after a number of roundings: it is within the relative error of each of
them, or infinite as the exact product is beyond the doubles with these errors. -/
inductive Approximates (k p : ℕ) (x : Float) : Prop
  | finite {v : ℚ} (hx : value? x = some v) (hone : 1 ≤ v) (hlow : p * (1 - spacing) ^ k ≤ v) (hhigh : v ≤ p * (1 + spacing) ^ k)
  | infinite (hx : x.toModel.unpack = .infinity .positive) (hp : 2 ^ 1024 ≤ p * (1 + spacing) ^ k)

namespace Approximates

variable {k k' p p' w : ℕ} {x y : Float}

/-- A product is finite and within the errors, or infinite. -/
theorem isFinite_or_infinity (h : Approximates k p x) :
    (∃ v, value? x = some v ∧ 1 ≤ v ∧ p * (1 - spacing) ^ k ≤ v ∧ v ≤ p * (1 + spacing) ^ k) ∨
      Numeric.isFinite x = false ∧ x.toModel.unpack = .infinity .positive := by
  cases h with
  | finite hx hone hlow hhigh => exact .inl ⟨_, hx, hone, hlow, hhigh⟩
  | infinite hx =>
    have hnot : Numeric.isFinite x = (!x.toModel.unpack.isNaN && !x.toModel.unpack.isInf) := rfl
    exact .inr ⟨hnot.trans (by rw [hx]; rfl), hx⟩

/-- A finite product is within the errors. -/
theorem exists_of_isFinite (h : Approximates k p x) (hfinite : Numeric.isFinite x = true) :
    ∃ v, value? x = some v ∧ 1 ≤ v ∧ p * (1 - spacing) ^ k ≤ v ∧ v ≤ p * (1 + spacing) ^ k :=
  h.isFinite_or_infinity.resolve_right fun hinfinite => Bool.false_ne_true (hinfinite.1.symm.trans hfinite)

/-- A finite product is multiplied by one more factor. -/
theorem mul (h : Approximates k p x) (hfinite : Numeric.isFinite x = true) (hy : value? y = some (w : ℚ)) (hw : 1 ≤ w) :
    Approximates (k + 1) (w * p) (x * y) := by
  obtain ⟨v, hx, hone, hlow, hhigh⟩ := h.exists_of_isFinite hfinite
  obtain ⟨hpos, hlt⟩ := spacing_bounds
  have hw' : (1 : ℚ) ≤ w := by exact_mod_cast hw
  have hupper : v * w * (1 + spacing) ≤ (w * p : ℕ) * (1 + spacing) ^ (k + 1) := by
    calc v * w * (1 + spacing) ≤ p * (1 + spacing) ^ k * w * (1 + spacing) := by gcongr
      _ = (w * p : ℕ) * (1 + spacing) ^ (k + 1) := by
          push_cast
          ring
  rcases value?_mul hx hy hone hw' with ⟨u, hu, hone', herror⟩ | ⟨hinfinite, hbeyond⟩
  · obtain ⟨hbelow, habove⟩ := abs_le.1 herror
    refine .finite hu hone' ?_ (le_trans (by linarith) hupper)
    calc ((w * p : ℕ) : ℚ) * (1 - spacing) ^ (k + 1) = p * (1 - spacing) ^ k * w * (1 - spacing) := by
          push_cast
          ring
      _ ≤ v * w * (1 - spacing) := by
          have hnonneg : 0 ≤ 1 - spacing := sub_nonneg.2 hlt.le
          gcongr
      _ ≤ u := by linarith
  · exact .infinite hinfinite (hbeyond.trans hupper)

/-- What is infinite stays so for more factors. -/
theorem of_not_isFinite (h : Approximates k p x) (hfinite : Numeric.isFinite x = false) (hk : k ≤ k') (hp : p ≤ p') :
    Approximates k' p' x := by
  cases h with
  | finite hx => exact absurd (isFinite_iff.2 ⟨_, hx⟩) (by simp [hfinite])
  | infinite hx hbeyond =>
    refine .infinite hx (hbeyond.trans ?_)
    have hone : 1 ≤ 1 + spacing := by linarith [spacing_bounds.1]
    have hp' : (p : ℚ) ≤ p' := by exact_mod_cast hp
    gcongr

end Approximates

section

variable {n k : ℕ}

/-- The loop of a falling factorial multiplies, as long as the product is finite. -/
theorem approximates_timesFalling (hn : n ≤ 2 ^ 53) {x : Float} (hx : value? x = some (n : ℚ)) {count j : ℕ} (hj : j + count ≤ n)
    {i result : Float} (hi : value? i = some (j : ℚ)) (h : Approximates j (n.descFactorial j) result) :
    Approximates (j + count) (n.descFactorial (j + count)) (timesFalling x count i result) := by
  induction count generalizing j i result with
  | zero => exact h
  | succ count ih =>
    rw [timesFalling]
    by_cases hfinite : Numeric.isFinite result = true
    · rw [if_pos hfinite]
      have hnext : value? (i + 1) = some ((j + 1 : ℕ) : ℚ) := by
        have hone : value? 1 = some ((1 : ℕ) : ℚ) := value?_toFloat (n := 1) (by decide)
        have hexact := value?_ofNat (n := j + 1) (by omega)
        rw [Nat.cast_add] at hexact ⊢
        exact value?_add hi hone hexact
      have hfactor : value? (x - i) = some ((n - j : ℕ) : ℚ) := by
        have hexact := value?_ofNat (n := n - j) (by omega)
        rw [Nat.cast_sub (by omega)] at hexact ⊢
        exact value?_sub hx hi hexact
      have hproduct := h.mul hfinite hfactor (by omega)
      rw [← Nat.descFactorial_succ] at hproduct
      have hrest := ih (by omega) hnext hproduct
      rwa [Nat.add_right_comm] at hrest
    · rw [if_neg hfinite]
      have hmono : n.descFactorial j ≤ n.descFactorial (j + (count + 1)) := by
        rw [← Nat.descFactorial_mul_descFactorial (Nat.le_add_right j (count + 1))]
        exact Nat.le_mul_of_pos_left _ (Nat.descFactorial_pos.2 (by omega))
      exact h.of_not_isFinite (Bool.eq_false_iff.2 hfinite) (by omega) hmono

/-- A falling factorial is what the product of its factors comes to. -/
theorem approximates_fallingFactorial (hn : n ≤ 2 ^ 53) (hk : k ≤ n) :
    Approximates k (n.descFactorial k) (fallingFactorial (Numeric.ofNat n : Float) k) := by
  have hone : value? 1 = some (1 : ℚ) := value?_toFloat (n := 1) (by decide)
  have hzero : value? 0 = some ((0 : ℕ) : ℚ) := congrArg some Nat.cast_zero.symm
  have hstart : Approximates 0 (n.descFactorial 0) (1 : Float) := .finite hone le_rfl (by simp) (by simp)
  have hcount : 0 + k ≤ n := by rwa [Nat.zero_add]
  have hloop := approximates_timesFalling hn (value?_ofNat hn) hcount hzero hstart
  rwa [Nat.zero_add] at hloop

/-! ## The errors of up to 171 factors -/

/-- The roundings of up to 171 factors take no more than a relative `2 ^ (-44)`. -/
theorem one_sub_spacing_pow (hk : k ≤ 171) : 1 - 1 / 2 ^ 44 ≤ (1 - spacing) ^ k := by
  have hbernoulli := one_add_mul_le_pow (a := -spacing) (by linarith [spacing_bounds.2]) k
  have hk' : (k : ℚ) ≤ 171 := by exact_mod_cast hk
  rw [← sub_eq_add_neg] at hbernoulli
  refine le_trans ?_ hbernoulli
  unfold spacing
  linarith

/-- The roundings of up to 171 factors add no more than a relative `2 ^ (-44)`. -/
theorem one_add_spacing_pow (hk : k ≤ 171) : (1 + spacing) ^ k ≤ 1 + 1 / 2 ^ 44 := by
  obtain ⟨hpos, hlt⟩ := spacing_bounds
  have hnonneg : 0 ≤ (1 + spacing) ^ k := by positivity
  have hbernoulli := one_add_mul_le_pow (a := -spacing) (by linarith) k
  have hk' : (k : ℚ) ≤ 171 := by exact_mod_cast hk
  rw [← sub_eq_add_neg] at hbernoulli
  have hproduct : (1 + spacing) ^ k * (1 - spacing) ^ k ≤ 1 := by
    rw [← mul_pow]
    exact pow_le_one₀ (by nlinarith) (by nlinarith)
  have hbound : (1 + spacing) ^ k * (1 - 171 / 2 ^ 52) ≤ 1 := by
    refine le_trans (mul_le_mul_of_nonneg_left (le_trans ?_ hbernoulli) hnonneg) hproduct
    unfold spacing
    linarith
  linarith

/-- The factorials from 171 on are beyond the doubles, whatever their roundings take. -/
theorem two_pow_le_factorial (hk : 171 ≤ k) : 2 ^ 1024 ≤ (k ! : ℚ) * (1 - spacing) ^ k := by
  induction k, hk using Nat.le_induction with
  | base =>
    have hfactorial : ((2 * 2 ^ 1024 : ℕ) : ℚ) ≤ (171)! := Nat.cast_le.2 (by decide +kernel)
    rw [Nat.cast_mul, Nat.cast_pow, Nat.cast_ofNat] at hfactorial
    have hhalf : 1 / 2 ≤ (1 - spacing) ^ 171 := le_trans (by norm_num) (one_sub_spacing_pow le_rfl)
    calc (2 : ℚ) ^ 1024 = 2 * 2 ^ 1024 * (1 / 2) := by rw [mul_comm 2, mul_assoc, mul_one_div_cancel two_ne_zero, mul_one]
      _ ≤ (171)! * (1 - spacing) ^ 171 := mul_le_mul hfactorial hhalf one_half_pos.le (Nat.cast_nonneg _)
  | succ k hk ih =>
    have hk' : (171 : ℚ) ≤ k := by exact_mod_cast hk
    have hone : 1 ≤ (k + 1) * (1 - spacing) := by
      unfold spacing
      linarith
    calc (2 : ℚ) ^ 1024 ≤ k ! * (1 - spacing) ^ k := ih
      _ ≤ k ! * (1 - spacing) ^ k * ((k + 1) * (1 - spacing)) := by
          refine le_mul_of_one_le_right ?_ hone
          have hnonneg : 0 ≤ 1 - spacing := sub_nonneg.2 spacing_bounds.2.le
          positivity
      _ = (k + 1)! * (1 - spacing) ^ (k + 1) := by
          rw [Nat.factorial_succ]
          push_cast
          ring

end

/-! ## Which products are finite -/

namespace Approximates

variable {k p : ℕ} {x : Float}

/-- A product is finite if the exact one is within the doubles with the errors. -/
theorem isFinite (h : Approximates k p x) (hk : k ≤ 171) (hp : (p : ℚ) * (1 + 1 / 2 ^ 44) < 2 ^ 1024) :
    Numeric.isFinite x = true := by
  cases h with
  | finite hx => exact isFinite_iff.2 ⟨_, hx⟩
  | infinite _ hbeyond =>
    have herror := mul_le_mul_of_nonneg_left (one_add_spacing_pow hk) (Nat.cast_nonneg (α := ℚ) p)
    exact absurd hp (hbeyond.trans herror).not_gt

/-- A product is infinite if the exact one is beyond the doubles with the errors. -/
theorem unpack_of_le (h : Approximates k p x) (hk : k ≤ 171) (hp : 2 ^ 1024 ≤ (p : ℚ) * (1 - 1 / 2 ^ 44)) :
    x.toModel.unpack = .infinity .positive := by
  cases h with
  | infinite hx => exact hx
  | finite hx _ hlow =>
    have herror := mul_le_mul_of_nonneg_left (one_sub_spacing_pow hk) (Nat.cast_nonneg (α := ℚ) p)
    exact absurd (lt_of_value? hx) (hp.trans (herror.trans hlow)).not_gt

/-- A product of 171 factors or more that is no less than the factorial is infinite. -/
theorem unpack_of_factorial_le (h : Approximates k p x) (hk : 171 ≤ k) (hp : k ! ≤ p) : x.toModel.unpack = .infinity .positive := by
  cases h with
  | infinite hx => exact hx
  | finite hx _ hlow =>
    have hnonneg : 0 ≤ 1 - spacing := sub_nonneg.2 spacing_bounds.2.le
    have hle : (k ! : ℚ) * (1 - spacing) ^ k ≤ p * (1 - spacing) ^ k :=
      mul_le_mul_of_nonneg_right (Nat.cast_le.2 hp) (pow_nonneg hnonneg k)
    exact absurd (lt_of_value? hx) ((two_pow_le_factorial hk).trans (hle.trans hlow)).not_gt

end Approximates

/-! ## Quotients of falling factorials -/

section

variable {n k : ℕ}

/-- From 171 factors on, a falling factorial is infinite. -/
theorem unpack_fallingFactorial (hn : n ≤ 2 ^ 53) (hkn : k ≤ n) (hk : 171 ≤ k) :
    (fallingFactorial (Numeric.ofNat n : Float) k).toModel.unpack = .infinity .positive := by
  refine (approximates_fallingFactorial hn hkn).unpack_of_factorial_le hk ?_
  rw [← Nat.descFactorial_self]
  exact Nat.descFactorial_le k hkn

/-- Up to 170, a factorial is finite, and it is at least two from three on. -/
theorem value?_factorial (hk : k ≤ 170) :
    ∃ w, value? (fallingFactorial (Numeric.ofNat k : Float) k) = some w ∧ 1 ≤ w ∧ (3 ≤ k → 2 ≤ w) := by
  have happrox := approximates_fallingFactorial (n := k) (k := k) (by omega) le_rfl
  rw [Nat.descFactorial_self] at happrox
  have hbound : (k ! : ℚ) * (1 + 1 / 2 ^ 44) < 2 ^ 1024 := by
    have hfactorial : ((k ! * 2 : ℕ) : ℚ) < (2 ^ 1024 : ℕ) :=
      Nat.cast_lt.2 ((Nat.mul_le_mul_right 2 (Nat.factorial_le hk)).trans_lt (by decide +kernel))
    rw [Nat.cast_mul, Nat.cast_pow, Nat.cast_ofNat] at hfactorial
    exact (mul_le_mul_of_nonneg_left (by norm_num) (Nat.cast_nonneg _)).trans_lt hfactorial
  obtain ⟨w, hw, hone, hlow, -⟩ := happrox.exists_of_isFinite (happrox.isFinite (by omega) hbound)
  refine ⟨w, hw, hone, fun hthree => le_trans ?_ hlow⟩
  have hsix : (6 : ℚ) ≤ k ! := by exact_mod_cast Nat.factorial_le hthree
  calc (2 : ℚ) ≤ 6 * (1 - 1 / 2 ^ 44) := by norm_num
    _ ≤ k ! * (1 - spacing) ^ k := mul_le_mul hsix (one_sub_spacing_pow (by omega)) (by norm_num) (Nat.cast_nonneg _)

/-- The quotient of a falling factorial by the factorial is finite if both are. -/
theorem isFinite_quotient (hn : n ≤ 2 ^ 53) (hkn : k ≤ n) (hk : k ≤ 170)
    (hfinite : Numeric.isFinite (fallingFactorial (Numeric.ofNat n : Float) k) = true) :
    Numeric.isFinite (fallingFactorial (Numeric.ofNat n : Float) k / fallingFactorial (Numeric.ofNat k) k) = true := by
  obtain ⟨v, hv, hone, -, hhigh⟩ := (approximates_fallingFactorial hn hkn).exists_of_isFinite hfinite
  obtain ⟨w, hw, hone', hthree⟩ := value?_factorial hk
  refine isFinite_iff.2 (value?_div hv hw hone hone' ?_)
  have hpos : (0 : ℚ) ≤ 2 ^ 1023 := pow_nonneg zero_le_two _
  obtain hsmall | hlarge := lt_or_ge k 3
  · -- The factorial may be one, but the falling factorial has no more than two factors.
    have hproduct : n.descFactorial k ≤ 2 ^ 106 := by
      calc n.descFactorial k ≤ n ^ k := Nat.descFactorial_le_pow n k
        _ ≤ (2 ^ 53) ^ k := Nat.pow_le_pow_left hn k
        _ ≤ (2 ^ 53) ^ 2 := Nat.pow_le_pow_right (by decide) (by omega)
        _ = 2 ^ 106 := by norm_num
    calc v ≤ n.descFactorial k * (1 + spacing) ^ k := hhigh
      _ ≤ 2 ^ 106 * (1 + 1 / 2 ^ 44) :=
          mul_le_mul (by exact_mod_cast hproduct) (one_add_spacing_pow (by omega)) (pow_nonneg (by linarith [spacing_bounds.1]) k)
            (by positivity)
      _ ≤ 2 ^ 107 := by norm_num
      _ ≤ 2 ^ 1023 := pow_le_pow_right₀ one_le_two (by decide)
      _ ≤ 2 ^ 1023 * w := le_mul_of_one_le_right hpos hone'
  · calc v ≤ 2 ^ 1024 := (lt_of_value? hv).le
      _ = 2 ^ 1023 * 2 := pow_succ 2 1023
      _ ≤ 2 ^ 1023 * w := mul_le_mul_of_nonneg_left (hthree hlarge) hpos

/-- With 171 factors or more, the quotient of a falling factorial by the factorial is not a number. -/
theorem isNaN_quotient (hn : n ≤ 2 ^ 53) (hkn : k ≤ n) (hk : 171 ≤ k) :
    Numeric.isNaN (fallingFactorial (Numeric.ofNat n : Float) k / fallingFactorial (Numeric.ofNat k) k) = true :=
  congrArg Float.Model.UnpackedFloat.isNaN
    (unpack_div_infinities (unpack_fallingFactorial hn hkn hk) (unpack_fallingFactorial (hkn.trans hn) le_rfl hk))

/-- With up to 170 factors, the quotient is infinite if the falling factorial is. -/
theorem quotient_eq_infinity (hk : k ≤ 170) {x : Float} (hx : x.toModel.unpack = .infinity .positive) :
    x / fallingFactorial (Numeric.ofNat k) k = Numeric.infinity := by
  obtain ⟨w, hw, hone, -⟩ := value?_factorial hk
  exact eq_of_infinity (unpack_div_of_infinity hx hw hone) unpack_infinity

/-- The quotient is not a number just with 171 factors or more, and finite just with fewer of which the product is finite. -/
theorem quotient_isNaN_iff_and_isFinite_iff (hn : n ≤ 2 ^ 53) (hkn : k ≤ n) {z : Float}
    (hz : z = fallingFactorial (Numeric.ofNat n) k / fallingFactorial (Numeric.ofNat k) k) :
    (Numeric.isNaN z = true ↔ 171 ≤ k) ∧
      (Numeric.isFinite z = true ↔ k ≤ 170 ∧ Numeric.isFinite (fallingFactorial (Numeric.ofNat n : Float) k) = true) := by
  obtain hlarge | hsmall := le_or_gt 171 k
  · have hnan : Numeric.isNaN z = true := hz ▸ isNaN_quotient hn hkn hlarge
    exact ⟨iff_of_true hnan hlarge, iff_of_false (by simp [Numeric.isFinite, hnan]) (by omega)⟩
  have hk : k ≤ 170 := by omega
  rcases (approximates_fallingFactorial hn hkn).isFinite_or_infinity with ⟨v, hv, -⟩ | ⟨hinfinite, hx⟩
  · have hproduct := isFinite_iff.2 ⟨v, hv⟩
    have hfinite : Numeric.isFinite z = true := hz ▸ isFinite_quotient hn hkn hk hproduct
    obtain ⟨u, hu⟩ := isFinite_iff.1 hfinite
    exact ⟨iff_of_false (by simp [isNaN_of_value? hu]) (by omega), iff_of_true hfinite ⟨hk, hproduct⟩⟩
  · obtain rfl : z = Numeric.infinity := hz.trans (quotient_eq_infinity hk hx)
    exact ⟨iff_of_false Bool.false_ne_true (by omega), iff_of_false Bool.false_ne_true (by simp [hinfinite])⟩

end

namespace Builtin

variable {c : Catalog Float} {name : String} {x y : Float} {n k : ℕ}

/-- The number of combinations of counts that are accepted is a quotient, where those left out are counted if they are fewer. -/
theorem call_binom (hx : Algebra.toInteger name x = .ok (n : ℤ)) (hy : Algebra.toInteger name y = .ok (k : ℤ)) (hkn : k ≤ n) :
    (FunctionValue.ofBuiltin .binom).call c [.number x, .number y] = .ok (.number
      (fallingFactorial (Numeric.ofNat n) (min k (n - k)) / fallingFactorial (Numeric.ofNat (min k (n - k))) (min k (n - k)))) := by
  have hcounts : counts c "binom" (.number x) (.number y) = .ok (n, k) := by
    change (Algebra.toInteger "binom" x >>= fun n => Algebra.toInteger "binom" y >>= fun k => _) = _
    rw [Algebra.toInteger_under "binom" hx, Algebra.toInteger_under "binom" hy]
    exact if_neg (by omega)
  rw [call_ofBuiltin rfl]
  change combinations c (.number x) (.number y) = _
  unfold combinations
  rw [hcounts]
  rfl

/-- The number of combinations of any counts that are accepted is computed by a falling factorial with as many factors as are chosen or
left out, whichever is less, and the factorial of that number. It is not a number just if these are 171 factors or more. Otherwise it is
finite just if the falling factorial is: so it is if the exact falling factorial is within the doubles with a relative `2 ^ (-44)`, and it
is infinite if the exact one is beyond them. -/
theorem binom_degenerate_iff (hx : Algebra.toInteger name x = .ok (n : ℤ)) (hy : Algebra.toInteger name y = .ok (k : ℤ))
    (hkn : k ≤ n) :
    ∃ z, (FunctionValue.ofBuiltin .binom).call c [.number x, .number y] = .ok (.number z) ∧
      (Numeric.isNaN z = true ↔ 171 ≤ min k (n - k)) ∧
      (Numeric.isFinite z = true ↔ min k (n - k) ≤ 170 ∧
        Numeric.isFinite (fallingFactorial (Numeric.ofNat n : Float) (min k (n - k))) = true) ∧
      (min k (n - k) ≤ 170 → (n.choose k * (min k (n - k))! : ℚ) * (1 + 1 / 2 ^ 44) < 2 ^ 1024 → Numeric.isFinite z = true) ∧
      (min k (n - k) ≤ 170 → 2 ^ 1024 ≤ (n.choose k * (min k (n - k))! : ℚ) * (1 - 1 / 2 ^ 44) → z = Numeric.infinity) := by
  obtain ⟨-, hbound⟩ := Algebra.toInteger_eq_ok_iff.1 hx
  have hn : n ≤ 2 ^ 53 := by
    rw [Nat.abs_cast] at hbound
    exact_mod_cast hbound
  have hchoose : n.choose k = n.choose (min k (n - k)) := by
    obtain h | h := le_total k (n - k)
    · rw [min_eq_left h]
    · rw [min_eq_right h, Nat.choose_symm hkn]
  rw [call_binom hx hy hkn, hchoose]
  have hle : min k (n - k) ≤ n := by omega
  generalize min k (n - k) = k at hle ⊢
  have hproduct : (n.choose k * k ! : ℚ) = (n.descFactorial k : ℕ) := by
    rw [Nat.descFactorial_eq_factorial_mul_choose, Nat.cast_mul, mul_comm]
  have happrox := approximates_fallingFactorial hn hle
  rw [hproduct]
  obtain ⟨hnan, hfinite⟩ := quotient_isNaN_iff_and_isFinite_iff hn hle rfl
  refine ⟨_, rfl, hnan, hfinite, ?_, ?_⟩
  · intro hk hp
    exact isFinite_quotient hn hle hk (happrox.isFinite (by omega) hp)
  · intro hk hp
    exact quotient_eq_infinity hk (happrox.unpack_of_le (by omega) hp)

/-- The pairs of five things are a finite number. -/
theorem binom_of_five_and_two :
    Algebra.toInteger "binom" (5 : Float) = .ok (5 : ℕ) ∧ Algebra.toInteger "binom" (2 : Float) = .ok (2 : ℕ) ∧
    ∃ z, (FunctionValue.ofBuiltin .binom).call .empty [.number (5 : Float), .number 2] = .ok (.number z) ∧
      Numeric.isNaN z = false ∧ Numeric.isFinite z = true := by
  have hx : Algebra.toInteger "binom" (5 : Float) = .ok (5 : ℕ) := rfl
  have hy : Algebra.toInteger "binom" (2 : Float) = .ok (2 : ℕ) := rfl
  obtain ⟨z, hz, hnan, -, hfinite, -⟩ := binom_degenerate_iff (c := .empty) hx hy (by decide)
  have hsmall : (Nat.choose 5 2 * (min 2 (5 - 2))! : ℚ) * (1 + 1 / 2 ^ 44) < 2 ^ 1024 :=
    lt_of_lt_of_le (by norm_num [Nat.choose]) (pow_le_pow_right₀ one_le_two (show 5 ≤ 1024 by decide))
  exact ⟨hx, hy, z, hz, Bool.eq_false_iff.2 fun h => absurd (hnan.1 h) (by decide), hfinite (by decide) hsmall⟩

/-- The ways to choose 171 of 342 things are fewer than `2 ^ 1000`, but both products are infinite. -/
theorem binom_of_half_not_a_number :
    Algebra.toInteger "binom" (342 : Float) = .ok (342 : ℕ) ∧ Algebra.toInteger "binom" (171 : Float) = .ok (171 : ℕ) ∧
    Nat.choose 342 171 < 2 ^ 1000 ∧
    ∃ z, (FunctionValue.ofBuiltin .binom).call .empty [.number (342 : Float), .number 171] = .ok (.number z) ∧
      Numeric.isNaN z = true ∧ Numeric.isFinite z = false := by
  have hx : Algebra.toInteger "binom" (342 : Float) = .ok (342 : ℕ) := rfl
  have hy : Algebra.toInteger "binom" (171 : Float) = .ok (171 : ℕ) := rfl
  have hfew {n : ℕ} (hn : n < 1000) (k : ℕ) : n.choose k < 2 ^ 1000 :=
    (Nat.choose_le_two_pow n k).trans_lt (pow_lt_pow_right₀ one_lt_two hn)
  have hnan := isNaN_quotient (n := 342) (k := 171) (by decide) (by decide) le_rfl
  exact ⟨hx, hy, hfew (by decide) 171, _, call_binom hx hy (by decide), hnan, by simp [Numeric.isFinite, hnan]⟩

end Builtin

end QuantityCalculus
