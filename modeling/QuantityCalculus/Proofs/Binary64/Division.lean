import QuantityCalculus.Proofs.Binary64.ExactIntegers

/-!
# Quotients of doubles

The quotient of two mantissas with all bits has bits enough to be rounded to a number in place, and it passes no power of two that the
exact quotient does not (`exists_div`). So the reciprocal of what is at least two in magnitude is between zero and a half
(`value?_reciprocal`), and the reciprocals of one and minus one are exact (`value?_reciprocal_of_abs_eq_one`).
-/

namespace QuantityCalculus.Binary64

open Float.Model Float.Model.UnpackedFloat

section

variable {m m' : ℕ} {e e' : ℤ}

/-- The places that a mantissa with all bits gets before it is divided by another one: 53, or as many as the least exponent leaves. -/
theorem divCore_eq (hm : m.log2 = 52) (hm' : m'.log2 = 52) (he : -1074 < e - e') :
    ∃ places : ℕ, 0 < places ∧ -1074 ≤ e - e' - places ∧ (places = 53 ∨ e - e' - places = -1074) ∧
      divCore .binary64 m e m' e' =
        (m * 2 ^ places / m', e - e' - places, accuracyOfFraction (m * 2 ^ places % m') m') := by
  have hmin : Format.binary64.minExponent = -1074 := by decide
  have hbits : Format.binary64.mantissaBits = 53 := rfl
  have htarget : Format.binary64.targetExponent (totalExponent m e - totalExponent m' e') = max (e - e' - 53) (-1074) := by
    unfold Format.targetExponent totalExponent
    rw [hmin, hbits, hm, hm']
    omega
  refine ⟨(e - e' - max (e - e' - 53) (-1074)).toNat, by omega, by omega, by omega, ?_⟩
  unfold divCore
  rw [htarget, min_eq_right (by omega)]
  dsimp only
  rw [Nat.shiftLeft_eq]
  refine Prod.ext rfl (Prod.ext ?_ rfl)
  dsimp only
  omega

/-- The quotient of mantissas with all bits has all places but one. -/
theorem two_pow_le_quotient (hm' : 0 < m') (hlog : m.log2 = 52) (hlog' : m'.log2 = 52) {places : ℕ} (hplaces : 0 < places) :
    2 ^ (places - 1) ≤ m * 2 ^ places / m' := by
  obtain ⟨hlow, -⟩ := log2_eq_iff_full.1 hlog
  obtain ⟨-, hhigh⟩ := log2_eq_iff_full.1 hlog'
  refine (Nat.le_div_iff_mul_le hm').2 ?_
  calc 2 ^ (places - 1) * m' ≤ 2 ^ (places - 1) * 2 ^ 53 := Nat.mul_le_mul_left _ hhigh.le
    _ = 2 ^ 52 * 2 ^ places := by
        rw [← pow_add, ← pow_add]
        congr 1
        omega
    _ ≤ m * 2 ^ places := Nat.mul_le_mul_right _ hlow

/-- The quotient of mantissas is at most what the exact quotient is at most, and less if there is a rest. -/
theorem quotient_mul_le (hm' : 0 < m') (places : ℕ) {v : ℚ} (h : (m : ℚ) * 2 ^ e ≤ v * (m' * 2 ^ e')) :
    ((m * 2 ^ places / m' : ℕ) : ℚ) * 2 ^ (e - e' - places) ≤ v ∧
      (m * 2 ^ places % m' ≠ 0 → ((m * 2 ^ places / m' : ℕ) : ℚ) * 2 ^ (e - e' - places) < v) := by
  have hdivisor : (0 : ℚ) < m' * 2 ^ e' := mul_pos (Nat.cast_pos.2 hm') (zpow_pos two_pos e')
  have hdividend : (m : ℚ) * 2 ^ e = (m * 2 ^ places : ℕ) * 2 ^ (e - places) := by
    rw [zpow_sub₀ two_ne_zero, zpow_natCast]
    push_cast
    field_simp
  have hproduct : ((m * 2 ^ places / m' : ℕ) : ℚ) * 2 ^ (e - e' - places) * (m' * 2 ^ e') =
      (m * 2 ^ places / m' * m' : ℕ) * 2 ^ (e - places) := by
    rw [show e - places = e - e' - places + e' by ring, zpow_add₀ two_ne_zero]
    push_cast
    ring
  rw [hdividend] at h
  constructor
  · refine le_of_mul_le_mul_right (le_trans ?_ h) hdivisor
    rw [hproduct]
    exact mul_le_mul_of_nonneg_right (Nat.cast_le.2 (Nat.div_mul_le_self _ _)) (zpow_nonneg zero_le_two _)
  · intro hrest
    refine lt_of_mul_lt_mul_right (lt_of_lt_of_le ?_ h) hdivisor.le
    have hlt : m * 2 ^ places / m' * m' < m * 2 ^ places := by
      have hdivMod := Nat.div_add_mod' (m * 2 ^ places) m'
      omega
    rw [hproduct]
    exact mul_lt_mul_of_pos_right (Nat.cast_lt.2 hlt) (zpow_pos two_pos _)

/-- The quotient of numbers with all bits of a mantissa is a number in place, and it passes no power of two that the exact quotient
does not. -/
theorem exists_div (s s' : Sign) (hm : 0 < m) (hm' : 0 < m') (hlog : m.log2 = 52) (hlog' : m'.log2 = 52) (he : -1074 < e - e')
    {k : ℤ} (hk : -1074 ≤ k) (h : (m : ℚ) * 2 ^ e ≤ 2 ^ k * (m' * 2 ^ e')) :
    ∃ r f hr, UnpackedFloat.div .binary64 (.finite s m e hm) (.finite s' m' e' hm') = .finite (s / s') r f hr ∧ IsPlaced r f ∧
      (r : ℚ) * 2 ^ f ≤ 2 ^ k := by
  obtain ⟨places, hplaces, hmin, hlast, hcore⟩ := divCore_eq hlog hlog' he
  have hquotient := two_pow_le_quotient hm' hlog hlog' hplaces
  have hpos : 0 < m * 2 ^ places / m' := (Nat.two_pow_pos _).trans_le hquotient
  have htarget : e - e' - places ≤ max ((m * 2 ^ places / m').log2 + (e - e' - places) - 52) (-1074) := by
    rcases hlast with rfl | hlast
    · have hbits : 52 ≤ (m * 2 ^ 53 / m').log2 := (Nat.le_log2 hpos.ne').2 hquotient
      omega
    · omega
  obtain ⟨hle, hlt⟩ := quotient_mul_le hm' places h
  have haccuracy : accuracyOfFraction (m * 2 ^ places % m') m' = .exact ∨
      m * 2 ^ places / m' ≠ 0 ∧ ((m * 2 ^ places / m' : ℕ) : ℚ) * 2 ^ (e - e' - places) < 2 ^ k := by
    by_cases hrest : m * 2 ^ places % m' = 0
    · exact .inl (if_pos hrest)
    · exact .inr ⟨hpos.ne', hlt hrest⟩
  obtain ⟨r, f, hr, hrounded, hplaced⟩ := exists_roundWithAccuracy (s / s') hpos hmin htarget
    (accuracyOfFraction (m * 2 ^ places % m') m')
  refine ⟨r, f, hr, ?_, hplaced, ?_⟩
  · rw [← hrounded]
    unfold UnpackedFloat.div
    dsimp only
    rw [hcore]
  · rw [← magnitudeOf_finite (s / s') r f hr, ← hrounded]
    exact magnitudeOf_roundWithAccuracy_le_zpow _ hk hle haccuracy

end

/-! ## Reciprocals -/

/-- One is in place. -/
theorem isPlaced_one : IsPlaced (2 ^ 52) (-52) := ⟨by decide, by decide, .inl le_rfl⟩

/-- One is unpacked with all bits of a mantissa. -/
theorem unpack_one : (1 : Float).toModel.unpack = .finite .positive (2 ^ 52) (-52) (by decide) := rfl

/-- The reciprocal of what is at least two in magnitude is between zero and a half. -/
theorem value?_reciprocal {x : Float} {v : ℚ} (h : value? x = some v) (hv : 2 ≤ |v|) :
    ∃ w, value? (1 / x) = some w ∧ w ≠ 0 ∧ |w| ≤ 1 / 2 := by
  obtain ⟨s, m, e, hm, hx, hlog, hmin, hmax, rfl⟩ := exists_full_of_one_le_abs h (one_le_two.trans hv)
  rw [abs_apply_mul] at hv
  have hratio : ((2 ^ 52 : ℕ) : ℚ) * 2 ^ (-52 : ℤ) ≤ 2 ^ (-1 : ℤ) * (m * 2 ^ e) := by
    norm_num
    linarith
  obtain ⟨r, f, hr, hdiv, hplaced', hle⟩ := exists_div .positive s (by decide) hm (by decide) hlog (by omega) (by decide) hratio
  have hf : f ≤ 971 := by
    have := log2_add_le hr.ne' hle
    omega
  have hunpack : (1 / x).toModel.unpack = .finite (.positive / s) r f hr := by
    rw [unpack_div, unpack_one, hx, hdiv, unpack_pack_of_isPlaced _ hr hplaced', if_pos hf]
  refine ⟨_, congrArg valueOf? hunpack, apply_mul_ne_zero _ hr f, ?_⟩
  rw [abs_apply_mul]
  norm_num at hle ⊢
  exact hle

/-- The reciprocal of one or minus one is the number itself. -/
theorem value?_reciprocal_of_abs_eq_one {x : Float} {v : ℚ} (h : value? x = some v) (hv : |v| = 1) : value? (1 / x) = some v := by
  rcases cases_of_value? h with ⟨s, -, rfl⟩ | ⟨s, m, e, hm, hx, hplaced, -, rfl⟩
  · norm_num at hv
  have hone : (m : ℚ) * 2 ^ e = (2 ^ 52 : ℕ) * 2 ^ (-52 : ℤ) := by
    rw [← abs_apply_mul s, hv]
    norm_num
  obtain ⟨rfl, rfl⟩ := hplaced.eq_of_mul_eq isPlaced_one hone
  have hdiv : UnpackedFloat.div .binary64 (.finite .positive (2 ^ 52) (-52) (by decide)) (.finite s (2 ^ 52) (-52) hm) =
      .finite s (2 ^ 52) (-52) hm := by
    cases s <;> rfl
  have hunpack : (1 / x).toModel.unpack = .finite s (2 ^ 52) (-52) hm := by
    rw [unpack_div, unpack_one, hx, hdiv, unpack_pack_of_isPlaced s hm isPlaced_one, if_pos (by decide)]
  exact congrArg valueOf? hunpack

/-- The reciprocal of an integer other than zero: of one and minus one it is an odd integer, and of others it is none. -/
theorem reciprocal_cases {n : Float} {k : ℤ} (h : value? n = some (k : ℚ)) (hn : (n == 0) = false) :
    ((n == 1) = true ∨ (n == -1) = true) ∧ (∃ j : ℤ, value? (1 / n) = some (j : ℚ) ∧ ¬2 ∣ j) ∨
    (n == 1) = false ∧ (n == -1) = false ∧ ∃ w, value? (1 / n) = some w ∧ ∀ j : ℤ, w ≠ j := by
  have hone : value? 1 = some ((1 : ℤ) : ℚ) := value?_toFloat (n := 1) (by decide)
  have hminus : value? (-1) = some ((-1 : ℤ) : ℚ) := (value?_neg hone).trans (congrArg some (Int.cast_neg 1).symm)
  have hzero : value? 0 = some ((0 : ℤ) : ℚ) := congrArg some Int.cast_zero.symm
  have hbeq {x : Float} {j : ℤ} (hx : value? x = some (j : ℚ)) : (n == x) = true ↔ k = j := by
    rw [beq_iff_value h hx, Int.cast_inj]
  rw [← Bool.not_eq_true, hbeq hzero] at hn
  rw [← Bool.not_eq_true, ← Bool.not_eq_true, hbeq hone, hbeq hminus]
  by_cases hunit : |k| = 1
  · have habs : |(k : ℚ)| = 1 := by exact_mod_cast hunit
    have hk : k = 1 ∨ k = -1 := eq_or_eq_neg_of_abs_eq hunit
    exact .inl ⟨hk, k, value?_reciprocal_of_abs_eq_one h habs, by omega⟩
  · have hpos : 0 < |k| := abs_pos.2 hn
    have htwo : 2 ≤ |k| := by omega
    have habs : 2 ≤ |(k : ℚ)| := by exact_mod_cast htwo
    obtain ⟨w, hw, hne, hle⟩ := value?_reciprocal h habs
    refine .inr ⟨fun hk => hunit ?_, fun hk => hunit ?_, w, hw, ?_⟩
    · rw [hk, abs_one]
    · rw [hk, abs_neg, abs_one]
    · -- No integer but zero is within a half of zero.
      rintro j rfl
      have hj : |j| < 1 := by
        have : |(j : ℚ)| < 1 := hle.trans_lt (by norm_num)
        exact_mod_cast this
      rw [Int.abs_lt_one_iff] at hj
      exact hne (by rw [hj, Int.cast_zero])

end QuantityCalculus.Binary64
