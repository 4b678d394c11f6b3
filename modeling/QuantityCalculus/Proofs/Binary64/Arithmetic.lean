import QuantityCalculus.Proofs.Binary64.Division

/-!
# Arithmetic of doubles

A sum or a difference that is the value of a double is exact (`value?_add`, `value?_sub`). A product of doubles that are at least one is
within a relative error of the exact product, or it is infinite because the exact product is beyond the doubles with that error
(`value?_mul`). A quotient of such doubles is finite, unless the exact one is in the last place before infinity (`value?_div`).
-/

namespace QuantityCalculus.Binary64

open Float.Model Float.Model.UnpackedFloat

/-! ## Exact sums -/

section

variable {x y z : Float} {v w : ℚ}

/-- What is equal to a number in place is rounded to it. -/
theorem round_of_mul_eq (s : Sign) {m m' : ℕ} {e e' : ℤ} (hm : 0 < m) (h : IsPlaced m e)
    (heq : (m' : ℚ) * 2 ^ e' = m * 2 ^ e) : UnpackedFloat.round .binary64 s m' e' = .finite s m e hm := by
  have htarget := h.target_eq hm
  unfold UnpackedFloat.round decreaseExponent
  rw [targetExponent_eq]
  dsimp only
  obtain hle | hlt := le_or_gt e e'
  · -- The other mantissa gets the places that it lacks.
    obtain ⟨k, rfl⟩ : ∃ k : ℕ, e' = e + k := ⟨(e' - e).toNat, by omega⟩
    obtain rfl : m = m' * 2 ^ k := by
      rw [zpow_add₀ two_ne_zero, zpow_natCast, mul_comm (2 ^ e : ℚ), ← mul_assoc] at heq
      exact_mod_cast (mul_right_cancel₀ (zpow_ne_zero e two_ne_zero) heq).symm
    have hm' : m' ≠ 0 := fun hzero => by simp [hzero] at hm
    rw [← Nat.shiftLeft_eq, log2_shiftLeft hm'] at htarget
    rw [show (e + k - max ((m'.log2 : ℤ) + (e + k) - 52) (-1074)).toNat = k by omega, Nat.shiftLeft_eq, add_sub_cancel_right]
    have hround := IsPlaced.roundWithAccuracy (k := 0) (e := e) ((add_zero e).symm ▸ h) s hm
    rw [pow_zero, mul_one] at hround
    refine hround.trans ?_
    congr 1
    exact add_zero e
  · -- The other mantissa has places too many, which are zeros.
    obtain ⟨k, rfl⟩ : ∃ k : ℕ, e = e' + k := ⟨(e - e').toNat, by omega⟩
    obtain rfl : m' = m * 2 ^ k := by
      rw [zpow_add₀ two_ne_zero, zpow_natCast, mul_comm (2 ^ e' : ℚ), ← mul_assoc] at heq
      exact_mod_cast mul_right_cancel₀ (zpow_ne_zero e' two_ne_zero) heq
    have hlog : (m * 2 ^ k).log2 = m.log2 + k := by
      rw [← Nat.shiftLeft_eq, log2_shiftLeft hm.ne']
    rw [hlog, show (e' - max (((m.log2 + k : ℕ) : ℤ) + e' - 52) (-1074)).toNat = 0 by omega, Nat.shiftLeft_zero, Nat.cast_zero,
      sub_zero]
    exact h.roundWithAccuracy s hm

/-- A mantissa with a sign that is equal to a number in place is normalized to it. -/
theorem normalize_of_mul_eq (s t : Sign) {m : ℕ} {m' e e' : ℤ} (hm : 0 < m) (h : IsPlaced m e)
    (heq : (m' : ℚ) * 2 ^ e' = s.apply m * 2 ^ e) : UnpackedFloat.normalize .binary64 m' e' t = .finite s m e hm := by
  have hpow : (0 : ℚ) < 2 ^ e' := zpow_pos two_pos e'
  have hpos : (0 : ℚ) < m * 2 ^ e := mul_pos (Nat.cast_pos.2 hm) (zpow_pos two_pos e)
  unfold UnpackedFloat.normalize
  cases s with
  | positive =>
    have heq : (m' : ℚ) * 2 ^ e' = m * 2 ^ e := by simpa [Sign.apply] using heq
    have hm' : 0 < m' := by
      rw [← heq] at hpos
      exact_mod_cast pos_of_mul_pos_left hpos hpow.le
    rw [Int.compare_eq_gt.2 hm']
    refine round_of_mul_eq .positive hm h ?_
    rw [← heq, ← Int.cast_natCast, Int.toNat_of_nonneg hm'.le]
  | negative =>
    have heq : (-m' : ℤ) * 2 ^ e' = (m : ℚ) * 2 ^ e := by
      rw [Int.cast_neg, neg_mul, heq]
      simp [Sign.apply]
    have hm' : 0 < -m' := by
      rw [← heq] at hpos
      exact_mod_cast pos_of_mul_pos_left hpos hpow.le
    rw [Int.compare_eq_lt.2 (by omega)]
    refine round_of_mul_eq .negative hm h ?_
    rw [← heq, ← Int.cast_natCast, Int.toNat_of_nonneg hm'.le]

/-- The double that a number in place is packed to has the value of the number. -/
theorem valueOf?_unpack_pack_finite (s : Sign) {m : ℕ} {e : ℤ} (hm : 0 < m) (h : IsPlaced m e) (hmax : e ≤ 971) :
    valueOf? (.unpack .binary64 (UnpackedFloat.pack .binary64 (.finite s m e hm))) = some ((s.apply m : ℚ) * 2 ^ e) := by
  rw [unpack_pack_of_isPlaced s hm h, if_pos hmax]
  rfl

/-- A sum that is the value of a double is exact. -/
theorem value?_add (hx : value? x = some v) (hy : value? y = some w) (hz : value? z = some (v + w)) :
    value? (x + y) = some (v + w) := by
  unfold value?
  rw [unpack_add]
  rcases cases_of_value? hx with ⟨s, hu, rfl⟩ | ⟨s, m, e, hm, hu, hplaced, hmax, rfl⟩ <;>
    rcases cases_of_value? hy with ⟨t, hv, rfl⟩ | ⟨t, m', e', hm', hv, hplaced', hmax', rfl⟩ <;> rw [hu, hv]
  · rw [add_zero]
    cases s <;> cases t <;> exact congrArg valueOf? (unpack_pack_zero _)
  · rw [zero_add]
    exact valueOf?_unpack_pack_finite t hm' hplaced' hmax'
  · rw [add_zero]
    exact valueOf?_unpack_pack_finite s hm hplaced hmax
  · have hsum : ((s.apply (decreaseExponent m e (min e e')).1 + t.apply (decreaseExponent m' e' (min e e')).1 : ℤ) : ℚ) *
        2 ^ min e e' = s.apply m * 2 ^ e + t.apply m' * 2 ^ e' := by
      rw [Int.cast_add, add_mul, apply_decreaseExponent_mul s m (min_le_left e e'), apply_decreaseExponent_mul t m' (min_le_right e e')]
    change valueOf? (.unpack .binary64 (UnpackedFloat.pack .binary64 (UnpackedFloat.normalize .binary64
      (s.apply (decreaseExponent m e (min e e')).1 + t.apply (decreaseExponent m' e' (min e e')).1) (min e e') .positive))) = _
    rcases cases_of_value? hz with ⟨-, -, hzero⟩ | ⟨r, n, f, hn, -, hplaced'', hmax'', hvalue⟩
    · rw [hzero] at hsum ⊢
      have hnone := (mul_eq_zero.1 hsum).resolve_right (zpow_ne_zero _ two_ne_zero)
      rw [Int.cast_eq_zero.1 hnone]
      exact congrArg valueOf? (unpack_pack_zero _)
    · rw [normalize_of_mul_eq r .positive hn hplaced'' (hsum.trans hvalue), hvalue]
      exact valueOf?_unpack_pack_finite r hn hplaced'' hmax''

/-- A difference of unpacked numbers is a sum with the negated number. -/
theorem unpacked_sub_eq (u v : UnpackedFloat) : UnpackedFloat.sub .binary64 u v = UnpackedFloat.add .binary64 u v.neg := by
  cases u with
  | finite s m e hm =>
    cases v with
    | finite t m' e' hm' =>
      change UnpackedFloat.normalize .binary64 (s.apply _ - t.apply _) (min e e') .positive =
        UnpackedFloat.normalize .binary64 (s.apply _ + (-t).apply _) (min e e') .positive
      rw [apply_neg, sub_eq_add_neg]
    | _ => rfl
  | _ => cases v <;> rfl

/-- A difference is a sum with the negated double. -/
theorem unpack_sub_eq_add_neg (x y : Float) : (x - y).toModel.unpack = (x + -y).toModel.unpack := by
  rw [unpack_sub, unpacked_sub_eq, ← unpack_neg, unpack_add]

/-- A difference that is the value of a double is exact. -/
theorem value?_sub (hx : value? x = some v) (hy : value? y = some w) (hz : value? z = some (v - w)) :
    value? (x - y) = some (v - w) := by
  have hsub : value? (x - y) = value? (x + -y) := congrArg valueOf? (unpack_sub_eq_add_neg x y)
  rw [sub_eq_add_neg] at hz ⊢
  rw [hsub]
  exact value?_add hx (value?_neg hy) hz

end

/-! ## Products with an error -/

/-- The relative error of rounding: what is between two doubles is no further from either. -/
def spacing : ℚ := 1 / 2 ^ 52

/-- The relative error is not negative and less than one. -/
theorem spacing_bounds : 0 < spacing ∧ spacing < 1 := by
  unfold spacing
  norm_num

section

variable {x y : Float} {v w : ℚ}

/-- The value of a double is below `2 ^ 1024`. -/
theorem lt_of_value? (h : value? x = some v) : v < 2 ^ 1024 := by
  rcases cases_of_value? h with ⟨-, -, rfl⟩ | ⟨s, m, e, hm, -, hplaced, hmax, rfl⟩
  · exact pow_pos two_pos 1024
  · refine (le_abs_self _).trans_lt ?_
    rw [abs_apply_mul, ← zpow_ofNat]
    exact hplaced.mul_lt_zpow.trans_le (zpow_le_zpow_right₀ one_le_two (by omega))

/-- A double that is at least one has all bits of a mantissa. -/
theorem exists_full_of_one_le (h : value? x = some v) (hv : 1 ≤ v) :
    ∃ m e hm, x.toModel.unpack = .finite .positive m e hm ∧ m.log2 = 52 ∧ -52 ≤ e ∧ e ≤ 971 ∧ v = m * 2 ^ e := by
  obtain ⟨s, m, e, hm, hx, hlog, hmin, hmax, rfl⟩ := exists_full_of_one_le_abs h (hv.trans (le_abs_self v))
  cases s with
  | positive => exact ⟨m, e, hm, hx, hlog, hmin, hmax, congrArg (· * _) (Int.cast_natCast m)⟩
  | negative =>
    have hneg : ((Sign.negative.apply m : ℤ) : ℚ) * 2 ^ e ≤ 0 := by
      rw [Sign.apply, Int.cast_neg, Int.cast_natCast, neg_mul]
      exact neg_nonpos.2 (mul_nonneg (Nat.cast_nonneg m) (zpow_nonneg zero_le_two e))
    exact absurd (hv.trans hneg) (by norm_num)

/-- Of a mantissa with bits enough, the shifted mantissa and the next one are within a relative error. -/
theorem shifted_error {m r : ℕ} (hlog : 52 ≤ m.log2) (hlow : m / 2 ^ (m.log2 - 52) ≤ r) (hhigh : r ≤ m / 2 ^ (m.log2 - 52) + 1) :
    |((r * 2 ^ (m.log2 - 52) : ℕ) : ℚ) - m| ≤ m * spacing := by
  have hm : m ≠ 0 := by
    rintro rfl
    exact absurd hlog (by decide)
  have hfull : 2 ^ 52 * 2 ^ (m.log2 - 52) ≤ m := by
    rw [← pow_add, Nat.add_sub_cancel' hlog]
    exact Nat.log2_self_le hm
  have hpos : 0 < 2 ^ (m.log2 - 52) := Nat.two_pow_pos _
  generalize 2 ^ (m.log2 - 52) = p at hlow hhigh hfull hpos
  have hbelow : r * p ≤ m + p := by
    calc r * p ≤ (m / p + 1) * p := Nat.mul_le_mul_right p hhigh
      _ = m / p * p + p := Nat.succ_mul ..
      _ ≤ m + p := Nat.add_le_add_right (Nat.div_mul_le_self m p) p
  have habove : m ≤ r * p + p := by
    calc m = m / p * p + m % p := (Nat.div_add_mod' m p).symm
      _ ≤ r * p + p := Nat.add_le_add (Nat.mul_le_mul_right p hlow) (Nat.mod_lt m hpos).le
  have hspacing : (p : ℚ) ≤ m * spacing := by
    have hfull : (2 ^ 52 : ℚ) * p ≤ m := by exact_mod_cast hfull
    unfold spacing
    linarith
  have hbelow : ((r * p : ℕ) : ℚ) ≤ m + p := by exact_mod_cast hbelow
  have habove : (m : ℚ) ≤ (r * p : ℕ) + p := by exact_mod_cast habove
  exact abs_le.2 ⟨by linarith, by linarith⟩

/-- A number that is at least one is rounded with a relative error, and stays at least one. -/
theorem roundWithAccuracy_error (s : Sign) {m : ℕ} (hlog : 52 ≤ m.log2) {e : ℤ} (hmin : -1074 ≤ e) (h : 1 ≤ (m : ℚ) * 2 ^ e) :
    ∃ m' e' hm', UnpackedFloat.roundWithAccuracy .binary64 s m e .exact = .finite s m' e' hm' ∧ IsPlaced m' e' ∧
      1 ≤ (m' : ℚ) * 2 ^ e' ∧ |(m' : ℚ) * 2 ^ e' - m * 2 ^ e| ≤ m * 2 ^ e * spacing := by
  have hm : 0 < m := Nat.pos_of_ne_zero fun hzero => by simp [hzero] at hlog
  have hbits : 0 ≤ m.log2 + e := by
    have hlt : (m : ℚ) < 2 ^ (m.log2 + 1) := by exact_mod_cast Nat.lt_log2_self
    have hpow : (2 : ℚ) ^ (0 : ℤ) < 2 ^ (m.log2 + 1 + e) := by
      rw [zpow_zero, zpow_add₀ two_ne_zero]
      exact h.trans_lt (mul_lt_mul_of_pos_right (by exact_mod_cast hlt) (zpow_pos two_pos e))
    have := (zpow_lt_zpow_iff_right₀ one_lt_two).1 hpow
    omega
  obtain ⟨r, m', e', hm', hrounded, hplaced, hlow, hhigh, hvalue⟩ :=
    exists_rounded s hm hmin (by omega) .exact (show m.log2 - 52 = (max ((m.log2 : ℤ) + e - 52) (-1074) - e).toNat by omega)
  have hexponent : (2 : ℚ) ^ (e + (m.log2 - 52 : ℕ)) = 2 ^ (m.log2 - 52) * 2 ^ e := by
    rw [zpow_add₀ two_ne_zero, zpow_natCast, mul_comm]
  refine ⟨m', e', hm', hrounded, hplaced, ?_, ?_⟩
  · have hfull : 2 ^ 52 ≤ r := (div_two_pow_full hlog).1.trans hlow
    rw [hvalue]
    exact (one_le_zpow₀ one_le_two (by omega)).trans (zpow_le_mul hfull _)
  · have hpow : (0 : ℚ) ≤ 2 ^ e := zpow_nonneg zero_le_two e
    have herror := mul_le_mul_of_nonneg_right (shifted_error hlog hlow hhigh) hpow
    rw [hvalue, hexponent, ← mul_assoc, ← sub_mul, abs_mul, abs_of_nonneg hpow, mul_right_comm]
    push_cast at herror
    exact herror

/-- The product of doubles that are at least one is at least one and within a relative error of the exact product, or it is infinite, as
the exact product is beyond the doubles with the error. -/
theorem value?_mul (hx : value? x = some v) (hy : value? y = some w) (hv : 1 ≤ v) (hw : 1 ≤ w) :
    (∃ u, value? (x * y) = some u ∧ 1 ≤ u ∧ |u - v * w| ≤ v * w * spacing) ∨
      (x * y).toModel.unpack = .infinity .positive ∧ 2 ^ 1024 ≤ v * w * (1 + spacing) := by
  obtain ⟨m, e, hm, hu, hlog, hmin, hmax, rfl⟩ := exists_full_of_one_le hx hv
  obtain ⟨m', e', hm', hu', hlog', hmin', hmax', rfl⟩ := exists_full_of_one_le hy hw
  have hproduct : ((m * m' : ℕ) : ℚ) * 2 ^ (e + e') = m * 2 ^ e * (m' * 2 ^ e') := by
    rw [zpow_add₀ two_ne_zero]
    push_cast
    ring
  have hbits : 52 ≤ (m * m').log2 := by
    have hfull := (log2_eq_iff_full.1 hlog).1
    exact (Nat.le_log2 (Nat.mul_pos hm hm').ne').2 (hfull.trans (Nat.le_mul_of_pos_right m hm'))
  obtain ⟨r, f, hr, hrounded, hplaced, hone, herror⟩ := roundWithAccuracy_error .positive hbits (e := e + e') (by omega)
    (hproduct ▸ one_le_mul_of_one_le_of_one_le hv hw)
  rw [hproduct] at herror
  have hunpack : (x * y).toModel.unpack = if f ≤ 971 then .finite .positive r f hr else .infinity .positive := by
    rw [unpack_mul, hu, hu', ← unpack_pack_of_isPlaced .positive hr hplaced, ← hrounded]
    rfl
  by_cases hf : f ≤ 971
  · rw [if_pos hf] at hunpack
    refine .inl ⟨r * 2 ^ f, ?_, hone, herror⟩
    exact (congrArg valueOf? hunpack).trans (congrArg some (congrArg (· * _) (Int.cast_natCast r)))
  · rw [if_neg hf] at hunpack
    refine .inr ⟨hunpack, ?_⟩
    have hfull : 2 ^ 52 ≤ r := hplaced.full.resolve_right (by omega)
    calc (2 : ℚ) ^ 1024 = 2 ^ (1024 : ℤ) := (zpow_ofNat 2 1024).symm
      _ ≤ 2 ^ (52 + f) := zpow_le_zpow_right₀ one_le_two (by omega)
      _ ≤ r * 2 ^ f := zpow_le_mul hfull f
      _ ≤ m * 2 ^ e * (m' * 2 ^ e') * (1 + spacing) := by
          have hle := (abs_le.1 herror).2
          linarith

/-! ## Quotients -/

/-- A quotient of doubles that are at least one is finite, if it is not beyond half of the bound of doubles. -/
theorem value?_div (hx : value? x = some v) (hy : value? y = some w) (hv : 1 ≤ v) (hw : 1 ≤ w) (hbound : v ≤ 2 ^ 1023 * w) :
    ∃ u, value? (x / y) = some u := by
  obtain ⟨m, e, hm, hu, hlog, hmin, hmax, rfl⟩ := exists_full_of_one_le hx hv
  obtain ⟨m', e', hm', hu', hlog', hmin', hmax', rfl⟩ := exists_full_of_one_le hy hw
  rw [← zpow_ofNat] at hbound
  obtain ⟨r, f, hr, hdiv, hplaced, hle⟩ := exists_div .positive .positive hm hm' hlog hlog' (by omega) (by decide) hbound
  have hf : f ≤ 971 := by
    have hbits := log2_add_le hr.ne' hle
    by_contra hlarge
    have hfull : 52 ≤ r.log2 := (Nat.le_log2 hr.ne').2 (hplaced.full.resolve_right (by omega))
    omega
  unfold value?
  rw [unpack_div, hu, hu', hdiv]
  exact ⟨_, valueOf?_unpack_pack_finite _ hr hplaced hf⟩

/-- Infinity divided by a double that is at least one. -/
theorem unpack_div_of_infinity (hx : x.toModel.unpack = .infinity .positive) (hy : value? y = some w) (hw : 1 ≤ w) :
    (x / y).toModel.unpack = .infinity .positive := by
  obtain ⟨m, e, hm, hu, -⟩ := exists_full_of_one_le hy hw
  rw [unpack_div, hx, hu]
  exact unpack_pack_infinity .positive

/-- Infinity divided by infinity is not a number. -/
theorem unpack_div_infinities (hx : x.toModel.unpack = .infinity .positive) (hy : y.toModel.unpack = .infinity .positive) :
    (x / y).toModel.unpack = .notANumber := by
  rw [unpack_div, hx, hy]
  rfl

end

end QuantityCalculus.Binary64
