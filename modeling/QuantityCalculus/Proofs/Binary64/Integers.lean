import Mathlib.Algebra.Order.Floor.Semifield
import Mathlib.Data.Nat.Cast.Order.Field
import QuantityCalculus.Proofs.Binary64.Literals
import QuantityCalculus.Proofs.Binary64.Magnitude
import QuantityCalculus.Proofs.Binary64.Rounding

/-!
# Integers and the magnitude of a double

The integers next to a double pass no power of two that the double does not pass (`truncate_le`, `magnitude_round_le`), a double
without a sign is at most one above its floor (`magnitude_sub_floor_le`), and a natural number passes no power of two when it becomes
a double, exact or rounded (`magnitude_ofNat_le`).
-/

namespace QuantityCalculus.Binary64

open Float.Model Float.Model.UnpackedFloat

/-! ## The shape of a double -/

/-- The magnitude is read off the bits. -/
theorem magnitude_of_shape {x : Float} {negative : Bool} {d : Decimal.Dyadic} (h : Decimal.shape x = .finite negative d) :
    magnitude x = d.significand * 2 ^ d.exponent ∧ d.significand < 2 ^ 53 := by
  let b : BitVec Format.binary64.numBits := x.toModel.toBits.toBitVec
  have h : Decimal.Shape.ofFields (b.toNat / 2 ^ 63 == 1) (b.toNat / 2 ^ 52 % 2048) (b.toNat % 2 ^ 52) = .finite negative d := h
  have hlt : (unpackMantissa b).toNat < 2 ^ 52 := (unpackMantissa b).isLt
  change magnitudeOf (UnpackedFloat.unpack .binary64 b) = _ ∧ _
  rw [← unpackExponent_toNat b, ← unpackMantissa_toNat b] at h
  unfold UnpackedFloat.unpack
  dsimp only
  unfold Decimal.Shape.ofFields at h
  split at h
  · split at h <;> nomatch h
  rename_i hexponent
  rw [if_neg (fun heq => hexponent (by rw [heq]; rfl))]
  split at h
  · rename_i hzero
    obtain ⟨-, rfl⟩ := Decimal.Shape.finite.inj h
    rw [if_pos (BitVec.eq_of_toNat_eq (eq_of_beq hzero))]
    refine ⟨?_, hlt.trans (by decide)⟩
    by_cases hmantissa : unpackMantissa b = 0#_
    · rw [dif_pos hmantissa, hmantissa]
      exact (zero_mul _).symm
    · rw [dif_neg hmantissa, magnitudeOf_finite, show unpackExponent b = 0#_ from BitVec.eq_of_toNat_eq (eq_of_beq hzero)]
      rfl
  · rename_i hzero
    obtain ⟨-, rfl⟩ := Decimal.Shape.finite.inj h
    rw [if_neg (fun heq => hzero (by rw [heq]; rfl)), magnitudeOf_finite]
    have himplicit : (1#1 ++ unpackMantissa b).toNat = 2 ^ 52 + (unpackMantissa b).toNat := toNat_implicit _
    refine ⟨?_, Nat.add_lt_add_left hlt _⟩
    rw [himplicit]
    rfl

/-- A magnitude as a quotient. -/
theorem magnitude_eq_div {x : Float} {negative : Bool} {d : Decimal.Dyadic} (h : Decimal.shape x = .finite negative d) :
    magnitude x = d.numerator / d.denominator := by
  have hnumerator : (d.numerator : ℚ) = d.significand * 2 ^ d.exponent.toNat := by
    unfold Decimal.Dyadic.numerator
    exact_mod_cast rfl
  have hdenominator : (d.denominator : ℚ) = 2 ^ (-d.exponent).toNat := by
    unfold Decimal.Dyadic.denominator
    exact_mod_cast rfl
  rw [(magnitude_of_shape h).1, hnumerator, hdenominator, mul_div_assoc, ← zpow_natCast, ← zpow_natCast, ← zpow_sub₀ two_ne_zero,
    Int.toNat_sub_toNat_neg]

/-- A quotient that passes no power of two. -/
theorem numerator_le_of_magnitude_le {x : Float} {negative : Bool} {d : Decimal.Dyadic} (h : Decimal.shape x = .finite negative d)
    {k : ℕ} (hx : magnitude x ≤ 2 ^ k) : d.numerator ≤ 2 ^ k * d.denominator := by
  have hpos : (0 : ℚ) < d.denominator := Nat.cast_pos.2 (denominator_pos d)
  rw [magnitude_eq_div h, div_le_iff₀ hpos] at hx
  exact_mod_cast hx

/-- The integer next to a double on the side of zero passes no power of two that the double does not. -/
theorem truncate_le {x : Float} {k : ℕ} (h : magnitude x ≤ 2 ^ k) : (truncate x).toNat ≤ 2 ^ k := by
  unfold truncate
  split
  · rename_i negative d hshape
    have hle : d.truncate ≤ 2 ^ k := Nat.div_le_of_le_mul (by rw [mul_comm]; exact numerator_le_of_magnitude_le hshape h)
    split
    · omega
    · exact hle
  · exact Nat.zero_le _

/-- An integral double passes no power of two that its integer does not. -/
theorem magnitude_integral_le (negative : Bool) {n k : ℕ} (h : n ≤ 2 ^ k) : magnitude (integral negative n) ≤ 2 ^ k := by
  have hn : magnitude n.toUInt64.toFloat ≤ 2 ^ k := magnitude_toFloat_le ((Nat.mod_le _ _).trans h)
  cases negative with
  | false => exact hn
  | true => exact (magnitude_neg_le _).trans hn

/-- The integer nearest to a double passes no power of two that the double does not. -/
theorem magnitude_round_le {x : Float} {k : ℕ} (h : magnitude x ≤ 2 ^ k) : magnitude (round x) ≤ 2 ^ k := by
  unfold round toIntegral
  split
  · rename_i negative d hshape
    split
    · exact h
    · refine magnitude_integral_le negative (Nat.le_of_lt_succ ?_)
      have hle := numerator_le_of_magnitude_le hshape h
      have hpos := denominator_pos d
      unfold Decimal.Dyadic.nearest
      rw [Nat.div_lt_iff_lt_mul (by omega)]
      generalize 2 ^ k = n at hle ⊢
      nlinarith
  · exact h

/-- A double is at most one above its floor. -/
theorem magnitude_sub_floor_le {x : Float} (hx : SignClear x) : magnitude (x - floor x) ≤ 2 ^ 0 := by
  have hself : magnitude (x - x) ≤ 2 ^ 0 := magnitude_sub_le hx hx (by rw [sub_self, abs_zero]; exact zero_le_one)
  have hminus := hx.hasMinus_shape
  unfold floor toIntegral
  split
  · rename_i negative d hshape
    rw [hshape] at hminus
    obtain rfl : negative = false := hminus
    split
    · exact hself
    rename_i hexponent
    have hnumerator : d.numerator = d.significand := by
      unfold Decimal.Dyadic.numerator
      rw [Int.toNat_of_nonpos (by omega)]
      exact Nat.mul_one _
    have htruncate : d.truncate < 2 ^ 53 := by
      refine lt_of_le_of_lt (Nat.div_le_self _ _) ?_
      rw [hnumerator]
      exact (magnitude_of_shape hshape).2
    have hfloor : magnitude d.truncate.toUInt64.toFloat = (d.numerator / d.denominator : ℕ) := by
      have hn : d.truncate.toUInt64.toNat = d.truncate := Nat.mod_eq_of_lt (htruncate.trans (by decide))
      rw [magnitude_toFloat (hn.trans_lt htruncate), hn]
      rfl
    have hunsigned : SignClear d.truncate.toUInt64.toFloat := signClear_pack (isUnsigned_ofNat _ _)
    refine magnitude_sub_le hx hunsigned ?_
    have hle : ((d.numerator / d.denominator : ℕ) : ℚ) ≤ d.numerator / d.denominator := Nat.cast_div_le
    have hlt := Nat.lt_floor_add_one (d.numerator / d.denominator : ℚ)
    rw [Nat.floor_div_eq_div] at hlt
    rw [hfloor, magnitude_eq_div hshape, abs_of_nonneg (sub_nonneg.2 hle), pow_zero]
    linarith
  · exact hself

/-- The magnitude of a double has no sign. -/
theorem signClear_abs (x : Float) : SignClear (Numeric.abs x) := by
  let b : BitVec Format.binary64.numBits := x.toModel.toBits.toBitVec
  have hlt : b.toNat < 2 ^ 64 := b.isLt
  unfold Numeric.abs
  split
  · rename_i hnegative
    have hnegative : (b.toNat / 2 ^ 63 == 1) = true := hnegative
    refine signClear_pack ?_
    change IsUnsigned (UnpackedFloat.neg (UnpackedFloat.unpack .binary64 b))
    unfold UnpackedFloat.unpack
    dsimp only
    rw [ofBitVec_unpackSign, hnegative, apply_ite UnpackedFloat.neg, apply_ite UnpackedFloat.neg, apply_ite UnpackedFloat.neg,
      apply_dite UnpackedFloat.neg]
    refine iteInduction (fun _ => ?_) fun _ => iteInduction (fun _ => ?_) fun _ => rfl
    · exact iteInduction (fun _ => rfl) fun _ => trivial
    · exact dite_induction (fun _ => rfl) fun _ => rfl
  · rename_i hnegative
    have hnegative : ¬(b.toNat / 2 ^ 63 == 1) = true := hnegative
    rw [beq_iff_eq] at hnegative
    change b.toNat < 2 ^ 63
    omega

/-! ## Natural numbers -/

/-- A natural number as a decimal number is a zero, infinite or a product that is the number. -/
theorem ofScientific_induction {P : UnpackedFloat → Prop} (n : ℕ) (hzero : P (.zero .positive))
    (hinfinity : P (.infinity .positive)) (hmul : ∀ u v, magnitudeOf u * magnitudeOf v = n → P (UnpackedFloat.mul .binary64 u v)) :
    P (UnpackedFloat.ofScientific .binary64 n 0) := by
  unfold UnpackedFloat.ofScientific
  refine dite_induction (fun _ => hzero) fun _ => iteInduction (fun _ => hinfinity) fun _ => iteInduction (fun _ => hzero) fun _ => ?_
  rw [if_pos le_rfl]
  refine hmul _ _ ?_
  have hbits : (2 : ℚ) ^ (53 : ℕ) * 2 ^ (-53 : ℤ) = 1 := by norm_num
  change ((n <<< 53 : ℕ) : ℚ) * 2 ^ (-53 : ℤ) * ((1 : ℕ) * 2 ^ (0 : ℤ)) = n
  rw [Nat.shiftLeft_eq, zpow_zero, Nat.cast_one, mul_one, mul_one, Nat.cast_mul, Nat.cast_pow, Nat.cast_ofNat, mul_assoc, hbits,
    mul_one]

/-- A natural number as a double passes no power of two that it does not. -/
theorem magnitude_ofNat_le {n k : ℕ} (h : n ≤ 2 ^ k) : magnitude (Numeric.ofNat n) ≤ 2 ^ k := by
  have hpow : (0 : ℚ) ≤ 2 ^ k := pow_nonneg zero_le_two k
  change magnitude (ofInt n) ≤ 2 ^ k
  unfold ofInt
  rw [if_neg (by omega), Int.natAbs_natCast]
  unfold ofDecimal
  dsimp only
  split
  · exact hpow
  split
  · exact hpow
  unfold Float.ofScientific
  split
  · have hone : magnitude Float.exactlyRepresentablePowersOfTen[0] = 1 := by
      have hunpack : Float.exactlyRepresentablePowersOfTen[0].toModel.unpack = .finite .positive (2 ^ 52) (-52) (by decide) := rfl
      unfold magnitude
      rw [hunpack, magnitudeOf_finite]
      norm_num
    dsimp only
    rw [if_neg (by decide)]
    refine magnitude_mul_le ?_
    change _ * magnitude Float.exactlyRepresentablePowersOfTen[0] ≤ _
    rw [hone, mul_one]
    exact magnitude_toFloat_le ((Nat.mod_le _ _).trans h)
  · have hrange : InRange (UnpackedFloat.ofScientific .binary64 n 0) :=
      ofScientific_induction n True.intro True.intro fun u v _ => inRange_mul u v
    refine (magnitudeOf_unpack_pack_le hrange).trans ?_
    refine ofScientific_induction (P := fun u => magnitudeOf u ≤ 2 ^ k) n hpow hpow fun u v huv => magnitudeOf_mul_le ?_
    rw [huv]
    exact_mod_cast h

end QuantityCalculus.Binary64
