import Mathlib.Order.Compare
import QuantityCalculus.Proofs.Binary64.Equality
import QuantityCalculus.Proofs.Binary64.Integers

/-!
# The value of a double

A finite double has a rational value (`value?`). A number is in place if it has all bits of a mantissa or the least exponent
(`IsPlaced`): so unpacked doubles are and so rounding leaves a number, and packing keeps such a number unless it is infinite
(`unpack_pack_of_isPlaced`). Therefore a difference is a zero just if it is one of equal values (`sub_beq_zero_iff`), and doubles are
compared by their values (`compare_eq_cmp`).
-/

namespace QuantityCalculus.Binary64

open Float.Model Float.Model.UnpackedFloat

/-! ## Numbers in place -/

/-- A mantissa and an exponent as doubles have them: with all bits of a mantissa, or with the least exponent. -/
structure IsPlaced (m : ℕ) (e : ℤ) : Prop where
  lt : m < 2 ^ 53
  le : -1074 ≤ e
  full : 2 ^ 52 ≤ m ∨ e = -1074

/-- The logarithm of a mantissa with all bits. -/
theorem log2_eq_iff_full {m : ℕ} : m.log2 = 52 ↔ 2 ^ 52 ≤ m ∧ m < 2 ^ 53 := by
  obtain rfl | hm := eq_or_ne m 0
  · decide
  · exact Nat.log2_eq_iff hm

/-- The mantissa and the exponent of a finite double are in place, and the exponent is none above those of doubles. -/
theorem isPlaced_of_unpack {b : BitVec Format.binary64.numBits} {s : Sign} {m : ℕ} {e : ℤ} {hm : 0 < m}
    (h : UnpackedFloat.unpack .binary64 b = .finite s m e hm) : IsPlaced m e ∧ e ≤ 971 := by
  have hmantissa : (unpackMantissa b).toNat < 2 ^ 52 := (unpackMantissa b).isLt
  have hexponent : (unpackExponent b).toNat < 2 ^ 11 := (unpackExponent b).isLt
  have himplicit : (1#1 ++ unpackMantissa b).toNat = 2 ^ 52 + (unpackMantissa b).toNat := toNat_implicit _
  unfold UnpackedFloat.unpack at h
  dsimp only at h
  by_cases hones : unpackExponent b = -1#_
  · rw [if_pos hones] at h
    by_cases hnone : unpackMantissa b = 0#_
    · rw [if_pos hnone] at h
      cases h
    · rw [if_neg hnone] at h
      cases h
  rw [if_neg hones] at h
  by_cases hzero : unpackExponent b = 0#_
  · rw [if_pos hzero] at h
    by_cases hnone : unpackMantissa b = 0#_
    · rw [dif_pos hnone] at h
      cases h
    · rw [dif_neg hnone] at h
      obtain ⟨-, rfl, rfl⟩ := UnpackedFloat.finite.inj h
      rw [hzero]
      exact ⟨⟨hmantissa.trans (by decide), by decide, .inr (by decide)⟩, by decide⟩
  · rw [if_neg hzero] at h
    obtain ⟨-, rfl, rfl⟩ := UnpackedFloat.finite.inj h
    have hpos : (unpackExponent b).toNat ≠ 0 := fun h => hzero (BitVec.eq_of_toNat_eq h)
    have hnot : (unpackExponent b).toNat ≠ 2047 := fun h => hones (BitVec.eq_of_toNat_eq h)
    change IsPlaced _ ((unpackExponent b).toNat - (1023 + 52)) ∧ ((unpackExponent b).toNat - (1023 + 52) : ℤ) ≤ 971
    refine ⟨⟨?_, ?_, .inl ?_⟩, ?_⟩ <;> omega

/-- Components with the exponent zero are unpacked with the least exponent. -/
theorem unpack_packComponents_zero (s : Sign) {v : BitVec Format.binary64.mantissaBitsWithoutImplicit} {n : ℕ} (hn : v.toNat = n)
    (hpos : 0 < n) : UnpackedFloat.unpack .binary64 (packComponents .binary64 s 0#_ v) = .finite s n (-1074) hpos := by
  have hsign : Sign.ofBitVec s.toBitVec = s := by cases s <;> rfl
  have hones : (0#11 : BitVec Format.binary64.exponentBits) ≠ -1#_ := by decide
  subst hn
  have hv : v ≠ 0#_ := by
    rintro rfl
    exact hpos.ne rfl
  unfold UnpackedFloat.unpack
  dsimp only
  rw [unpackSign_packComponents, hsign, if_neg (unpackExponent_packComponents.trans_ne hones), if_pos unpackExponent_packComponents,
    dif_neg (unpackMantissa_packComponents.trans_ne hv)]
  congr 1
  · rw [unpackMantissa_packComponents]
  · rw [unpackExponent_packComponents]
    rfl

/-- Packing keeps a number in place, or makes it infinite if its exponent is too large. -/
theorem unpack_pack_of_isPlaced (s : Sign) {m : ℕ} (hm : 0 < m) {e : ℤ} (h : IsPlaced m e) :
    UnpackedFloat.unpack .binary64 (UnpackedFloat.pack .binary64 (.finite s m e hm)) =
      if e ≤ 971 then .finite s m e hm else .infinity s := by
  have hpack : UnpackedFloat.pack .binary64 (.finite s m e hm) =
      if 2 ^ 11 ≤ (e + 1023 + 52).toNat + 1 then packedInfinity .binary64 s
      else if m.log2 + 1 = 53 then packComponents .binary64 s (BitVec.ofNat 11 (e + 1023 + 52).toNat) (BitVec.ofNat 52 m)
      else packComponents .binary64 s 0#11 (BitVec.ofNat 52 m) := rfl
  obtain ⟨hlt, hmin, hfull⟩ := h
  by_cases hmax : e ≤ 971
  · rw [if_pos hmax]
    by_cases hlog : m.log2 = 52
    · exact unpack_pack_normal s hm hlog hmin hmax
    · -- Without all bits, the exponent is the least one, and the mantissa is packed as it is.
      have hsmall : m < 2 ^ 52 := by
        by_contra hlarge
        exact hlog (log2_eq_iff_full.2 ⟨not_lt.1 hlarge, hlt⟩)
      obtain rfl : e = -1074 := hfull.resolve_left (not_le.2 hsmall)
      have hmantissa : (BitVec.ofNat 52 m).toNat = m := by
        rw [BitVec.toNat_ofNat, Nat.mod_eq_of_lt hsmall]
      rw [hpack, if_neg (by decide), if_neg (by omega)]
      exact unpack_packComponents_zero s hmantissa hm
  · rw [if_neg hmax, hpack, if_pos (by omega)]
    exact unpack_pack_infinity s

/-! ## Operations -/

section

variable (x y : Float)

/-- The sum of doubles is packed from that of the unpacked numbers. -/
theorem unpack_add : (x + y).toModel.unpack =
    .unpack .binary64 (UnpackedFloat.pack .binary64 (.add .binary64 x.toModel.unpack y.toModel.unpack)) := rfl

/-- The difference of doubles is packed from that of the unpacked numbers. -/
theorem unpack_sub : (x - y).toModel.unpack =
    .unpack .binary64 (UnpackedFloat.pack .binary64 (.sub .binary64 x.toModel.unpack y.toModel.unpack)) := rfl

/-- The product of doubles is packed from that of the unpacked numbers. -/
theorem unpack_mul : (x * y).toModel.unpack =
    .unpack .binary64 (UnpackedFloat.pack .binary64 (.mul .binary64 x.toModel.unpack y.toModel.unpack)) := rfl

/-- The quotient of doubles is packed from that of the unpacked numbers. -/
theorem unpack_div : (x / y).toModel.unpack =
    .unpack .binary64 (UnpackedFloat.pack .binary64 (.div .binary64 x.toModel.unpack y.toModel.unpack)) := rfl

end

/-! ## Negation -/

/-- The negated double is that of the negated number. -/
theorem unpack_neg (x : Float) : (-x).toModel.unpack = x.toModel.unpack.neg := by
  change UnpackedFloat.unpack .binary64 (UnpackedFloat.pack .binary64 x.toModel.unpack.neg) = _
  cases hx : x.toModel.unpack with
  | notANumber => rfl
  | infinity s => exact unpack_pack_infinity (-s)
  | zero s => exact unpack_pack_zero (-s)
  | finite s m e hm =>
    obtain ⟨hplaced, hmax⟩ := isPlaced_of_unpack hx
    exact (unpack_pack_of_isPlaced (-s) hm hplaced).trans (if_pos hmax)

/-- The negated double is above zero just if the double is below. -/
theorem neg_pos_iff {x : Float} : 0 < -x ↔ x < 0 := by
  have hpos : 0 < -x ↔ UnpackedFloat.lt (.zero .positive) (-x).toModel.unpack = true := decide_eq_true_iff
  have hneg : x < 0 ↔ UnpackedFloat.lt x.toModel.unpack (.zero .positive) = true := decide_eq_true_iff
  rw [hpos, hneg, unpack_neg]
  cases x.toModel.unpack with
  | notANumber | zero => exact Iff.rfl
  | infinity s | finite s => cases s <;> exact Iff.rfl

/-- No double is above and below zero. -/
theorem not_pos_of_neg {x : Float} (h : x < 0) : ¬0 < x := by
  intro hpos
  have hgt : UnpackedFloat.lt (.zero .positive) x.toModel.unpack = true := of_decide_eq_true hpos
  have hlt : UnpackedFloat.lt x.toModel.unpack (.zero .positive) = true := of_decide_eq_true h
  cases hx : x.toModel.unpack with
  | notANumber | zero =>
    rw [hx] at hlt
    nomatch hlt
  | infinity s | finite s =>
    rw [hx] at hgt hlt
    cases s with
    | positive => nomatch hlt
    | negative => nomatch hgt

/-- A number is not its own negation: a zero has a sign, too. -/
theorem neg_ne_self {x : Float} (h : Numeric.isNaN x = false) : -x ≠ x := by
  intro heq
  have hunpack : x.toModel.unpack.neg = x.toModel.unpack := (unpack_neg x).symm.trans (congrArg (·.toModel.unpack) heq)
  have hnumber : x.toModel.unpack.isNaN = false := h
  generalize x.toModel.unpack = u at hunpack hnumber
  cases u with
  | notANumber => nomatch hnumber
  | infinity s | zero s | finite s => cases s <;> nomatch hunpack

/-- The negated double is a number if the double is. -/
theorem isNaN_neg (x : Float) : Numeric.isNaN (-x) = Numeric.isNaN x := by
  have hneg : Numeric.isNaN (-x) = (-x).toModel.unpack.isNaN := rfl
  have hnumber : Numeric.isNaN x = x.toModel.unpack.isNaN := rfl
  rw [hneg, hnumber, unpack_neg]
  cases x.toModel.unpack <;> rfl

/-! ## Rounding -/

/-- A mantissa is shifted until it has the bits of one, or until the least exponent. -/
theorem shiftToTargetExponent_eq (m : ℕ) (e : ℤ) (accuracy : Accuracy) :
    shiftToTargetExponent .binary64 m e accuracy =
      (ExtendedMantissa.ofMantissaAndAccuracy m accuracy >>> (max (m.log2 + e - 52) (-1074) - e).toNat,
        e + (max (m.log2 + e - 52) (-1074) - e).toNat) := by
  unfold shiftToTargetExponent shiftToExponent
  rw [targetExponent_eq]

/-- Rounding takes nothing away. -/
theorem le_roundedMantissa (em : ExtendedMantissa) : em.mantissa ≤ em.roundedMantissa := by
  obtain ⟨m, round, sticky⟩ := em
  cases round <;> cases sticky
  · exact le_rfl
  · exact le_rfl
  · exact Nat.le_add_right m _
  · exact Nat.le_succ m

/-- A mantissa without its last bits. -/
theorem div_two_pow_full {m : ℕ} (h : 52 ≤ m.log2) : 2 ^ 52 ≤ m / 2 ^ (m.log2 - 52) ∧ m / 2 ^ (m.log2 - 52) < 2 ^ 53 := by
  have hm : m ≠ 0 := by
    rintro rfl
    exact absurd h (by decide)
  have hlow : 2 ^ 52 * 2 ^ (m.log2 - 52) ≤ m := by
    rw [← pow_add, Nat.add_sub_cancel' h]
    exact Nat.log2_self_le hm
  have hhigh : m < 2 ^ 53 * 2 ^ (m.log2 - 52) := by
    rw [← pow_add, show 53 + (m.log2 - 52) = m.log2 + 1 by omega]
    exact Nat.lt_log2_self
  exact ⟨(Nat.le_div_iff_mul_le (Nat.two_pow_pos _)).2 hlow, (Nat.div_lt_iff_lt_mul (Nat.two_pow_pos _)).2 hhigh⟩

/-- The first shift of rounding leaves a mantissa in place that is not zero. -/
theorem isPlaced_shift {m : ℕ} (hm : 0 < m) {e : ℤ} (hmin : -1074 ≤ e) (htarget : e ≤ max (m.log2 + e - 52) (-1074)) {t : ℕ}
    (ht : t = (max (m.log2 + e - 52) (-1074) - e).toNat) : IsPlaced (m / 2 ^ t) (e + t) ∧ 0 < m / 2 ^ t := by
  by_cases hlog : 52 ≤ m.log2
  · obtain ⟨hfull, hlt⟩ := div_two_pow_full hlog
    obtain rfl : t = m.log2 - 52 := by omega
    exact ⟨⟨hlt, by omega, .inl hfull⟩, by omega⟩
  · have hlt : m < 2 ^ 52 := (Nat.log2_lt hm.ne').1 (not_le.1 hlog)
    obtain rfl : t = 0 := by omega
    rw [pow_zero, Nat.div_one]
    exact ⟨⟨by omega, by omega, .inr (by omega)⟩, hm⟩

/-- What rounding leaves of a number, if its exponent is none below those of doubles and it has bits enough: the mantissa that is shifted
or the next one, which is in place, as a carry only adds a place. -/
theorem exists_rounded (s : Sign) {m : ℕ} (hm : 0 < m) {e : ℤ} (hmin : -1074 ≤ e) (htarget : e ≤ max (m.log2 + e - 52) (-1074))
    (accuracy : Accuracy) {t : ℕ} (ht : t = (max (m.log2 + e - 52) (-1074) - e).toNat) :
    ∃ r m' e' hm', roundWithAccuracy .binary64 s m e accuracy = .finite s m' e' hm' ∧ IsPlaced m' e' ∧
      m / 2 ^ t ≤ r ∧ r ≤ m / 2 ^ t + 1 ∧ (m' : ℚ) * 2 ^ e' = r * 2 ^ (e + t) := by
  obtain ⟨⟨hlt, hle, hfull⟩, hpos⟩ := isPlaced_shift hm hmin htarget ht
  obtain ⟨r, hr⟩ : ∃ r, r = (ExtendedMantissa.ofMantissaAndAccuracy m accuracy >>> t).roundedMantissa := ⟨_, rfl⟩
  have hshifted : (ExtendedMantissa.ofMantissaAndAccuracy m accuracy >>> t).mantissa = m / 2 ^ t := by
    rw [shiftRight_mantissa, mantissa_ofMantissaAndAccuracy]
  have hlow : m / 2 ^ t ≤ r := by
    rw [hr, ← hshifted]
    exact le_roundedMantissa _
  have hhigh : r ≤ m / 2 ^ t + 1 := by
    rw [hr, ← hshifted]
    exact roundedMantissa_le_succ _
  have hr' : 0 < r := hpos.trans_le hlow
  -- The rounded mantissa has the bits of the one before, and one more if rounding carried.
  have htarget' : e + t ≤ max (r.log2 + (e + t) - 52) (-1074) := by
    rcases hfull with hfull | hleast
    · have hbits : 52 ≤ r.log2 := (Nat.le_log2 hr'.ne').2 (hfull.trans hlow)
      omega
    · omega
  obtain ⟨t', ht'⟩ : ∃ t', t' = (max (r.log2 + (e + t) - 52) (-1074) - (e + t)).toNat := ⟨_, rfl⟩
  have hplaced := isPlaced_shift hr' hle htarget' ht'
  have hcarry : r / 2 ^ t' * 2 ^ t' = r := by
    obtain hsmall | rfl : r < 2 ^ 53 ∨ r = 2 ^ 53 := by omega
    · have hbits : r.log2 < 53 := (Nat.log2_lt hr'.ne').2 hsmall
      obtain rfl : t' = 0 := by omega
      rw [pow_zero, Nat.div_one, mul_one]
    · obtain rfl : t' = 1 := by
        rw [Nat.log2_two_pow] at ht'
        omega
      decide
  refine ⟨r, r / 2 ^ t', e + t + t', hplaced.2, ?_, hplaced.1, hlow, hhigh, ?_⟩
  · unfold roundWithAccuracy
    rw [shiftToTargetExponent_eq, ← ht]
    dsimp only
    rw [← hr, shiftToTargetExponent_eq, ← ht']
    dsimp only
    have hmantissa : (ExtendedMantissa.ofMantissaAndAccuracy r .exact >>> t').mantissa = r / 2 ^ t' := by
      rw [shiftRight_mantissa, mantissa_ofMantissaAndAccuracy]
    rw [hmantissa]
    exact dif_neg hplaced.2.ne'
  · calc ((r / 2 ^ t' : ℕ) : ℚ) * 2 ^ (e + t + t') = (r / 2 ^ t' * 2 ^ t' : ℕ) * 2 ^ (e + t) := by
          rw [zpow_add₀ two_ne_zero, zpow_natCast]
          push_cast
          ring
      _ = r * 2 ^ (e + t) := by rw [hcarry]

/-- Rounding leaves a number in place that is not zero, if its exponent is none below those of doubles and it has bits enough. -/
theorem exists_roundWithAccuracy (s : Sign) {m : ℕ} (hm : 0 < m) {e : ℤ} (hmin : -1074 ≤ e)
    (htarget : e ≤ max (m.log2 + e - 52) (-1074)) (accuracy : Accuracy) :
    ∃ m' e' hm', roundWithAccuracy .binary64 s m e accuracy = .finite s m' e' hm' ∧ IsPlaced m' e' := by
  obtain ⟨-, m', e', hm', hrounded, hplaced, -⟩ := exists_rounded s hm hmin htarget accuracy rfl
  exact ⟨m', e', hm', hrounded, hplaced⟩

/-- A number in place has the exponent that it is shifted to. -/
theorem IsPlaced.target_eq {m : ℕ} {e : ℤ} (h : IsPlaced m e) (hm : 0 < m) : max ((m.log2 : ℤ) + e - 52) (-1074) = e := by
  obtain ⟨hlt, hmin, hfull⟩ := h
  have hlog : m.log2 < 53 := (Nat.log2_lt hm.ne').2 hlt
  rcases hfull with hfull | rfl
  · have hbits : 52 ≤ m.log2 := (Nat.le_log2 hm.ne').2 hfull
    omega
  · omega

/-- A number in place is not rounded, whatever places are added to it. -/
theorem IsPlaced.roundWithAccuracy {m k : ℕ} {e : ℤ} (h : IsPlaced m (e + k)) (s : Sign) (hm : 0 < m) :
    UnpackedFloat.roundWithAccuracy .binary64 s (m * 2 ^ k) e .exact = .finite s m (e + k) hm := by
  have htarget := h.target_eq hm
  have hlog : (m * 2 ^ k).log2 = m.log2 + k := by
    rw [← Nat.shiftLeft_eq, log2_shiftLeft hm.ne']
  have hshift : shiftToTargetExponent .binary64 (m * 2 ^ k) e .exact = (⟨m, false, false⟩, e + k) := by
    rw [shiftToTargetExponent_eq, hlog, show (max (((m.log2 + k : ℕ) : ℤ) + e - 52) (-1074) - e).toNat = k by omega]
    exact Prod.ext (shiftRight_mul m k) rfl
  have hshift' : shiftToTargetExponent .binary64 m (e + k) .exact = (⟨m, false, false⟩, e + k) := by
    rw [shiftToTargetExponent_eq, htarget, sub_self]
    exact Prod.ext rfl (add_zero _)
  have hrounded : (ExtendedMantissa.mk m false false).roundedMantissa = m := rfl
  unfold UnpackedFloat.roundWithAccuracy
  rw [hshift]
  dsimp only
  rw [hrounded, hshift']
  exact dif_neg hm.ne'

/-- A number with the bits of a mantissa is not rounded, whatever places are added to it. -/
theorem roundWithAccuracy_mul_two_pow (s : Sign) {m : ℕ} (hm : 0 < m) (hlog : m.log2 = 52) (k : ℕ) {e : ℤ} (hmin : -1074 ≤ e + k) :
    roundWithAccuracy .binary64 s (m * 2 ^ k) e .exact = .finite s m (e + k) hm := by
  obtain ⟨hfull, hlt⟩ := log2_eq_iff_full.1 hlog
  exact IsPlaced.roundWithAccuracy ⟨hlt, hmin, .inl hfull⟩ s hm

/-! ## Values -/

/-- The value of an unpacked number; what is not finite has none. -/
def valueOf? : UnpackedFloat → Option ℚ
  | .finite s m e _ => some (s.apply m * 2 ^ e)
  | .zero _ => some 0
  | _ => none

/-- The value of a finite number. -/
theorem valueOf?_finite (s : Sign) (m : ℕ) (e : ℤ) (hm : 0 < m) : valueOf? (.finite s m e hm) = some ((s.apply m : ℚ) * 2 ^ e) := rfl

/-- The value of a double. -/
def value? (x : Float) : Option ℚ := valueOf? x.toModel.unpack

/-- The doubles with a value are those that are finite. -/
theorem isFinite_iff {x : Float} : Numeric.isFinite x = true ↔ ∃ v, value? x = some v := by
  have hfinite : Numeric.isFinite x = (!x.toModel.unpack.isNaN && !x.toModel.unpack.isInf) := rfl
  rw [hfinite]
  unfold value?
  cases x.toModel.unpack with
  | notANumber | infinity => exact iff_of_false nofun fun ⟨_, h⟩ => nomatch h
  | _ => exact iff_of_true rfl ⟨_, rfl⟩

/-- What has a value is a number. -/
theorem isNaN_of_value? {x : Float} {v : ℚ} (h : value? x = some v) : Numeric.isNaN x = false := by
  have hfinite := isFinite_iff.2 ⟨v, h⟩
  exact Bool.eq_false_iff.2 fun hnan => by simp [Numeric.isFinite, hnan] at hfinite

/-- A double with a value is a zero or a number in place. -/
theorem cases_of_value? {x : Float} {v : ℚ} (h : value? x = some v) : (∃ s, x.toModel.unpack = .zero s ∧ v = 0) ∨
    ∃ s m e hm, x.toModel.unpack = .finite s m e hm ∧ IsPlaced m e ∧ e ≤ 971 ∧ v = s.apply m * 2 ^ e := by
  unfold value? at h
  cases hx : x.toModel.unpack with
  | notANumber =>
    rw [hx] at h
    nomatch h
  | infinity s =>
    rw [hx] at h
    nomatch h
  | zero s =>
    rw [hx] at h
    exact .inl ⟨s, rfl, (Option.some.inj h).symm⟩
  | finite s m e hm =>
    rw [hx] at h
    obtain ⟨hplaced, hmax⟩ := isPlaced_of_unpack hx
    exact .inr ⟨s, m, e, hm, rfl, hplaced, hmax, (Option.some.inj h).symm⟩

/-- A sign of a mantissa as a factor. -/
theorem cast_apply (s : Sign) (m : ℕ) : ((s.apply m : ℤ) : ℚ) = s.apply 1 * m := by
  cases s with
  | positive => simp [Sign.apply]
  | negative => simp [Sign.apply]

/-- The other sign negates a mantissa. -/
theorem apply_neg (s : Sign) (m : ℕ) : (-s).apply m = -s.apply m := by
  cases s with
  | positive => rfl
  | negative => exact (neg_neg _).symm

/-- Without its sign, the value of a finite number is its magnitude. -/
theorem abs_apply_mul (s : Sign) (m : ℕ) (e : ℤ) : |(s.apply m : ℚ) * 2 ^ e| = m * 2 ^ e := by
  have hsign : |((s.apply 1 : ℤ) : ℚ)| = 1 := by cases s <;> decide
  rw [cast_apply, abs_mul, abs_mul, hsign, one_mul, abs_of_nonneg (Nat.cast_nonneg m), abs_of_nonneg (zpow_nonneg zero_le_two e)]

/-- The negated double has the negated value. -/
theorem value?_neg {x : Float} {v : ℚ} (h : value? x = some v) : value? (-x) = some (-v) := by
  have hneg : value? (-x) = valueOf? x.toModel.unpack.neg := congrArg valueOf? (unpack_neg x)
  rw [hneg]
  rcases cases_of_value? h with ⟨s, hx, rfl⟩ | ⟨s, m, e, hm, hx, -, -, rfl⟩
  · rw [hx]
    exact congrArg some neg_zero.symm
  · have hneg : UnpackedFloat.neg (.finite s m e hm) = .finite (-s) m e hm := rfl
    rw [hx, hneg, valueOf?_finite, apply_neg, Int.cast_neg, neg_mul]

/-- What has no value is packed as what has none. -/
theorem valueOf?_unpack_pack {u : UnpackedFloat} (h : valueOf? u = none) :
    valueOf? (.unpack .binary64 (UnpackedFloat.pack .binary64 u)) = none := by
  cases u with
  | notANumber => rfl
  | infinity s => exact congrArg valueOf? (unpack_pack_infinity s)
  | zero | finite => nomatch h

/-- What is taken from something without a value leaves something without a value. -/
theorem value?_sub_eq_none {x : Float} (h : value? x = none) (y : Float) : value? (x - y) = none := by
  refine valueOf?_unpack_pack (u := .sub .binary64 x.toModel.unpack y.toModel.unpack) ?_
  unfold value? at h
  generalize x.toModel.unpack = u at h
  cases u with
  | notANumber => rfl
  | infinity s =>
    cases y.toModel.unpack with
    | infinity t => cases s <;> cases t <;> rfl
    | _ => rfl
  | zero | finite => nomatch h

/-- A finite number has a value other than zero. -/
theorem apply_mul_ne_zero (s : Sign) {m : ℕ} (hm : 0 < m) (e : ℤ) : (s.apply m : ℚ) * 2 ^ e ≠ 0 := by
  have hsign : ((s.apply 1 : ℤ) : ℚ) ≠ 0 := by cases s <;> decide
  rw [cast_apply]
  exact mul_ne_zero (mul_ne_zero hsign (Nat.cast_ne_zero.2 hm.ne')) (zpow_ne_zero e two_ne_zero)

/-- A number in place is not zero when it is packed. -/
theorem IsPlaced.unpack_pack_ne_zero {m : ℕ} {e : ℤ} (h : IsPlaced m e) (s t : Sign) (hm : 0 < m) :
    UnpackedFloat.unpack .binary64 (UnpackedFloat.pack .binary64 (.finite s m e hm)) ≠ .zero t := by
  rw [unpack_pack_of_isPlaced s hm h]
  by_cases hmax : e ≤ 971
  · rw [if_pos hmax]
    nofun
  · rw [if_neg hmax]
    nofun

/-- What is normalized with an exponent that doubles have is zero only if the mantissa is. -/
theorem normalize_eq_zero_iff {k e : ℤ} (hmin : -1074 ≤ e) :
    (∃ s, UnpackedFloat.unpack .binary64 (UnpackedFloat.pack .binary64 (UnpackedFloat.normalize .binary64 k e .positive)) = .zero s) ↔
      k = 0 := by
  have hround (s t : Sign) {n : ℕ} (hn : 0 < n) :
      UnpackedFloat.unpack .binary64 (UnpackedFloat.pack .binary64 (UnpackedFloat.round .binary64 s n e)) ≠ .zero t := by
    unfold UnpackedFloat.round decreaseExponent
    rw [targetExponent_eq]
    dsimp only
    obtain ⟨shift, hshift⟩ : ∃ shift, shift = (e - max (n.log2 + e - 52) (-1074)).toNat := ⟨_, rfl⟩
    have hpos : 0 < n <<< shift := by
      rw [Nat.shiftLeft_eq]
      exact Nat.mul_pos hn (Nat.two_pow_pos _)
    have hlog := log2_shiftLeft hn.ne' shift
    rw [← hshift]
    obtain ⟨m', e', hm', hrounded, hplaced⟩ := exists_roundWithAccuracy s hpos (e := e - shift) (by omega) (by omega) .exact
    rw [hrounded]
    exact hplaced.unpack_pack_ne_zero s t hm'
  unfold UnpackedFloat.normalize
  split
  · rename_i hneg
    rw [Int.compare_eq_lt] at hneg
    exact ⟨fun ⟨t, ht⟩ => absurd ht (hround _ t (by omega)), fun hzero => absurd hzero hneg.ne⟩
  · rename_i hzero
    rw [Int.compare_eq_eq] at hzero
    exact ⟨fun _ => hzero, fun _ => ⟨_, unpack_pack_zero _⟩⟩
  · rename_i hpos
    rw [Int.compare_eq_gt] at hpos
    exact ⟨fun ⟨t, ht⟩ => absurd ht (hround _ t (by omega)), fun hzero => absurd hzero hpos.ne'⟩

/-- Aligned mantissas with signs are those of the values. -/
theorem apply_decreaseExponent_mul (s : Sign) (m : ℕ) {e target : ℤ} (h : target ≤ e) :
    ((s.apply (decreaseExponent m e target).1 : ℤ) : ℚ) * 2 ^ target = s.apply m * 2 ^ e := by
  rw [cast_apply, cast_apply, mul_assoc, mul_assoc, decreaseExponent_mul_of_le m h]

/-- The difference of two doubles is zero if they have one value. -/
theorem sub_beq_zero_iff {x y : Float} {v w : ℚ} (hx : value? x = some v) (hy : value? y = some w) :
    (x - y == 0) = true ↔ v = w := by
  rw [beq_zero_iff, unpack_sub]
  rcases cases_of_value? hx with ⟨s, hu, rfl⟩ | ⟨s, m, e, hm, hu, hplaced, -, rfl⟩ <;>
    rcases cases_of_value? hy with ⟨t, hv, rfl⟩ | ⟨t, m', e', hm', hv, hplaced', -, rfl⟩ <;> rw [hu, hv]
  · refine iff_of_true ?_ rfl
    unfold UnpackedFloat.sub
    dsimp only
    split <;> exact ⟨_, unpack_pack_zero _⟩
  · refine iff_of_false ?_ (apply_mul_ne_zero t hm' e').symm
    rintro ⟨_, h⟩
    exact hplaced'.unpack_pack_ne_zero _ _ hm' h
  · refine iff_of_false ?_ (apply_mul_ne_zero s hm e)
    rintro ⟨_, h⟩
    exact hplaced.unpack_pack_ne_zero _ _ hm h
  · refine (normalize_eq_zero_iff (le_min hplaced.le hplaced'.le)).trans ?_
    rw [← apply_decreaseExponent_mul s m (min_le_left e e'), ← apply_decreaseExponent_mul t m' (min_le_right e e'), sub_eq_zero,
      mul_left_inj' (zpow_ne_zero _ two_ne_zero), Int.cast_inj]
    exact Iff.rfl

/-! ## Comparisons -/

/-- A number in place is less than the power of two that its mantissa has not reached. -/
theorem IsPlaced.mul_lt_zpow {m : ℕ} {e : ℤ} (h : IsPlaced m e) : (m : ℚ) * 2 ^ e < 2 ^ (53 + e) := by
  have hlt : (m : ℚ) < 2 ^ (53 : ℤ) := by
    rw [zpow_ofNat]
    exact_mod_cast h.lt
  rw [zpow_add₀ two_ne_zero]
  exact mul_lt_mul_of_pos_right hlt (zpow_pos two_pos e)

/-- A number with all bits of a mantissa is at least the power of two of the first one. -/
theorem zpow_le_mul {m : ℕ} (h : 2 ^ 52 ≤ m) (e : ℤ) : (2 : ℚ) ^ (52 + e) ≤ m * 2 ^ e := by
  have hle : (2 : ℚ) ^ (52 : ℤ) ≤ m := by
    rw [zpow_ofNat]
    exact_mod_cast h
  rw [zpow_add₀ two_ne_zero]
  exact mul_le_mul_of_nonneg_right hle (zpow_nonneg zero_le_two e)

/-- Of two numbers in place, the one with the smaller exponent is smaller. -/
theorem IsPlaced.mul_lt_mul {m m' : ℕ} {e e' : ℤ} (h : IsPlaced m e) (h' : IsPlaced m' e') (he : e < e') :
    (m : ℚ) * 2 ^ e < m' * 2 ^ e' := by
  have hfull : 2 ^ 52 ≤ m' := h'.full.resolve_right (by have := h.le; omega)
  calc (m : ℚ) * 2 ^ e < 2 ^ (53 + e) := h.mul_lt_zpow
    _ ≤ 2 ^ (52 + e') := zpow_le_zpow_right₀ one_le_two (by omega)
    _ ≤ m' * 2 ^ e' := zpow_le_mul hfull e'

/-- A double that is at least one in magnitude has all bits of a mantissa. -/
theorem exists_full_of_one_le_abs {x : Float} {v : ℚ} (h : value? x = some v) (hv : 1 ≤ |v|) :
    ∃ s m e hm, x.toModel.unpack = .finite s m e hm ∧ m.log2 = 52 ∧ -52 ≤ e ∧ e ≤ 971 ∧ v = s.apply m * 2 ^ e := by
  rcases cases_of_value? h with ⟨s, -, rfl⟩ | ⟨s, m, e, hm, hx, hplaced, hmax, rfl⟩
  · norm_num at hv
  rw [abs_apply_mul] at hv
  have hmin : -52 ≤ e := by
    by_contra hsmall
    exact hv.not_gt (hplaced.mul_lt_zpow.trans_le (zpow_le_one_of_nonpos₀ one_le_two (by omega)))
  have hfull : 2 ^ 52 ≤ m := hplaced.full.resolve_right (by omega)
  exact ⟨s, m, e, hm, hx, log2_eq_iff_full.2 ⟨hfull, hplaced.lt⟩, hmin, hmax, rfl⟩

/-- Numbers in place are one number if their magnitudes are equal. -/
theorem IsPlaced.eq_of_mul_eq {m m' : ℕ} {e e' : ℤ} (h : IsPlaced m e) (h' : IsPlaced m' e') (heq : (m : ℚ) * 2 ^ e = m' * 2 ^ e') :
    m = m' ∧ e = e' := by
  obtain he | rfl | he := lt_trichotomy e e'
  · exact absurd heq (h.mul_lt_mul h' he).ne
  · exact ⟨Nat.cast_injective (mul_right_cancel₀ (zpow_ne_zero e two_ne_zero) heq), rfl⟩
  · exact absurd heq (h'.mul_lt_mul h he).ne'

/-- Numbers in place without a sign are compared by their exponents, and then by their mantissas. -/
theorem compare_isPlaced {m m' : ℕ} {e e' : ℤ} (h : IsPlaced m e) (h' : IsPlaced m' e') :
    (compare e e').then (compare m m') = cmp ((m : ℚ) * 2 ^ e) (m' * 2 ^ e') := by
  obtain he | rfl | he := lt_trichotomy e e'
  · rw [Int.compare_eq_lt.2 he, (cmp_eq_lt_iff _ _).2 (h.mul_lt_mul h' he)]
    rfl
  · have hmantissas : cmp (m : ℚ) m' = compare m m' := (Nat.strictMono_cast.cmp_map_eq m m').trans (cmp_eq_compare m m')
    rw [Int.compare_eq_eq.2 rfl, cmp_mul_pos_right (zpow_pos two_pos e), hmantissas]
    rfl
  · rw [Int.compare_eq_gt.2 he, (cmp_eq_gt_iff _ _).2 (h'.mul_lt_mul h he)]
    rfl

/-- Doubles are compared by their values. -/
theorem compare_eq_cmp {x y : Float} {v w : ℚ} (hx : value? x = some v) (hy : value? y = some w) :
    UnpackedFloat.compare x.toModel.unpack y.toModel.unpack = some (cmp v w) := by
  have hpos (m : ℕ) (hm : 0 < m) (e : ℤ) : (0 : ℚ) < m * 2 ^ e := mul_pos (Nat.cast_pos.2 hm) (zpow_pos two_pos e)
  have hneg (m : ℕ) (hm : 0 < m) (e : ℤ) : -(m : ℚ) * 2 ^ e < 0 := by
    rw [neg_mul]
    exact neg_neg_of_pos (hpos m hm e)
  have hswap (a b : ℚ) : (cmp a b).swap = cmp (-a) (-b) := by
    rw [cmp_swap]
    unfold cmp cmpUsing
    simp only [neg_lt_neg_iff]
  rcases cases_of_value? hx with ⟨s, hu, rfl⟩ | ⟨s, m, e, hm, hu, hplaced, -, rfl⟩ <;>
    rcases cases_of_value? hy with ⟨t, hv, rfl⟩ | ⟨t, m', e', hm', hv, hplaced', -, rfl⟩ <;> rw [hu, hv]
  · rw [cmp_self_eq_eq]
    rfl
  · cases t
    · rw [(cmp_eq_gt_iff _ _).2 (by simpa [Sign.apply] using hneg m' hm' e')]
      rfl
    · rw [(cmp_eq_lt_iff _ _).2 (by simpa [Sign.apply] using hpos m' hm' e')]
      rfl
  · cases s
    · rw [(cmp_eq_lt_iff _ _).2 (by simpa [Sign.apply] using hneg m hm e)]
      rfl
    · rw [(cmp_eq_gt_iff _ _).2 (by simpa [Sign.apply] using hpos m hm e)]
      rfl
  · cases s <;> cases t
    · have hcompare : UnpackedFloat.compare (.finite .negative m e hm) (.finite .negative m' e' hm') =
          some (((compare e e').then (compare m m')).swap) := rfl
      rw [hcompare, compare_isPlaced hplaced hplaced', hswap, ← neg_mul, ← neg_mul, Sign.apply, Sign.apply, Int.cast_neg, Int.cast_neg]
      rfl
    · rw [(cmp_eq_lt_iff _ _).2 (by simpa [Sign.apply] using (hneg m hm e).trans (hpos m' hm' e'))]
      rfl
    · rw [(cmp_eq_gt_iff _ _).2 (by simpa [Sign.apply] using (hneg m' hm' e').trans (hpos m hm e))]
      rfl
    · exact congrArg some (compare_isPlaced hplaced hplaced')

/-- Doubles are equal if their values are. -/
theorem beq_iff_value {x y : Float} {v w : ℚ} (hx : value? x = some v) (hy : value? y = some w) : (x == y) = true ↔ v = w := by
  have hbeq : (x == y) = (UnpackedFloat.compare x.toModel.unpack y.toModel.unpack == some .eq) := rfl
  rw [hbeq, compare_eq_cmp hx hy, beq_iff_eq, Option.some_inj, cmp_eq_eq_iff]

/-- A double is at most another one if its value is. -/
theorem le_iff_value {x y : Float} {v w : ℚ} (hx : value? x = some v) (hy : value? y = some w) : x ≤ y ↔ v ≤ w := by
  have hle : x ≤ y ↔ (UnpackedFloat.compare x.toModel.unpack y.toModel.unpack).any (·.isLE) = true := decide_eq_true_iff
  rw [hle, compare_eq_cmp hx hy, Option.any_some, Ordering.isLE_iff_ne_gt, cmp_eq_gt_iff, not_lt]

end QuantityCalculus.Binary64
