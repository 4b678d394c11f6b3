import Mathlib.Algebra.Order.Field.Rat
import Mathlib.Algebra.Order.Ring.Abs
import Mathlib.Data.Rat.Floor
import Mathlib.Tactic.Linarith
import Mathlib.Tactic.Ring
import QuantityCalculus.Proofs.Binary64.Sign

/-!
# The magnitude of a double

Rounding passes no power of two: if the exact result of an operation is at most a power of two in magnitude, so is the double that it
is rounded to. This is first proved of unpacked numbers, for rounding, packing and each operation, and then of products and
differences of doubles (`magnitude_mul_le`, `magnitude_sub_le`) and of the doubles that integers are (`magnitude_toFloat_le`). What is
not finite is left aside, as its magnitude is zero here.
-/

namespace QuantityCalculus.Binary64

open Float.Model Float.Model.UnpackedFloat

/-! ## Shifting -/

/-- Halving again and again divides by a power of two. -/
theorem shiftRight_mantissa (em : ExtendedMantissa) (s : ℕ) : (em >>> s).mantissa = em.mantissa / 2 ^ s := by
  induction s with
  | zero => exact (Nat.div_one _).symm
  | succ s ih =>
    have hhalf : (em >>> (s + 1)).mantissa = (em >>> s).mantissa / 2 := rfl
    rw [hhalf, ih, Nat.div_div_eq_div_mul, pow_succ]

/-- Nothing is lost of a multiple of the power. -/
theorem shiftRight_mul (n s : ℕ) : ExtendedMantissa.mk (n * 2 ^ s) false false >>> s = ⟨n, false, false⟩ := by
  induction s generalizing n with
  | zero =>
    rw [pow_zero, mul_one]
    rfl
  | succ s ih =>
    have hhalf : ExtendedMantissa.mk (n * 2 ^ (s + 1)) false false >>> (s + 1) =
        (ExtendedMantissa.mk (n * 2 ^ (s + 1)) false false >>> s).shiftRightOne := rfl
    have hpow : n * 2 ^ (s + 1) = n * 2 * 2 ^ s := by rw [pow_succ', mul_assoc]
    rw [hhalf, hpow, ih]
    unfold ExtendedMantissa.shiftRightOne
    simp

/-- Rounding adds at most one. -/
theorem roundedMantissa_le_succ (em : ExtendedMantissa) : em.roundedMantissa ≤ em.mantissa + 1 := by
  obtain ⟨m, round, sticky⟩ := em
  cases round <;> cases sticky
  · exact Nat.le_succ m
  · exact Nat.le_succ m
  · exact Nat.add_le_add_left (Nat.le_of_lt_succ (Nat.mod_lt m (by decide))) m
  · exact le_rfl

/-- What is below a multiple of the power is shifted and rounded to at most the multiple, whatever was lost before. -/
theorem roundedMantissa_le_of_lt {em : ExtendedMantissa} {n s : ℕ} (h : em.mantissa < n * 2 ^ s) : (em >>> s).roundedMantissa ≤ n := by
  have hquotient : em.mantissa / 2 ^ s < n := Nat.div_lt_of_lt_mul (by rwa [mul_comm])
  have hle := roundedMantissa_le_succ (em >>> s)
  rw [shiftRight_mantissa] at hle
  omega

/-- What is at most a multiple of the power is shifted and rounded to at most the multiple. -/
theorem roundedMantissa_le {m n s : ℕ} (h : m ≤ n * 2 ^ s) :
    (ExtendedMantissa.mk m false false >>> s).roundedMantissa ≤ n := by
  obtain rfl | hlt := h.eq_or_lt
  · rw [shiftRight_mul]
    exact le_rfl
  · exact roundedMantissa_le_of_lt hlt

/-- The mantissa that an accuracy is paired with. -/
theorem mantissa_ofMantissaAndAccuracy (m : ℕ) (accuracy : Accuracy) :
    (ExtendedMantissa.ofMantissaAndAccuracy m accuracy).mantissa = m := by
  rcases accuracy with _ | (_ | _ | _) <;> rfl

/-! ## Unpacked numbers -/

/-- The magnitude of an unpacked number as a rational; what is not finite has none. -/
def magnitudeOf : UnpackedFloat → ℚ
  | .finite _ m e _ => m * 2 ^ e
  | _ => 0

/-- The magnitude of a finite number. -/
theorem magnitudeOf_finite (s : Sign) (m : ℕ) (e : ℤ) (hm : 0 < m) : magnitudeOf (.finite s m e hm) = m * 2 ^ e := rfl

/-- The exponent is none below those of doubles. -/
def InRange : UnpackedFloat → Prop
  | .finite _ _ e _ => -1074 ≤ e
  | _ => True

/-- No magnitude is negative. -/
theorem magnitudeOf_nonneg (u : UnpackedFloat) : 0 ≤ magnitudeOf u := by
  cases u with
  | finite s m e hm => exact mul_nonneg m.cast_nonneg (zpow_nonneg (by norm_num) _)
  | _ => exact le_rfl

/-- The exponent that a mantissa is shifted to. -/
theorem targetExponent_eq (m : ℕ) (e : ℤ) :
    Format.binary64.targetExponent (totalExponent m e) = max (m.log2 + e - 52) (-1074) := by
  have hmin : Format.binary64.minExponent = -1074 := by decide
  have hbits : Format.binary64.mantissaBits = 53 := rfl
  unfold Format.targetExponent totalExponent
  rw [hmin, hbits]
  omega

/-- A number with a mantissa that is at most a power of two has an exponent that is, too. -/
theorem log2_add_le {m : ℕ} (hm : m ≠ 0) {e k : ℤ} (h : (m : ℚ) * 2 ^ e ≤ 2 ^ k) : m.log2 + e ≤ k := by
  have hlog : (2 : ℚ) ^ m.log2 ≤ m := by exact_mod_cast Nat.log2_self_le hm
  have hle : (2 : ℚ) ^ (m.log2 + e) ≤ 2 ^ k := by
    rw [zpow_add₀ two_ne_zero, zpow_natCast]
    exact (mul_le_mul_of_nonneg_right hlog (zpow_nonneg zero_le_two _)).trans h
  exact (zpow_le_zpow_iff_right₀ one_lt_two).1 hle

/-- Shifting to the exponent that is aimed at and rounding passes no power of two, if nothing was lost before or the power is not
reached. -/
theorem roundedMantissa_mul_le {m : ℕ} {e k : ℤ} (hk : -1074 ≤ k) (h : (m : ℚ) * 2 ^ e ≤ 2 ^ k) {accuracy : Accuracy}
    (haccuracy : accuracy = .exact ∨ m ≠ 0 ∧ (m : ℚ) * 2 ^ e < 2 ^ k) {s : ℕ} (hs : s = (max (m.log2 + e - 52) (-1074) - e).toNat) :
    ((ExtendedMantissa.ofMantissaAndAccuracy m accuracy >>> s).roundedMantissa : ℚ) * 2 ^ (e + s) ≤ 2 ^ k := by
  obtain rfl | hm := eq_or_ne m 0
  · obtain rfl : accuracy = .exact := haccuracy.resolve_right fun hne => hne.1 rfl
    have hzero : (ExtendedMantissa.mk 0 false false >>> s).roundedMantissa ≤ 0 := roundedMantissa_le (Nat.zero_le _)
    rw [ExtendedMantissa.ofMantissaAndAccuracy, Nat.le_zero.1 hzero, Nat.cast_zero, zero_mul]
    exact zpow_nonneg zero_le_two k
  have hlog := log2_add_le hm h
  obtain ⟨n, hn⟩ : ∃ n : ℕ, e + s + n = k := ⟨(k - (e + s)).toNat, by omega⟩
  have hpow : (2 : ℚ) ^ k = (2 ^ n * 2 ^ s : ℕ) * 2 ^ e := by
    rw [← hn, zpow_add₀ two_ne_zero, zpow_add₀ two_ne_zero, zpow_natCast, zpow_natCast]
    push_cast
    ring
  have hrounded : (ExtendedMantissa.ofMantissaAndAccuracy m accuracy >>> s).roundedMantissa ≤ 2 ^ n := by
    rw [hpow] at h haccuracy
    rcases haccuracy with rfl | ⟨-, hlt⟩
    · exact roundedMantissa_le (Nat.cast_le.1 (le_of_mul_le_mul_right h (zpow_pos two_pos e)))
    · refine roundedMantissa_le_of_lt ?_
      rw [mantissa_ofMantissaAndAccuracy]
      exact Nat.cast_lt.1 (lt_of_mul_lt_mul_right hlt (zpow_nonneg zero_le_two e))
  calc ((ExtendedMantissa.ofMantissaAndAccuracy m accuracy >>> s).roundedMantissa : ℚ) * 2 ^ (e + s)
      ≤ (2 ^ n : ℕ) * 2 ^ (e + s) := mul_le_mul_of_nonneg_right (Nat.cast_le.2 hrounded) (zpow_nonneg zero_le_two _)
    _ = 2 ^ k := by
        rw [← hn, zpow_add₀ two_ne_zero (e + s), zpow_natCast]
        push_cast
        ring

/-- Rounding passes no power of two, if nothing was lost before or the power is not reached. -/
theorem magnitudeOf_roundWithAccuracy_le_zpow (sign : Sign) {m : ℕ} {e k : ℤ} (hk : -1074 ≤ k) (h : (m : ℚ) * 2 ^ e ≤ 2 ^ k)
    {accuracy : Accuracy} (haccuracy : accuracy = .exact ∨ m ≠ 0 ∧ (m : ℚ) * 2 ^ e < 2 ^ k) :
    magnitudeOf (roundWithAccuracy .binary64 sign m e accuracy) ≤ 2 ^ k := by
  unfold roundWithAccuracy shiftToTargetExponent shiftToExponent
  rw [targetExponent_eq]
  dsimp only
  generalize hs : (max (m.log2 + e - 52) (-1074) - e).toNat = s
  have hrounded := roundedMantissa_mul_le hk h haccuracy hs.symm
  generalize (ExtendedMantissa.ofMantissaAndAccuracy m accuracy >>> s).roundedMantissa = r at hrounded ⊢
  generalize (_ : ℤ).toNat = t
  rw [shiftRight_mantissa, mantissa_ofMantissaAndAccuracy]
  obtain hzero | hpos := eq_or_ne (r / 2 ^ t) 0
  · rw [dif_pos hzero]
    exact zpow_nonneg zero_le_two k
  · rw [dif_neg hpos]
    refine le_trans ?_ hrounded
    have hdiv : r / 2 ^ t * 2 ^ t ≤ r := Nat.div_mul_le_self _ _
    have hdiv' : ((r / 2 ^ t : ℕ) : ℚ) * 2 ^ t ≤ r := by exact_mod_cast hdiv
    have hpow : (2 : ℚ) ^ (e + s + t) = 2 ^ t * 2 ^ (e + s) := by rw [zpow_add₀ two_ne_zero, zpow_natCast, mul_comm]
    rw [magnitudeOf_finite, hpow, ← mul_assoc]
    exact mul_le_mul_of_nonneg_right hdiv' (zpow_nonneg zero_le_two _)

/-- Rounding passes no power of two. -/
theorem magnitudeOf_roundWithAccuracy_le (sign : Sign) {m : ℕ} {e : ℤ} {k : ℕ} (h : (m : ℚ) * 2 ^ e ≤ 2 ^ k) :
    magnitudeOf (roundWithAccuracy .binary64 sign m e .exact) ≤ 2 ^ k := by
  rw [← zpow_natCast] at h ⊢
  exact magnitudeOf_roundWithAccuracy_le_zpow sign (by omega) h (.inl rfl)

/-- A number with all bits of a mantissa and an exponent of doubles is not rounded. -/
theorem roundWithAccuracy_normal (s : Sign) {m : ℕ} (hm : 0 < m) {e : ℤ} (hlog : m.log2 = 52) (hmin : -1074 ≤ e) :
    roundWithAccuracy .binary64 s m e .exact = .finite s m e hm := by
  have hshift : shiftToTargetExponent .binary64 m e .exact = (⟨m, false, false⟩, e) := by
    unfold shiftToTargetExponent shiftToExponent
    rw [targetExponent_eq, hlog]
    dsimp only [ExtendedMantissa.ofMantissaAndAccuracy]
    rw [show (max (((52 : ℕ) : ℤ) + e - 52) (-1074) - e).toNat = 0 by omega]
    exact Prod.ext rfl (add_zero e)
  unfold roundWithAccuracy
  rw [hshift]
  have hrounded : (ExtendedMantissa.mk m false false).roundedMantissa = m := rfl
  dsimp only
  rw [hrounded, hshift]
  exact dif_neg hm.ne'

/-- Rounding gives an exponent that doubles have. -/
theorem inRange_roundWithAccuracy (sign : Sign) (m : ℕ) (e : ℤ) (accuracy : Accuracy) :
    InRange (roundWithAccuracy .binary64 sign m e accuracy) := by
  unfold roundWithAccuracy shiftToTargetExponent shiftToExponent
  rw [targetExponent_eq]
  dsimp only
  refine dite_induction (fun _ => trivial) fun _ => ?_
  unfold InRange
  dsimp only
  omega

/-! ## Packing -/

/-- The exponent of a double is none below the least one. -/
theorem inRange_unpack (b : BitVec Format.binary64.numBits) : InRange (UnpackedFloat.unpack .binary64 b) := by
  unfold UnpackedFloat.unpack
  dsimp only
  refine iteInduction (fun _ => iteInduction (fun _ => trivial) fun _ => trivial) fun _ => iteInduction (fun hzero => ?_) fun hzero => ?_
  · rw [hzero]
    refine dite_induction (fun _ => trivial) fun _ => ?_
    change (-1074 : ℤ) ≤ (0 : ℕ) - (1023 + 52) + 1
    decide
  · have hpos : (unpackExponent b).toNat ≠ 0 := fun h => hzero (BitVec.eq_of_toNat_eq h)
    change (-1074 : ℤ) ≤ (unpackExponent b).toNat - (1023 + 52)
    omega

/-- The leading bit of a mantissa is implicit. -/
theorem toNat_implicit (v : BitVec 52) : (1#1 ++ v).toNat = 2 ^ 52 + v.toNat := by
  rw [BitVec.toNat_append, ← Nat.shiftLeft_add_eq_or_of_lt v.isLt]
  rfl

/-- Components with an exponent that is not at either end are unpacked as they are. -/
theorem unpack_packComponents (s : Sign) {e : BitVec Format.binary64.exponentBits}
    {m : BitVec Format.binary64.mantissaBitsWithoutImplicit} (hones : e ≠ -1#_) (hzero : e ≠ 0#_) {n : ℕ}
    (hn : (1#1 ++ m).toNat = n) (hpos : 0 < n) :
    UnpackedFloat.unpack .binary64 (packComponents .binary64 s e m) = .finite s n (e.toNat - (1023 + 52)) hpos := by
  have hsign : Sign.ofBitVec s.toBitVec = s := by cases s <;> rfl
  subst hn
  unfold UnpackedFloat.unpack
  dsimp only
  rw [unpackSign_packComponents, hsign, if_neg (unpackExponent_packComponents.trans_ne hones),
    if_neg (unpackExponent_packComponents.trans_ne hzero)]
  congr 1
  · rw [unpackMantissa_packComponents]
  · rw [unpackExponent_packComponents]
    rfl

/-- A number with all bits of a mantissa and an exponent of doubles is packed as it is. -/
theorem unpack_pack_normal (s : Sign) {m : ℕ} (hm : 0 < m) {e : ℤ} (hlog : m.log2 = 52) (hmin : -1074 ≤ e) (hmax : e ≤ 971) :
    UnpackedFloat.unpack .binary64 (UnpackedFloat.pack .binary64 (.finite s m e hm)) = .finite s m e hm := by
  have hbounds := (Nat.log2_eq_iff hm.ne').1 hlog
  obtain ⟨biased, hbiased⟩ : ∃ biased : ℕ, e + 1023 + 52 = biased := ⟨(e + 1023 + 52).toNat, by omega⟩
  have hpack : UnpackedFloat.pack .binary64 (.finite s m e hm) =
      packComponents .binary64 s (BitVec.ofNat 11 biased) (BitVec.ofNat 52 m) := by
    change (if 2 ^ 11 ≤ (e + 1023 + 52).toNat + 1 then packedInfinity .binary64 s
      else if m.log2 + 1 = 53 then packComponents .binary64 s (BitVec.ofNat 11 (e + 1023 + 52).toNat) (BitVec.ofNat 52 m)
      else packComponents .binary64 s 0#11 (BitVec.ofNat 52 m)) = _
    rw [hbiased, Int.toNat_natCast, if_neg (by omega), if_pos (by omega)]
  have hexponent : (BitVec.ofNat 11 biased).toNat = biased := by
    rw [BitVec.toNat_ofNat, Nat.mod_eq_of_lt (by omega)]
  have hmantissa : (1#1 ++ BitVec.ofNat 52 m).toNat = m := by
    rw [toNat_implicit, BitVec.toNat_ofNat]
    omega
  have hones : BitVec.ofNat 11 biased ≠ -1#11 := by
    intro h
    rw [h] at hexponent
    change 2047 = biased at hexponent
    omega
  have hzero : BitVec.ofNat 11 biased ≠ 0#11 := by
    intro h
    rw [h] at hexponent
    change 0 = biased at hexponent
    omega
  have he : (biased : ℤ) - (1023 + 52) = e := by omega
  rw [hpack, unpack_packComponents s hones hzero hmantissa hm, hexponent, he]

/-- Components with the least exponent are unpacked as the mantissa in the last places. -/
theorem magnitudeOf_unpack_subnormal (s : Sign) (m : BitVec Format.binary64.mantissaBitsWithoutImplicit) :
    magnitudeOf (UnpackedFloat.unpack .binary64 (packComponents .binary64 s 0#_ m)) ≤ m.toNat * 2 ^ (-1074 : ℤ) := by
  have hones : (0#11 : BitVec Format.binary64.exponentBits) ≠ -1#_ := by decide
  unfold UnpackedFloat.unpack
  dsimp only
  rw [if_neg (unpackExponent_packComponents.trans_ne hones), if_pos unpackExponent_packComponents]
  by_cases hzero : unpackMantissa (packComponents .binary64 s 0#_ m) = 0#_
  · rw [dif_pos hzero]
    exact mul_nonneg (Nat.cast_nonneg _) (zpow_nonneg zero_le_two _)
  · rw [dif_neg hzero, magnitudeOf_finite, unpackMantissa_packComponents, unpackExponent_packComponents]
    exact le_rfl

/-- Packing does not add to a magnitude. -/
theorem magnitudeOf_unpack_pack_le {u : UnpackedFloat} (h : InRange u) :
    magnitudeOf (UnpackedFloat.unpack .binary64 (UnpackedFloat.pack .binary64 u)) ≤ magnitudeOf u := by
  cases u with
  | notANumber => exact le_rfl
  | zero s =>
    rw [unpack_pack_zero]
  | infinity s =>
    rw [unpack_pack_infinity]
  | finite s m e hm =>
    have hpack : UnpackedFloat.pack .binary64 (.finite s m e hm) =
        if 2 ^ 11 ≤ (e + 1023 + 52).toNat + 1 then packedInfinity .binary64 s
        else if m.log2 + 1 = 53 then packComponents .binary64 s (BitVec.ofNat 11 (e + 1023 + 52).toNat) (BitVec.ofNat 52 m)
        else packComponents .binary64 s 0#11 (BitVec.ofNat 52 m) := rfl
    by_cases hinfinite : 2 ^ 11 ≤ (e + 1023 + 52).toNat + 1
    · rw [hpack, if_pos hinfinite]
      exact (congrArg magnitudeOf (unpack_pack_infinity s)).le.trans (magnitudeOf_nonneg _)
    by_cases hlog : m.log2 + 1 = 53
    · rw [unpack_pack_normal s hm (by omega) h (by omega)]
    · have hmantissa : (BitVec.ofNat 52 m).toNat ≤ m := by
        rw [BitVec.toNat_ofNat]
        exact Nat.mod_le _ _
      rw [hpack, if_neg hinfinite, if_neg hlog]
      refine (magnitudeOf_unpack_subnormal s _).trans ?_
      rw [magnitudeOf_finite]
      exact mul_le_mul (Nat.cast_le.2 hmantissa) (zpow_le_zpow_right₀ one_le_two h) (zpow_nonneg zero_le_two _) (Nat.cast_nonneg _)

/-! ## Normalizing -/

/-- A mantissa is kept when places are added to it. -/
theorem decreaseExponent_mul (m : ℕ) (e target : ℤ) :
    ((decreaseExponent m e target).1 : ℚ) * 2 ^ (decreaseExponent m e target).2 = m * 2 ^ e := by
  unfold decreaseExponent
  dsimp only
  rw [Nat.shiftLeft_eq, Nat.cast_mul, Nat.cast_pow, mul_assoc, Nat.cast_ofNat, ← zpow_natCast, ← zpow_add₀ two_ne_zero,
    add_sub_cancel]

/-- A mantissa is kept when it is aligned. -/
theorem decreaseExponent_mul_of_le (m : ℕ) {e target : ℤ} (h : target ≤ e) :
    ((decreaseExponent m e target).1 : ℚ) * 2 ^ target = m * 2 ^ e := by
  have hexponent : (decreaseExponent m e target).2 = target := by
    unfold decreaseExponent
    dsimp only
    omega
  rw [← decreaseExponent_mul m e target, hexponent]

/-- A number that is normalized passes no power of two. -/
theorem magnitudeOf_normalize_le {m e : ℤ} {k : ℕ} (h : |(m : ℚ)| * 2 ^ e ≤ 2 ^ k) (zeroSign : Sign) :
    magnitudeOf (UnpackedFloat.normalize .binary64 m e zeroSign) ≤ 2 ^ k := by
  have hround (sign : Sign) : magnitudeOf (UnpackedFloat.round .binary64 sign m.natAbs e) ≤ 2 ^ k := by
    unfold UnpackedFloat.round
    dsimp only
    refine magnitudeOf_roundWithAccuracy_le sign ?_
    rw [decreaseExponent_mul, Nat.cast_natAbs, Int.cast_abs]
    exact h
  unfold UnpackedFloat.normalize
  split
  · rename_i hneg
    rw [Int.compare_eq_lt] at hneg
    rw [show (-m).toNat = m.natAbs by omega]
    exact hround _
  · exact pow_nonneg zero_le_two k
  · rename_i hpos
    rw [Int.compare_eq_gt] at hpos
    rw [show m.toNat = m.natAbs by omega]
    exact hround _

/-- What is normalized has an exponent that doubles have. -/
theorem inRange_normalize (m e : ℤ) (zeroSign : Sign) : InRange (UnpackedFloat.normalize .binary64 m e zeroSign) := by
  unfold UnpackedFloat.normalize UnpackedFloat.round
  split
  · exact inRange_roundWithAccuracy ..
  · trivial
  · exact inRange_roundWithAccuracy ..

/-- The difference of two numbers without a sign passes no power of two that their magnitudes do not differ by. -/
theorem magnitudeOf_sub_le {u v : UnpackedFloat} (hu : IsUnsigned u) (hv : IsUnsigned v) {k : ℕ}
    (h : |magnitudeOf u - magnitudeOf v| ≤ 2 ^ k) : magnitudeOf (UnpackedFloat.sub .binary64 u v) ≤ 2 ^ k := by
  have hpow : (0 : ℚ) ≤ 2 ^ k := pow_nonneg zero_le_two k
  cases u with
  | notANumber => exact hpow
  | infinity s =>
    cases v with
    | infinity t =>
      obtain rfl : s = .positive := hu
      obtain rfl : t = .positive := hv
      exact hpow
    | _ => exact hpow
  | zero s =>
    cases v with
    | zero t =>
      obtain rfl : s = .positive := hu
      obtain rfl : t = .positive := hv
      exact hpow
    | finite t m e hm =>
      change |0 - magnitudeOf (.finite t m e hm)| ≤ 2 ^ k at h
      rw [zero_sub, abs_neg, abs_of_nonneg (magnitudeOf_nonneg _)] at h
      exact h
    | _ => exact hpow
  | finite s m e hm =>
    cases v with
    | zero t =>
      change |magnitudeOf (.finite s m e hm) - 0| ≤ 2 ^ k at h
      rw [sub_zero, abs_of_nonneg (magnitudeOf_nonneg _)] at h
      exact h
    | finite t m' e' hm' =>
      obtain rfl : s = .positive := hu
      obtain rfl : t = .positive := hv
      refine magnitudeOf_normalize_le ?_ .positive
      have hpow : (0 : ℚ) < 2 ^ min e e' := zpow_pos two_pos _
      rw [magnitudeOf_finite, magnitudeOf_finite, ← decreaseExponent_mul_of_le m (min_le_left e e'),
        ← decreaseExponent_mul_of_le m' (min_le_right e e'), ← sub_mul, abs_mul, abs_of_pos hpow] at h
      rw [Int.cast_sub]
      exact h
    | _ => exact hpow

/-- A difference has an exponent that doubles have. -/
theorem inRange_sub {u v : UnpackedFloat} (hu : InRange u) (hv : InRange v) : InRange (UnpackedFloat.sub .binary64 u v) := by
  cases u <;> cases v <;> first
    | exact inRange_normalize ..
    | exact hu
    | exact hv
    | exact iteInduction (fun _ => trivial) fun _ => trivial

/-- A product passes no power of two that the product of the magnitudes does not. -/
theorem magnitudeOf_mul_le {u v : UnpackedFloat} {k : ℕ} (h : magnitudeOf u * magnitudeOf v ≤ 2 ^ k) :
    magnitudeOf (UnpackedFloat.mul .binary64 u v) ≤ 2 ^ k := by
  have hpow : (0 : ℚ) ≤ 2 ^ k := pow_nonneg zero_le_two k
  cases u with
  | finite s m e hm =>
    cases v with
    | finite t m' e' hm' =>
      refine magnitudeOf_roundWithAccuracy_le _ ?_
      rw [magnitudeOf_finite, magnitudeOf_finite, mul_mul_mul_comm, ← zpow_add₀ two_ne_zero] at h
      rw [Nat.cast_mul]
      exact h
    | _ => exact hpow
  | _ => cases v <;> exact hpow

/-- A product has an exponent that doubles have. -/
theorem inRange_mul (u v : UnpackedFloat) : InRange (UnpackedFloat.mul .binary64 u v) := by
  cases u <;> cases v <;> first
    | exact inRange_roundWithAccuracy ..
    | trivial

/-! ## Doubles -/

/-- The magnitude of a double as a rational; what is not finite has none. -/
def magnitude (x : Float) : ℚ := magnitudeOf x.toModel.unpack

/-- A product of doubles passes no power of two that the product of their magnitudes does not. -/
theorem magnitude_mul_le {x y : Float} {k : ℕ} (h : magnitude x * magnitude y ≤ 2 ^ k) : magnitude (x * y) ≤ 2 ^ k :=
  (magnitudeOf_unpack_pack_le (inRange_mul ..)).trans (magnitudeOf_mul_le h)

/-- A difference of doubles without a sign passes no power of two that their magnitudes do not differ by. -/
theorem magnitude_sub_le {x y : Float} (hx : SignClear x) (hy : SignClear y) {k : ℕ} (h : |magnitude x - magnitude y| ≤ 2 ^ k) :
    magnitude (x - y) ≤ 2 ^ k :=
  (magnitudeOf_unpack_pack_le (inRange_sub (inRange_unpack _) (inRange_unpack _))).trans
    (magnitudeOf_sub_le (isUnsigned_unpack hx) (isUnsigned_unpack hy) h)

/-- A negated double has no greater magnitude. -/
theorem magnitude_neg_le (x : Float) : magnitude (-x) ≤ magnitude x := by
  have hrange : InRange (UnpackedFloat.neg x.toModel.unpack) := by
    have h : InRange x.toModel.unpack := inRange_unpack _
    generalize x.toModel.unpack = u at h ⊢
    cases u <;> exact h
  have heq : magnitudeOf (UnpackedFloat.neg x.toModel.unpack) = magnitude x := by
    unfold magnitude
    generalize x.toModel.unpack = u
    cases u <;> rfl
  exact (magnitudeOf_unpack_pack_le hrange).trans heq.le

/-- An integer below `2 ^ 64` as a double passes no power of two that it does not. -/
theorem magnitude_toFloat_le {n : UInt64} {k : ℕ} (h : n.toNat ≤ 2 ^ k) : magnitude n.toFloat ≤ 2 ^ k := by
  refine (magnitudeOf_unpack_pack_le (inRange_normalize ..)).trans (magnitudeOf_normalize_le ?_ .positive)
  rw [Int.cast_natCast, abs_of_nonneg (Nat.cast_nonneg _), zpow_zero, mul_one]
  exact_mod_cast h

/-- Added places add to the logarithm. -/
theorem log2_shiftLeft {n : ℕ} (hn : n ≠ 0) (places : ℕ) : (n <<< places).log2 = n.log2 + places := by
  have hpos : 0 < 2 ^ places := Nat.two_pow_pos _
  rw [Nat.shiftLeft_eq, Nat.log2_eq_iff (Nat.mul_ne_zero hn hpos.ne'), add_right_comm, pow_add 2 n.log2, pow_add 2 (n.log2 + 1)]
  exact ⟨Nat.mul_le_mul_right _ (Nat.log2_self_le hn), Nat.mul_lt_mul_of_pos_right Nat.lt_log2_self hpos⟩

/-- A natural number below `2 ^ 53` gets places until its mantissa is full, and is not rounded. -/
theorem ofNat_eq_finite {n places : ℕ} (hplaces : n.log2 + places = 52) (hpos : 0 < n <<< places) :
    UnpackedFloat.ofNat .binary64 n = .finite .positive (n <<< places) (-places) hpos := by
  have hn : n ≠ 0 := by
    rintro rfl
    rw [Nat.zero_shiftLeft] at hpos
    exact hpos.ne rfl
  have hlog : (n <<< places).log2 = 52 := (log2_shiftLeft hn places).trans hplaces
  have htarget : decreaseExponent n 0 (max (n.log2 + 0 - 52) (-1074)) = (n <<< places, -(places : ℤ)) := by
    unfold decreaseExponent
    dsimp only
    rw [show (0 - max ((n.log2 : ℤ) + 0 - 52) (-1074)).toNat = places by omega, zero_sub]
  unfold UnpackedFloat.ofNat UnpackedFloat.ofInt UnpackedFloat.normalize
  rw [show compare (n : ℤ) 0 = .gt from Int.compare_eq_gt.2 (Int.natCast_pos.2 (Nat.pos_of_ne_zero hn))]
  dsimp only
  unfold UnpackedFloat.round
  dsimp only
  rw [Int.toNat_natCast, targetExponent_eq, htarget]
  exact roundWithAccuracy_normal _ hpos hlog (by omega)

/-- An integer below `2 ^ 53` is a double. -/
theorem magnitude_toFloat {n : UInt64} (h : n.toNat < 2 ^ 53) : magnitude n.toFloat = n.toNat := by
  change magnitudeOf (.unpack .binary64 (UnpackedFloat.pack .binary64 (.ofNat .binary64 n.toNat))) = n.toNat
  generalize n.toNat = n at h
  obtain rfl | hn := Nat.eq_zero_or_pos n
  · exact congrArg magnitudeOf (unpack_pack_zero .positive)
  have hlog : n.log2 ≤ 52 := Nat.le_of_lt_succ ((Nat.log2_lt hn.ne').2 h)
  obtain ⟨places, hplaces⟩ : ∃ places, n.log2 + places = 52 := ⟨52 - n.log2, by omega⟩
  have hpos : 0 < n <<< places := by
    rw [Nat.shiftLeft_eq]
    exact Nat.mul_pos hn (Nat.two_pow_pos _)
  rw [ofNat_eq_finite hplaces hpos,
    unpack_pack_normal .positive hpos ((log2_shiftLeft hn.ne' places).trans hplaces) (by omega) (by omega), magnitudeOf_finite,
    Nat.shiftLeft_eq, zpow_neg, zpow_natCast]
  push_cast
  exact mul_inv_cancel_right₀ (pow_ne_zero _ two_ne_zero) _

end QuantityCalculus.Binary64
