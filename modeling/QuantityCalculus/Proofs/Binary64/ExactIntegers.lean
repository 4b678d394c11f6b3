import QuantityCalculus.Proofs.Binary64.Values

/-!
# Integers among the doubles

A double is an integer just if it has no fractional part (`fract_beq_zero_iff`), and an integer that fits in the bits of a mantissa is
a double, with zeros after its bits too (`value?_ofInt_mul`). Of the integers beyond `2 ^ 53` no odd one is (`value?_ne_of_odd`).
-/

namespace QuantityCalculus.Binary64

open Float.Model Float.Model.UnpackedFloat

/-! ## Integers -/

/-- A natural number below `2 ^ 53` is unpacked with all bits of a mantissa. -/
theorem unpack_toFloat {n places : ℕ} (h : n < 2 ^ 53) (hplaces : n.log2 + places = 52) (hpos : 0 < n <<< places) :
    n.toUInt64.toFloat.toModel.unpack = .finite .positive (n <<< places) (-places) hpos := by
  have hn : n ≠ 0 := by
    rintro rfl
    rw [Nat.zero_shiftLeft] at hpos
    exact hpos.ne rfl
  have htoNat : n.toUInt64.toNat = n := Nat.mod_eq_of_lt (h.trans (by decide))
  change UnpackedFloat.unpack .binary64 (UnpackedFloat.pack .binary64 (.ofNat .binary64 n.toUInt64.toNat)) = _
  rw [htoNat, ofNat_eq_finite hplaces hpos,
    unpack_pack_normal .positive hpos ((log2_shiftLeft hn places).trans hplaces) (by omega) (by omega)]

/-- A natural number below `2 ^ 53` gets places until its mantissa is full. -/
theorem exists_places {n : ℕ} (hn : 0 < n) (h : n < 2 ^ 53) : ∃ places, n.log2 + places = 52 ∧ 0 < n <<< places ∧
    ((n <<< places : ℕ) : ℚ) * 2 ^ (-places : ℤ) = n := by
  have hlog : n.log2 ≤ 52 := Nat.le_of_lt_succ ((Nat.log2_lt hn.ne').2 h)
  refine ⟨52 - n.log2, by omega, ?_, ?_⟩
  · rw [Nat.shiftLeft_eq]
    exact Nat.mul_pos hn (Nat.two_pow_pos _)
  · rw [Nat.shiftLeft_eq, zpow_neg, zpow_natCast]
    push_cast
    exact mul_inv_cancel_right₀ (pow_ne_zero _ two_ne_zero) _

/-- A natural number below `2 ^ 53` is the value of a double. -/
theorem value?_toFloat {n : ℕ} (h : n < 2 ^ 53) : value? n.toUInt64.toFloat = some (n : ℚ) := by
  obtain rfl | hn := Nat.eq_zero_or_pos n
  · exact congrArg valueOf? (unpack_pack_zero .positive)
  · obtain ⟨places, hplaces, hpos, hvalue⟩ := exists_places hn h
    unfold value?
    rw [unpack_toFloat h hplaces hpos, valueOf?_finite]
    exact congrArg some hvalue

/-- An integral double has the value of its integer. -/
theorem value?_integral (negative : Bool) {n : ℕ} (h : n < 2 ^ 53) :
    value? (integral negative n) = some (((signOf negative).apply n : ℤ) : ℚ) := by
  have hvalue := value?_toFloat h
  cases negative with
  | false => exact hvalue
  | true => exact (value?_neg hvalue).trans (congrArg some (Int.cast_neg _).symm)

/-- A double with a value has the shape of a finite one. -/
theorem exists_finite_shape {x : Float} {v : ℚ} (h : value? x = some v) : ∃ negative d, Decimal.shape x = .finite negative d := by
  let b : BitVec Format.binary64.numBits := x.toModel.toBits.toBitVec
  have hshape : Decimal.shape x = Decimal.Shape.ofFields (b.toNat / 2 ^ 63 == 1) (b.toNat / 2 ^ 52 % 2048) (b.toNat % 2 ^ 52) := rfl
  have hfinite : unpackExponent b ≠ -1#_ := by
    intro hones
    have hunpack : x.toModel.unpack = UnpackedFloat.unpack .binary64 b := rfl
    unfold value? at h
    rw [hunpack] at h
    unfold UnpackedFloat.unpack at h
    dsimp only at h
    rw [if_pos hones] at h
    split at h <;> nomatch h
  have hbiased : ¬((unpackExponent b).toNat == 2047) = true := fun heq => hfinite (BitVec.eq_of_toNat_eq (eq_of_beq heq))
  rw [hshape, ← unpackExponent_toNat b, ← unpackMantissa_toNat b]
  unfold Decimal.Shape.ofFields
  rw [if_neg hbiased]
  split <;> exact ⟨_, _, rfl⟩

/-- The value of a double is the magnitude with the sign of its shape. -/
theorem exists_shape {x : Float} {v : ℚ} (h : value? x = some v) :
    ∃ negative d, Decimal.shape x = .finite negative d ∧ v = (signOf negative).apply 1 * magnitude x := by
  obtain ⟨negative, d, hd⟩ := exists_finite_shape h
  refine ⟨negative, d, hd, ?_⟩
  rcases cases_of_value? h with ⟨s, hx, rfl⟩ | ⟨s, m, e, hm, hx, -, -, rfl⟩
  · have hzero : magnitude x = 0 := congrArg magnitudeOf hx
    rw [hzero, mul_zero]
  · have hmagnitude : magnitude x = m * 2 ^ e := congrArg magnitudeOf hx
    have hside : OnSide s x := by
      unfold OnSide
      rw [hx]
      rfl
    have hsign : signOf negative = s := by
      refine (hside.significand_eq_zero_or hd).resolve_left fun hzero => ?_
      have hne : magnitude x ≠ 0 := by
        rw [hmagnitude]
        exact mul_ne_zero (Nat.cast_ne_zero.2 hm.ne') (zpow_ne_zero e two_ne_zero)
      rw [(magnitude_of_shape hd).1, hzero] at hne
      exact hne (by simp)
    rw [hsign, hmagnitude, cast_apply, mul_assoc]

/-- The sign of the shape is that of the double. -/
theorem hasNegativeSign_of_shape {x : Float} {negative : Bool} {d : Decimal.Dyadic} (h : Decimal.shape x = .finite negative d) :
    Numeric.hasNegativeSign x = negative := by
  change (x.toBits.toNat / 2 ^ 63 == 1) = negative
  unfold Decimal.shape Decimal.Shape.ofFields at h
  dsimp only at h
  split at h
  · split at h <;> nomatch h
  split at h
  · exact (Decimal.Shape.finite.inj h).1
  · exact (Decimal.Shape.finite.inj h).1

/-- The double without its fractional part is the double itself if its last place is no fraction, and otherwise the integer next to it
on the side of zero. -/
theorem trunc_of_shape {x : Float} {negative : Bool} {d : Decimal.Dyadic} (h : Decimal.shape x = .finite negative d) :
    Numeric.trunc x = if 0 ≤ d.exponent then x else integral negative d.truncate := by
  unfold Numeric.trunc
  rw [hasNegativeSign_of_shape h]
  cases negative with
  | false =>
    change floor x = _
    unfold floor toIntegral
    rw [h]
    rfl
  | true =>
    change ceil x = _
    unfold ceil toIntegral
    rw [h]
    rfl

/-- The integer next to a double on the side of zero. -/
theorem truncate_of_shape {x : Float} {negative : Bool} {d : Decimal.Dyadic} (h : Decimal.shape x = .finite negative d) :
    truncate x = (signOf negative).apply d.truncate := by
  unfold truncate
  rw [h]
  cases negative <;> rfl

/-- A double has no fractional part just if its value is the integer next to it. -/
theorem fract_beq_zero_iff {x : Float} {v : ℚ} (h : value? x = some v) : (Numeric.fract x == 0) = true ↔ v = truncate x := by
  obtain ⟨negative, d, hshape, hv⟩ := exists_shape h
  unfold Numeric.fract
  rw [trunc_of_shape hshape, truncate_of_shape hshape]
  by_cases hexponent : 0 ≤ d.exponent
  · have hdenominator : d.denominator = 1 := by
      unfold Decimal.Dyadic.denominator
      rw [Int.toNat_of_nonpos (by omega), pow_zero]
    rw [if_pos hexponent, sub_beq_zero_iff h h, hv, magnitude_eq_div hshape, Decimal.Dyadic.truncate, hdenominator, Nat.div_one,
      Nat.cast_one, div_one, ← cast_apply]
  · have hnumerator : d.numerator = d.significand := by
      unfold Decimal.Dyadic.numerator
      rw [Int.toNat_of_nonpos (by omega), pow_zero, mul_one]
    have htruncate : d.truncate < 2 ^ 53 := by
      refine lt_of_le_of_lt (Nat.div_le_self _ _) ?_
      rw [hnumerator]
      exact (magnitude_of_shape hshape).2
    rw [if_neg hexponent, sub_beq_zero_iff h (value?_integral negative htruncate)]

/-- A double with an integer as its value is next to it. -/
theorem truncate_of_value? {x : Float} {n : ℤ} (h : value? x = some (n : ℚ)) : truncate x = n := by
  obtain ⟨negative, d, hshape, hv⟩ := exists_shape h
  have hpos : (0 : ℚ) < d.denominator := Nat.cast_pos.2 (denominator_pos d)
  have hmagnitude : magnitude x = n.natAbs := by
    have hnonneg : 0 ≤ magnitude x := magnitudeOf_nonneg _
    rw [Nat.cast_natAbs, Int.cast_abs, hv]
    cases negative <;> simp [signOf, Sign.apply, abs_of_nonneg hnonneg]
  have htruncate : d.truncate = n.natAbs := by
    have hnumerator : d.numerator = n.natAbs * d.denominator := by
      rw [magnitude_eq_div hshape, div_eq_iff hpos.ne'] at hmagnitude
      exact_mod_cast hmagnitude
    rw [Decimal.Dyadic.truncate, hnumerator, Nat.mul_div_cancel _ (denominator_pos d)]
  rw [hmagnitude, ← cast_apply] at hv
  rw [truncate_of_shape hshape, htruncate]
  exact_mod_cast hv.symm

/-- A double without a fractional part has an integer as its value. -/
theorem exists_integer_of_fract {x : Float} (h : (Numeric.fract x == 0) = true) : ∃ k : ℤ, value? x = some (k : ℚ) := by
  cases hv : value? x with
  | some v => exact ⟨truncate x, congrArg some ((fract_beq_zero_iff hv).1 h)⟩
  | none =>
    obtain ⟨s, hs⟩ := beq_zero_iff.1 h
    nomatch (congrArg valueOf? hs).symm.trans (value?_sub_eq_none hv (Numeric.trunc x))

/-- A magnitude as a double is that of the value. -/
theorem value?_abs {x : Float} {v : ℚ} (h : value? x = some v) : value? (Numeric.abs x) = some |v| := by
  obtain ⟨negative, d, hshape, hv⟩ := exists_shape h
  have hnonneg : 0 ≤ magnitude x := magnitudeOf_nonneg _
  unfold Numeric.abs
  rw [hasNegativeSign_of_shape hshape]
  cases negative with
  | false =>
    have hpos : v = magnitude x := by rw [hv]; simp [signOf, Sign.apply]
    rw [if_neg Bool.false_ne_true, abs_of_nonneg (hpos ▸ hnonneg), h]
  | true =>
    have hneg : v = -magnitude x := by rw [hv]; simp [signOf, Sign.apply]
    rw [if_pos rfl, value?_neg h, hneg, abs_neg, neg_neg, abs_of_nonneg hnonneg]

/-! ## The double of an integer -/

/-- A natural number with the bits of a mantissa and places, as a decimal number, is a double. -/
theorem value?_ofScientific {n m k : ℕ} (hlog : m.log2 = 52) (hk : k ≤ 971) (hn : n = m * 2 ^ k) :
    value? (Float.ofModel (Float.Model.ofScientific n 0)) = some (n : ℚ) := by
  have hm : 0 < m := Nat.pos_of_ne_zero fun h => by
    rw [h] at hlog
    exact absurd hlog (by decide)
  have hne : n ≠ 0 := by
    rw [hn]
    exact (Nat.mul_pos hm (Nat.two_pow_pos k)).ne'
  have hproduct : n <<< 53 * 10 ^ (0 : ℤ).toNat = m * 2 ^ (k + 53) := by
    rw [hn, Nat.shiftLeft_eq, Int.toNat_zero, pow_zero, mul_one, mul_assoc, ← pow_add]
  have hrounded : UnpackedFloat.ofScientific .binary64 n 0 = .finite .positive m (-53 + 0 + (k + 53 : ℕ)) hm := by
    unfold UnpackedFloat.ofScientific
    rw [dif_neg hne, if_neg (by decide), if_neg (by have := Int.natCast_nonneg n.log2; norm_num), if_pos le_rfl]
    have hmul : UnpackedFloat.mul .binary64 (.finite .positive (n <<< 53) (-53) (by simpa [Nat.pos_iff_ne_zero] using hne))
        (.finite .positive (10 ^ (0 : ℤ).toNat) 0 (Nat.pow_pos (by decide))) =
          roundWithAccuracy .binary64 .positive (n <<< 53 * 10 ^ (0 : ℤ).toNat) (-53 + 0) .exact := rfl
    refine hmul.trans ?_
    rw [hproduct]
    exact roundWithAccuracy_mul_two_pow .positive hm hlog (k + 53) (by omega)
  change valueOf? (.unpack .binary64 (UnpackedFloat.pack .binary64 (.ofScientific .binary64 n 0))) = _
  rw [hrounded, unpack_pack_normal .positive hm hlog (by omega) (by omega), valueOf?_finite]
  refine congrArg some ?_
  rw [hn, show (-53 + 0 + ((k + 53 : ℕ) : ℤ)) = k by omega, zpow_natCast]
  simp [Sign.apply]

/-- A double with all bits of a mantissa is not rounded when it is multiplied by one. -/
theorem unpack_mul_one {x : Float} {m : ℕ} {e : ℤ} {hm : 0 < m} (hlog : m.log2 = 52)
    (hx : x.toModel.unpack = .finite .positive m e hm) (hmin : -1074 ≤ e) (hmax : e ≤ 971) :
    (x * Float.exactlyRepresentablePowersOfTen[0]).toModel.unpack = .finite .positive m e hm := by
  have hone : Float.exactlyRepresentablePowersOfTen[0].toModel.unpack = .finite .positive (2 ^ 52) (-52) (by decide) := rfl
  rw [unpack_mul, hx, hone]
  change UnpackedFloat.unpack .binary64 (UnpackedFloat.pack .binary64
    (roundWithAccuracy .binary64 .positive (m * 2 ^ 52) (e + -52) .exact)) = _
  have he : e + -52 + (52 : ℕ) = e := by omega
  rw [roundWithAccuracy_mul_two_pow .positive hm hlog 52 (by omega), unpack_pack_normal .positive hm hlog (by omega) (by omega)]
  congr 1

/-- A natural number below `2 ^ 53` is the value of its double. -/
theorem value?_ofScientific_of_lt {n : ℕ} (hn : 0 < n) (hlt : n < 2 ^ 53) :
    value? (Float.ofScientific n false 0) = some (n : ℚ) := by
  unfold Float.ofScientific
  rw [dif_pos ⟨hlt, Nat.zero_le 22⟩]
  dsimp only
  rw [if_neg Bool.false_ne_true]
  obtain ⟨places, hplaces, hpos, hvalue⟩ := exists_places hn hlt
  have hlog : (n <<< places).log2 = 52 := (log2_shiftLeft hn.ne' places).trans hplaces
  have hproduct := unpack_mul_one hlog (unpack_toFloat hlt hplaces hpos) (by omega) (by omega)
  exact (congrArg valueOf? hproduct).trans (congrArg some hvalue)

/-- From `2 ^ 53` on, a natural number below it with places has all bits of a mantissa and places. -/
theorem exists_full {m k : ℕ} (hm : m < 2 ^ 53) (hle : 2 ^ 53 ≤ m * 2 ^ k) :
    ∃ m' k', m'.log2 = 52 ∧ k' ≤ k ∧ m * 2 ^ k = m' * 2 ^ k' := by
  have hne : m ≠ 0 := by
    rintro rfl
    rw [zero_mul] at hle
    exact absurd hle (by decide)
  have hlog : m.log2 ≤ 52 := Nat.le_of_lt_succ ((Nat.log2_lt hne).2 hm)
  have hplaces : 52 - m.log2 ≤ k := by
    by_contra hlt
    have hpow : m * 2 ^ k < 2 ^ (m.log2 + 1) * 2 ^ k := Nat.mul_lt_mul_of_pos_right Nat.lt_log2_self (Nat.two_pow_pos k)
    rw [← pow_add] at hpow
    have hmono : 2 ^ (m.log2 + 1 + k) ≤ 2 ^ 53 := Nat.pow_le_pow_right (by decide) (by omega)
    omega
  refine ⟨m <<< (52 - m.log2), k - (52 - m.log2), ?_, Nat.sub_le _ _, ?_⟩
  · rw [log2_shiftLeft hne]
    omega
  · rw [Nat.shiftLeft_eq, mul_assoc, ← pow_add, Nat.add_sub_cancel' hplaces]

/-- A natural number up to `2 ^ 53` with up to 64 places is the value of its double. -/
theorem value?_ofDecimal {m k : ℕ} (hm : m ≤ 2 ^ 53) (hk : k ≤ 64) :
    value? (ofDecimal (m * 2 ^ k) 0) = some ((m * 2 ^ k : ℕ) : ℚ) := by
  -- Of `2 ^ 53` one more place can be split off.
  obtain ⟨m, k, hm, hk, hsplit⟩ : ∃ m' k', m' < 2 ^ 53 ∧ k' ≤ 65 ∧ m * 2 ^ k = m' * 2 ^ k' := by
    obtain hlt | rfl := hm.lt_or_eq
    · exact ⟨m, k, hlt, by omega, rfl⟩
    · exact ⟨2 ^ 52, k + 1, by decide, by omega, by rw [pow_succ]; ring⟩
  rw [hsplit]
  clear hsplit
  generalize hn : m * 2 ^ k = n
  have hsize : n < 10 ^ 40 := by
    calc n ≤ 2 ^ 53 * 2 ^ k := hn ▸ Nat.mul_le_mul_right _ hm.le
      _ ≤ 2 ^ 53 * 2 ^ 65 := Nat.mul_le_mul_left _ (Nat.pow_le_pow_right (by decide) hk)
      _ < 10 ^ 40 := by norm_num
  unfold ofDecimal
  dsimp only
  obtain rfl | hpos := Nat.eq_zero_or_pos n
  · rfl
  have hdigits : Decimal.digitCount n ≤ 40 := by
    unfold Decimal.digitCount
    rw [if_neg (by simpa using hpos.ne')]
    exact (Nat.length_toDigits_le_iff (by decide) (by decide)).2 hsize
  rw [if_neg (by simp; omega), if_neg (by omega)]
  by_cases hlt : n < 2 ^ 53
  · exact value?_ofScientific_of_lt hpos hlt
  · obtain ⟨m', k', hlog, hk', hfull⟩ := exists_full hm (hn ▸ not_lt.1 hlt)
    have hscale : ¬(decide ((0 : ℤ) < 0)) = true := by decide
    unfold Float.ofScientific
    rw [dif_neg (fun h => hlt h.1), if_neg hscale]
    exact value?_ofScientific hlog (by omega) (hn ▸ hfull)

/-- An integer up to `2 ^ 53` in magnitude with up to 64 places is the value of its double. -/
theorem value?_ofInt_mul {m : ℤ} (hm : |m| ≤ 2 ^ 53) {k : ℕ} (hk : k ≤ 64) :
    value? (ofInt (m * 2 ^ k)) = some ((m * 2 ^ k : ℤ) : ℚ) := by
  have hnatAbs : m.natAbs ≤ 2 ^ 53 := by
    rw [Int.abs_eq_natAbs] at hm
    exact_mod_cast hm
  have hproduct : (m * 2 ^ k).natAbs = m.natAbs * 2 ^ k := by
    rw [Int.natAbs_mul, Int.natAbs_pow]
    rfl
  have hvalue := value?_ofDecimal hnatAbs hk
  rw [← hproduct] at hvalue
  unfold ofInt
  by_cases hneg : m * 2 ^ k < 0
  · rw [if_pos hneg, value?_neg hvalue, Nat.cast_natAbs, abs_of_neg hneg, Int.cast_neg, neg_neg]
  · rw [if_neg hneg, hvalue, Nat.cast_natAbs, abs_of_nonneg (not_lt.1 hneg)]

/-- An integer up to `2 ^ 53` in magnitude, or even and up to `2 ^ 54`, is the value of its double. -/
theorem value?_ofInt {n : ℤ} (h : |n| < 2 ^ 53 ∨ 2 ∣ n ∧ |n| ≤ 2 ^ 54) : value? (ofInt n) = some (n : ℚ) := by
  rcases h with hlt | ⟨⟨half, rfl⟩, hle⟩
  · have hvalue := value?_ofInt_mul hlt.le (Nat.zero_le 64)
    rwa [pow_zero, mul_one] at hvalue
  · have hhalf : |half| ≤ 2 ^ 53 := by
      rw [abs_mul, abs_two] at hle
      omega
    have hvalue := value?_ofInt_mul hhalf (k := 1) (by decide)
    rwa [pow_one, mul_comm] at hvalue

/-- A natural number up to `2 ^ 53` is the value of its double. -/
theorem value?_ofNat {n : ℕ} (h : n ≤ 2 ^ 53) : value? (Numeric.ofNat n) = some (n : ℚ) := by
  have hvalue := value?_ofInt_mul (m := n) (by rw [Nat.abs_cast]; exact_mod_cast h) (Nat.zero_le 64)
  rwa [pow_zero, mul_one] at hvalue

/-- No double has an odd integer beyond `2 ^ 53` as its value. -/
theorem value?_ne_of_odd (x : Float) {n : ℤ} (hodd : ¬2 ∣ n) (h : 2 ^ 53 < |n|) : value? x ≠ some (n : ℚ) := by
  intro hx
  rcases cases_of_value? hx with ⟨s, -, hv⟩ | ⟨s, m, e, hm, -, hplaced, -, hv⟩
  · obtain rfl : n = 0 := by exact_mod_cast hv
    exact hodd (dvd_zero 2)
  · by_cases he : 0 < e
    · -- With a positive exponent the value is even.
      obtain ⟨k, hk⟩ : ∃ k : ℕ, e = k + 1 := ⟨(e - 1).toNat, by omega⟩
      refine hodd ⟨s.apply m * 2 ^ k, ?_⟩
      rw [hk, zpow_add_one₀ two_ne_zero, zpow_natCast] at hv
      have hv' : (n : ℚ) = ((2 * (s.apply m * 2 ^ k) : ℤ) : ℚ) := by
        rw [hv]
        push_cast
        ring
      exact_mod_cast hv'
    · -- Otherwise the value is at most the mantissa.
      have hle : |(n : ℚ)| ≤ m := by
        have hpow : (2 : ℚ) ^ e ≤ 1 := zpow_le_one_of_nonpos₀ one_le_two (not_lt.1 he)
        rw [hv, abs_apply_mul]
        exact mul_le_of_le_one_right (Nat.cast_nonneg m) hpow
      have hle' : |n| ≤ m := by exact_mod_cast hle
      have := hplaced.lt
      omega

end QuantityCalculus.Binary64
