import QuantityCalculus.Proofs.Binary64.Order

/-!
# Integers next to doubles

The floor, the ceiling and the nearest integer of a double are computed from the sign and the magnitude that its bits stand for. All
three stay on the side of zero that the double is on.
-/

namespace QuantityCalculus.Binary64

-- Powers of integers are those of the core library, whatever else is loaded.
attribute [local instance (1001)] instPowNat

open Decimal Float.Model Float.Model.UnpackedFloat

/-! ## The fields of a double -/

/-- The sign of a number that is said to be negative or not. -/
def signOf (negative : Bool) : Sign := if negative then .negative else .positive

/-- The sign is the first bit. -/
theorem unpackSign_toNat (b : BitVec Format.binary64.numBits) : (unpackSign b).toNat = b.toNat / 2 ^ (63 : Nat) := by
  have hbit : unpackSign b = BitVec.extractLsb' 63 1 b := rfl
  have hlt := b.isLt
  change b.toNat < 2 ^ (64 : Nat) at hlt
  rw [hbit, BitVec.extractLsb'_toNat, Nat.shiftRight_eq_div_pow]
  omega

/-- The mantissa is in the last bits. -/
theorem unpackMantissa_toNat (b : BitVec Format.binary64.numBits) : (unpackMantissa b).toNat = b.toNat % 2 ^ (52 : Nat) := by
  have hbits : unpackMantissa b = BitVec.extractLsb' 0 52 b := rfl
  rw [hbits, BitVec.extractLsb'_toNat, Nat.shiftRight_zero]

/-- The exponent is between them. -/
theorem unpackExponent_toNat (b : BitVec Format.binary64.numBits) :
    (unpackExponent b).toNat = b.toNat / 2 ^ (52 : Nat) % 2048 := by
  have hbits : unpackExponent b = BitVec.extractLsb' 52 11 b := rfl
  rw [hbits, BitVec.extractLsb'_toNat, Nat.shiftRight_eq_div_pow]
  rfl

/-- The sign that the first bit says. -/
theorem ofBitVec_unpackSign (b : BitVec Format.binary64.numBits) :
    Sign.ofBitVec (unpackSign b) = signOf (b.toNat / 2 ^ (63 : Nat) == 1) := by
  rw [← unpackSign_toNat]
  obtain h | h := BitVec.eq_zero_or_eq_one (unpackSign b)
  · rw [h]
    rfl
  · rw [h]
    rfl

/-- A finite double is a zero or has the sign that its bits say. -/
theorem OnSide.significand_eq_zero_or {s : Sign} {x : Float} (hx : OnSide s x) {negative : Bool} {magnitude : Decimal.Dyadic}
    (h : shape x = .finite negative magnitude) : magnitude.significand = 0 ∨ signOf negative = s := by
  let b : BitVec Format.binary64.numBits := x.toModel.toBits.toBitVec
  have hx : HasSign s (UnpackedFloat.unpack .binary64 b) := hx
  have h : Shape.ofFields (b.toNat / 2 ^ (63 : Nat) == 1) (b.toNat / 2 ^ (52 : Nat) % 2048) (b.toNat % 2 ^ (52 : Nat)) =
    .finite negative magnitude := h
  unfold UnpackedFloat.unpack at hx
  dsimp only at hx
  rw [ofBitVec_unpackSign] at hx
  rw [← unpackExponent_toNat, ← unpackMantissa_toNat] at h
  unfold Shape.ofFields at h
  split at h
  · split at h <;> nomatch h
  rename_i hexponent
  rw [if_neg (fun heq => hexponent (by rw [heq]; rfl))] at hx
  split at h
  · rename_i hzero
    obtain ⟨rfl, rfl⟩ := Shape.finite.inj h
    rw [if_pos (BitVec.eq_of_toNat_eq (eq_of_beq hzero))] at hx
    by_cases hmantissa : unpackMantissa b = 0#_
    · exact .inl (by rw [hmantissa]; rfl)
    · rw [dif_neg hmantissa] at hx
      exact .inr hx
  · rename_i hzero
    obtain ⟨rfl, rfl⟩ := Shape.finite.inj h
    rw [if_neg (fun heq => hzero (by rw [heq]; rfl))] at hx
    exact .inr hx

/-! ## Integral doubles -/

/-- A natural number as an unpacked number is not negative. -/
theorem hasSign_ofNat (spec : Format) (n : Nat) : HasSign .positive (UnpackedFloat.ofNat spec n) := by
  unfold UnpackedFloat.ofNat UnpackedFloat.ofInt UnpackedFloat.normalize
  split
  · rename_i h
    rw [Int.compare_eq_lt] at h
    omega
  · trivial
  · exact hasSign_roundWithAccuracy ..

/-- What an integer below `2 ^ 64` is as a double is on the positive side. -/
theorem onSide_toFloat (n : UInt64) : OnSide .positive n.toFloat := (hasSign_ofNat ..).unpack_pack

/-- The integral double with a sign is on its side. -/
theorem onSide_integral (negative : Bool) (n : Nat) : OnSide (signOf negative) (integral negative n) := by
  cases negative with
  | false => exact onSide_toFloat _
  | true => exact (onSide_toFloat _).neg

/-- The integral double zero is on either side. -/
theorem onSide_integral_zero (s : Sign) (negative : Bool) : OnSide s (integral negative 0) := by
  cases negative <;> trivial

/-! ## Rounding -/

/-- The magnitude zero is a quotient with numerator zero. -/
theorem numerator_eq_zero {d : Decimal.Dyadic} (h : d.significand = 0) : d.numerator = 0 := by
  rw [Decimal.Dyadic.numerator, h, Nat.zero_mul]

/-- The magnitude is a quotient with a denominator. -/
theorem denominator_pos (d : Decimal.Dyadic) : 0 < d.denominator := Nat.two_pow_pos _

/-- Zero without its fractional part is zero. -/
theorem truncate_eq_zero {d : Decimal.Dyadic} (h : d.significand = 0) : d.truncate = 0 := by
  rw [Decimal.Dyadic.truncate, numerator_eq_zero h, Nat.zero_div]

/-- Zero rounded up is zero. -/
theorem roundedUp_eq_zero {d : Decimal.Dyadic} (h : d.significand = 0) : d.roundedUp = 0 := by
  have := denominator_pos d
  rw [Decimal.Dyadic.roundedUp, numerator_eq_zero h]
  exact Nat.div_eq_of_lt (by omega)

/-- The integer nearest to zero is zero. -/
theorem nearest_eq_zero {d : Decimal.Dyadic} (h : d.significand = 0) : d.nearest = 0 := by
  have := denominator_pos d
  rw [Decimal.Dyadic.nearest, numerator_eq_zero h]
  exact Nat.div_eq_of_lt (by omega)

/-- The integer that a double is rounded to is on its side, by a rule that keeps zero. -/
theorem OnSide.toIntegral {s : Sign} {x : Float} (hx : OnSide s x) {rule : Bool → Decimal.Dyadic → Nat}
    (hrule : ∀ negative magnitude, magnitude.significand = 0 → rule negative magnitude = 0) :
    OnSide s (toIntegral rule x) := by
  unfold Binary64.toIntegral
  split
  · rename_i negative magnitude hshape
    split
    · exact hx
    obtain hzero | rfl := hx.significand_eq_zero_or hshape
    · rw [hrule _ _ hzero]
      exact onSide_integral_zero s negative
    · exact onSide_integral ..
  · exact hx

/-- The nearest integer is on the side of a double. -/
theorem OnSide.round {s : Sign} {x : Float} (hx : OnSide s x) : OnSide s (Binary64.round x) :=
  hx.toIntegral fun _ _ h => nearest_eq_zero h

/-- The ceiling is on the side of a double. -/
theorem OnSide.ceil {s : Sign} {x : Float} (hx : OnSide s x) : OnSide s (Binary64.ceil x) := by
  refine hx.toIntegral fun negative magnitude h => ?_
  cases negative with
  | false => exact roundedUp_eq_zero h
  | true => exact truncate_eq_zero h

/-- The floor is on the side of a double. -/
theorem OnSide.floor {s : Sign} {x : Float} (hx : OnSide s x) : OnSide s (Binary64.floor x) := by
  refine hx.toIntegral fun negative magnitude h => ?_
  cases negative with
  | false => exact truncate_eq_zero h
  | true => exact roundedUp_eq_zero h

end QuantityCalculus.Binary64
