import QuantityCalculus.Proofs.Binary64.Order
import QuantityCalculus.Token.Scan

/-!
# The sign of a literal

A numeral without a sign is read as a double whose sign bit is not set: rounding keeps the sign, and products and quotients of
numbers without a negative sign have none. So the text of a literal never starts with a minus.
-/

namespace QuantityCalculus.Binary64

-- Powers of integers are those of the core library, whatever else is loaded.
attribute [local instance (1001)] instPowNat

open Float.Model Float.Model.UnpackedFloat

/-- No negative sign; what is not a number has no sign at all. -/
def IsUnsigned : UnpackedFloat → Prop
  | .infinity s | .zero s | .finite s _ _ _ => s = .positive
  | .notANumber => True

/-! ## Rounding -/

/-- Rounding keeps the sign. -/
theorem isUnsigned_roundWithAccuracy (spec : Format) (m : Nat) (e : Int) (accuracy : Accuracy) :
    IsUnsigned (roundWithAccuracy spec .positive m e accuracy) := by
  unfold roundWithAccuracy
  exact dite_induction (fun _ => rfl) fun _ => rfl

/-- A natural number has no sign. -/
theorem isUnsigned_ofNat (spec : Format) (n : Nat) : IsUnsigned (UnpackedFloat.ofNat spec n) := by
  unfold UnpackedFloat.ofNat UnpackedFloat.ofInt UnpackedFloat.normalize
  split
  · rename_i h
    rw [Int.compare_eq_lt] at h
    omega
  · rfl
  · exact isUnsigned_roundWithAccuracy ..

/-- A product without negative factors has no sign. -/
theorem IsUnsigned.mul (spec : Format) {x y : UnpackedFloat} (hx : IsUnsigned x) (hy : IsUnsigned y) :
    IsUnsigned (UnpackedFloat.mul spec x y) := by
  cases x <;> cases y <;> cases hx <;> cases hy <;>
    first | exact isUnsigned_roundWithAccuracy .. | rfl | trivial

/-- A quotient of numbers without a sign has none. -/
theorem IsUnsigned.div (spec : Format) {x y : UnpackedFloat} (hx : IsUnsigned x) (hy : IsUnsigned y) :
    IsUnsigned (UnpackedFloat.div spec x y) := by
  cases x <;> cases y <;> cases hx <;> cases hy <;>
    first | exact isUnsigned_roundWithAccuracy .. | rfl | trivial

/-- A decimal number has no sign. -/
theorem isUnsigned_ofScientific (spec : Format) (m : Nat) (e : Int) :
    IsUnsigned (UnpackedFloat.ofScientific spec m e) := by
  unfold UnpackedFloat.ofScientific
  refine dite_induction (fun _ => rfl) fun _ => iteInduction (fun _ => rfl) fun _ => iteInduction (fun _ => rfl) fun _ => ?_
  refine iteInduction (fun _ => ?_) fun _ => ?_
  · exact IsUnsigned.mul spec rfl rfl
  · exact IsUnsigned.div spec rfl rfl

/-! ## The sign bit -/

/-- The sign bit is not set. -/
def SignClear (x : Float) : Prop := x.toBits.toNat < 2 ^ (63 : Nat)

/-- Components with a positive sign leave the sign bit clear. -/
theorem packComponents_positive_lt (e : BitVec 11) (m : BitVec 52) :
    (packComponents Format.binary64 .positive e m).toNat < 2 ^ (63 : Nat) := by
  have h : (packComponents Format.binary64 .positive e m).toNat = (e ++ m).toNat := by
    change (0#1 ++ e ++ m).toNat = (e ++ m).toNat
    rw [BitVec.toNat_append, BitVec.toNat_append, BitVec.toNat_append]
    simp
  rw [h]
  exact (e ++ m).isLt

/-- What has no sign is packed with the sign bit clear. -/
theorem signClear_pack {x : UnpackedFloat} (h : IsUnsigned x) : SignClear (.ofModel (Float.Model.pack x)) := by
  change (UnpackedFloat.pack Format.binary64 x).toNat < 2 ^ (63 : Nat)
  cases x with
  | notANumber => exact packComponents_positive_lt _ _
  | infinity | zero =>
    cases h
    exact packComponents_positive_lt _ _
  | finite =>
    cases h
    unfold UnpackedFloat.pack
    dsimp only
    split
    · exact packComponents_positive_lt _ _
    split
    · exact packComponents_positive_lt _ _
    · exact packComponents_positive_lt _ _

/-- The sign of a number with the sign bit clear. -/
theorem unpackSign_of_lt {b : BitVec Format.binary64.numBits} (h : b.toNat < 2 ^ (63 : Nat)) : unpackSign b = 0#1 := by
  have hbit : unpackSign b = BitVec.extractLsb' 63 1 b := rfl
  apply BitVec.eq_of_toNat_eq
  rw [hbit]
  simp [Nat.shiftRight_eq_div_pow]
  omega

/-- What is unpacked from bits without the sign bit has no sign. -/
theorem isUnsigned_unpack {b : BitVec Format.binary64.numBits} (h : b.toNat < 2 ^ (63 : Nat)) :
    IsUnsigned (UnpackedFloat.unpack Format.binary64 b) := by
  unfold UnpackedFloat.unpack
  dsimp only
  rw [unpackSign_of_lt h]
  refine iteInduction (fun _ => ?_) fun _ => iteInduction (fun _ => ?_) fun _ => rfl
  · exact iteInduction (fun _ => rfl) fun _ => trivial
  · exact dite_induction (fun _ => rfl) fun _ => rfl

/-! ## Literals -/

/-- A product of numbers with the sign bit clear. -/
theorem SignClear.mul {x y : Float} (hx : SignClear x) (hy : SignClear y) : SignClear (x * y) :=
  signClear_pack ((isUnsigned_unpack hx).mul _ (isUnsigned_unpack hy))

/-- A quotient of numbers with the sign bit clear. -/
theorem SignClear.div {x y : Float} (hx : SignClear x) (hy : SignClear y) : SignClear (x / y) :=
  signClear_pack ((isUnsigned_unpack hx).div _ (isUnsigned_unpack hy))

/-- The powers of ten that are doubles have the sign bit clear. -/
theorem signClear_powersOfTen : ∀ (e : Nat) (h : e < Float.exactlyRepresentablePowersOfTen.size),
    SignClear Float.exactlyRepresentablePowersOfTen[e] := by
  unfold SignClear
  decide +kernel

/-- A decimal number has the sign bit clear. -/
theorem signClear_ofScientific (m : Nat) (s : Bool) (e : Nat) : SignClear (Float.ofScientific m s e) := by
  unfold Float.ofScientific
  have hm : SignClear m.toUInt64.toFloat := signClear_pack (isUnsigned_ofNat _ _)
  split
  · dsimp only
    split
    · exact hm.div (signClear_powersOfTen _ _)
    · exact hm.mul (signClear_powersOfTen _ _)
  · exact signClear_pack (isUnsigned_ofScientific ..)

/-- What a number of digits and a power of ten stand for has the sign bit clear. -/
theorem signClear_ofDecimal (digits : Nat) (scale : Int) : SignClear (ofDecimal digits scale) := by
  unfold ofDecimal
  dsimp only
  split
  · exact signClear_ofScientific ..
  split
  · exact (signClear_ofScientific ..).div (signClear_ofScientific ..)
  · exact signClear_ofScientific ..

end QuantityCalculus.Binary64
