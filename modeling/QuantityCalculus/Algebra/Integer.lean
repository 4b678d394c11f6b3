import QuantityCalculus.Value

/-!
# Integers among the numbers

Some operations take integers only: those of a magnitude up to which every integer is a number. Bits are those of the two's complement
with 64 places.
-/

namespace QuantityCalculus.Algebra

-- Powers of integers are those of the core library, whatever else is loaded.
attribute [local instance (1001)] instPowNat

/-- Every integer up to this magnitude is a number. -/
def maxExactInteger : Int := 2 ^ (53 : Nat)

/-- The least integer of 64 bits. -/
def minInteger : Int := -2 ^ (63 : Nat)

/-- The greatest integer of 64 bits. -/
def maxInteger : Int := 2 ^ (63 : Nat) - 1

/-- The integer that a number is; `name` is the operation that needs it. -/
def toInteger {F : Type} [Numeric F] (name : String) (x : F) : Outcome Int :=
  if Numeric.isFinite x ∧ Numeric.fract x == 0 ∧ Numeric.abs x ≤ Numeric.ofInt maxExactInteger then
    .ok (Numeric.truncate x)
  else .error (.domain name (.notInteger (Numeric.text x)))

/-- An operation on the bits of two integers. -/
def onBits (f : BitVec 64 → BitVec 64 → BitVec 64) (i j : Int) : Int :=
  (f (.ofInt 64 i) (.ofInt 64 j)).toInt

/-- The bits of an integer moved to the left; what is moved out is lost. A negative amount moves them to the right and keeps the sign. -/
def shiftLeft (i amount : Int) : Int :=
  if 0 ≤ amount then if amount < 64 then (BitVec.ofInt 64 i <<< amount.toNat).toInt else 0
  else ((BitVec.ofInt 64 i).sshiftRight (min amount.natAbs 63)).toInt

/-- The bits of an integer moved to the right, by an amount that is negated within 64 bits. -/
def shiftRight (i amount : Int) : Int := shiftLeft i (min (-amount) maxInteger)

/-- All bits of an integer reversed. -/
def bitNot (i : Int) : Int := -i - 1

end QuantityCalculus.Algebra
