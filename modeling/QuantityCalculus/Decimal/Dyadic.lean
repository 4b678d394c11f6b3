/-!
# Dyadic numbers

A finite binary floating-point number is a signed integer times a power of two. `shape` reads that form off the sixty-four
bits of a double, so that its decimal text can be computed in exact integer arithmetic.
-/

namespace QuantityCalculus.Decimal

-- Powers of integers are those of the core library, whatever else is loaded.
attribute [local instance (1001)] instPowNat

/-- The magnitude `significand * 2 ^ exponent`; `nextBelowCloser` holds where the neighbour towards zero is only half as far
away as the neighbour away from zero. -/
structure Dyadic where
  significand : Nat
  exponent : Int
  nextBelowCloser : Bool
  deriving DecidableEq, Repr

/-- The kinds of floating-point number. -/
inductive Shape where
  | notANumber
  | infinite (negative : Bool)
  | finite (negative : Bool) (magnitude : Dyadic)
  deriving DecidableEq, Repr

/-- The kind of number that a sign, a biased exponent of eleven bits and a fraction of fifty-two bits stand for. -/
def Shape.ofFields (negative : Bool) (biased fraction : Nat) : Shape :=
  if biased == 2047 then
    if fraction == 0 then .infinite negative else .notANumber
  else if biased == 0 then .finite negative ⟨fraction, -1074, false⟩
  else .finite negative ⟨2 ^ (52 : Nat) + fraction, biased - 1075, fraction == 0 && biased != 1⟩

/-- The kind of number that a double is. -/
def shape (x : Float) : Shape :=
  let bits := x.toBits.toNat
  Shape.ofFields (bits / 2 ^ (63 : Nat) == 1) (bits / 2 ^ (52 : Nat) % 2048) (bits % 2 ^ (52 : Nat))

/-- Numerator of the magnitude as a quotient of two integers. -/
def Dyadic.numerator (d : Dyadic) : Nat :=
  d.significand * 2 ^ d.exponent.toNat

/-- Denominator of the magnitude as a quotient of two integers. -/
def Dyadic.denominator (d : Dyadic) : Nat :=
  2 ^ (-d.exponent).toNat

/-- The magnitude without its fractional part. -/
def Dyadic.truncate (d : Dyadic) : Nat :=
  d.numerator / d.denominator

/-- The least integer not below the magnitude. -/
def Dyadic.roundedUp (d : Dyadic) : Nat :=
  (d.numerator + d.denominator - 1) / d.denominator

/-- The integer nearest to the magnitude, the larger of two. -/
def Dyadic.nearest (d : Dyadic) : Nat :=
  (2 * d.numerator + d.denominator) / (2 * d.denominator)

end QuantityCalculus.Decimal
