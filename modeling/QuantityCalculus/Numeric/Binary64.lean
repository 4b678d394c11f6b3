import QuantityCalculus.Decimal.Shortest
import QuantityCalculus.Numeric

/-!
# Doubles as numbers

The double-precision floating-point numbers are the number type that runs. Decimal numerals, integers, remainders, texts and the
neighbouring integers go through exact integer arithmetic and are rounded once.
-/

namespace QuantityCalculus.Binary64

-- Powers of integers are those of the core library, whatever else is loaded.
attribute [local instance (1001)] instPowNat

open Decimal

/-- The double nearest to `digits * 10 ^ scale`. A number of digits that puts the value far outside the range of doubles decides
alone. -/
def ofDecimal (digits : Nat) (scale : Int) : Float :=
  let leading := (digitCount digits : Int) + scale
  if digits == 0 || leading < -400 then 0
  else if 400 < leading then 1 / 0
  else Float.ofScientific digits (scale < 0) scale.natAbs

/-- The double nearest to an integer. -/
def ofInt (n : Int) : Float :=
  if n < 0 then -ofDecimal n.natAbs 0 else ofDecimal n.natAbs 0

/-- The number with a sign whose magnitude is an integer times a power of two and exact. -/
def ofScaled (negative : Bool) (significand : Nat) (exponent : Int) : Float :=
  let sign : Float.Model.UnpackedFloat.Sign := if negative then .negative else .positive
  .ofModel (.pack (.round .binary64 sign significand exponent))

/-- The integer next to a double on the side of zero. -/
def truncate (x : Float) : Int :=
  match shape x with
  | .finite negative magnitude => if negative then -(magnitude.truncate : Int) else magnitude.truncate
  | _ => 0

/-- The double with a sign whose magnitude is an integer below `2 ^ 53`. -/
def integral (negative : Bool) (magnitude : Nat) : Float :=
  let x := magnitude.toUInt64.toFloat
  if negative then -x else x

/-- A double made an integer by a rule for the magnitudes of either sign. One whose last place is not a fraction is one already. -/
def toIntegral (rule : Bool → Decimal.Dyadic → Nat) (x : Float) : Float :=
  match shape x with
  | .finite negative magnitude => if 0 ≤ magnitude.exponent then x else integral negative (rule negative magnitude)
  | _ => x

/-- The greatest integer not above a double. -/
def floor : Float → Float :=
  toIntegral fun negative magnitude => if negative then magnitude.roundedUp else magnitude.truncate

/-- The least integer not below a double. -/
def ceil : Float → Float :=
  toIntegral fun negative magnitude => if negative then magnitude.truncate else magnitude.roundedUp

/-- The integer nearest to a double, a half away from zero. -/
def round : Float → Float :=
  toIntegral fun _ magnitude => magnitude.nearest

/-- The exact remainder of the division towards zero. -/
def remainder (x y : Float) : Float :=
  match shape x, shape y with
  | .finite negative a, .finite _ b =>
    if b.significand == 0 then 0 / 0
    else
      let exponent := min a.exponent b.exponent
      let dividend := a.significand * 2 ^ (a.exponent - exponent).toNat
      let divisor := b.significand * 2 ^ (b.exponent - exponent).toNat
      ofScaled negative (dividend % divisor) exponent
  | .finite _ _, .infinite _ => x
  | _, _ => 0 / 0

/-- The logarithm of one more than a number, exact also for small numbers. -/
def lnOnePlus (x : Float) : Float :=
  let u := 1 + x
  if u == 1 then x else if u.isInf then u else Float.log u * x / (u - 1)

/-- The magnitude of one number with the sign of another. -/
def withSignOf (x sign : Float) : Float :=
  if sign.toBits.toNat / 2 ^ (63 : Nat) == 1 then -x else x

/-- The inverse hyperbolic sine. -/
def asinh (x : Float) : Float :=
  let a := x.abs
  let inverse := 1 / a
  withSignOf (lnOnePlus (a + a / (Float.sqrt (1 + inverse * inverse) + inverse))) x

/-- The inverse hyperbolic cosine. -/
def acosh (x : Float) : Float :=
  if x < 1 then 0 / 0 else Float.log (x + Float.sqrt (x - 1) * Float.sqrt (x + 1))

/-- The inverse hyperbolic tangent. -/
def atanh (x : Float) : Float :=
  0.5 * lnOnePlus (2 * x / (1 - x))

/-- The elementary functions at a double. -/
def elementary : Elementary → Float → Float
  | .sin => Float.sin
  | .cos => Float.cos
  | .tan => Float.tan
  | .asin => Float.asin
  | .acos => Float.acos
  | .atan => Float.atan
  | .sinh => Float.sinh
  | .cosh => Float.cosh
  | .tanh => Float.tanh
  | .asinh => asinh
  | .acosh => acosh
  | .atanh => atanh
  | .exp => Float.exp
  | .ln => Float.log
  | .exp2 => Float.exp2
  | .log2 => Float.log2
  | .log10 => Float.log10

instance : Numeric Float where
  zero := 0
  one := 1
  decideLT := inferInstance
  decideLE := inferInstance
  ofInt := ofInt
  ofDecimal := ofDecimal
  infinity := 1 / 0
  notANumber := 0 / 0
  pi := 3.141592653589793
  e := 2.718281828459045
  isNaN := Float.isNaN
  isInfinite := Float.isInf
  hasNegativeSign x := x.toBits.toNat / 2 ^ (63 : Nat) == 1
  floor := floor
  ceil := ceil
  round := round
  truncate := truncate
  remainder := remainder
  pow := Float.pow
  sqrt := Float.sqrt
  elementary := elementary
  angle := Float.atan2
  text := floatText

end QuantityCalculus.Binary64
