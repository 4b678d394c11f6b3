import QuantityCalculus.Decimal.Numeral
import QuantityCalculus.RepeatedSquaring

/-!
# Number types

Quantities, units and expressions are generic in the type of their numbers. `Numeric` lists what a number type offers: the
field operations with an order, rounding, conversion to and from integers and decimal numerals, roots and powers, the
elementary functions, and the text of a number. Values for infinity and for what is not a number belong to it, since a
catalog and the expression language can name both.
-/

namespace QuantityCalculus

/-- The elementary functions of one number. -/
inductive Elementary where
  | sin | cos | tan | asin | acos | atan
  | sinh | cosh | tanh | asinh | acosh | atanh
  | exp | ln | exp2 | log2 | log10
  deriving DecidableEq, Repr

/-- What a type of numbers offers. -/
class Numeric (F : Type) extends Zero F, One F, Add F, Sub F, Mul F, Div F, Neg F, BEq F, LT F, LE F where
  /-- The order is decidable. -/
  decideLT : ∀ x y : F, Decidable (x < y)
  /-- The reflexive order is decidable. -/
  decideLE : ∀ x y : F, Decidable (x ≤ y)
  /-- The number nearest to an integer. -/
  ofInt : Int → F
  /-- The number nearest to `digits * 10 ^ scale`. -/
  ofDecimal : (digits : Nat) → (scale : Int) → F
  /-- The positive infinity. -/
  infinity : F
  /-- What is not a number. -/
  notANumber : F
  /-- The ratio of a circle's circumference to its diameter. -/
  pi : F
  /-- The base of the natural logarithm. -/
  e : F
  /-- Whether it is not a number. -/
  isNaN : F → Bool
  /-- Whether it is one of the two infinities. -/
  isInfinite : F → Bool
  /-- Whether its sign is negative, which a zero may be too. -/
  hasNegativeSign : F → Bool
  /-- The greatest integer not above. -/
  floor : F → F
  /-- The least integer not below. -/
  ceil : F → F
  /-- The nearest integer, a half away from zero. -/
  round : F → F
  /-- The integer next to a finite number on the side of zero. -/
  truncate : F → Int
  /-- The remainder of the division towards zero, with the sign of the dividend. -/
  remainder : F → F → F
  /-- The power with any exponent. -/
  pow : F → F → F
  /-- The non-negative square root. -/
  sqrt : F → F
  /-- An elementary function at a number. -/
  elementary : Elementary → F → F
  /-- The angle of the point whose second coordinate comes first. -/
  angle : F → F → F
  /-- The shortest text that reads back as the number. -/
  text : F → String

-- A type that has operations of its own keeps them.
attribute [instance (100)] Numeric.toZero Numeric.toOne Numeric.toAdd Numeric.toSub Numeric.toMul Numeric.toDiv Numeric.toNeg Numeric.toBEq
  Numeric.toLT Numeric.toLE

namespace Numeric

variable {F : Type} [Numeric F]

instance : DecidableLT F := decideLT

instance : DecidableLE F := decideLE

/-- The number nearest to a natural number. -/
def ofNat (n : Nat) : F := ofInt n

/-- The magnitude of a number. -/
def abs (x : F) : F := if hasNegativeSign x then -x else x

/-- The number without its fractional part. -/
def trunc (x : F) : F := if hasNegativeSign x then ceil x else floor x

/-- The fractional part, with the sign of the number. -/
def fract (x : F) : F := x - trunc x

/-- Neither infinite nor without a value. -/
def isFinite (x : F) : Bool := !isNaN x && !isInfinite x

/-- One with the sign of the number. -/
def signum (x : F) : F := if isNaN x then x else if hasNegativeSign x then -1 else 1

/-- The smaller of two numbers; what is not a number gives way. -/
def min (x y : F) : F := if isNaN x then y else if y < x then y else x

/-- The larger of two numbers; what is not a number gives way. -/
def max (x y : F) : F := if isNaN x then y else if x < y then y else x

/-- The integer next to a number on the side of zero, kept within bounds; zero for what is not a number. -/
def truncateBetween (low high : Int) (x : F) : Int :=
  if isNaN x then 0
  else if x ≤ ofInt low then low
  else if ofInt high ≤ x then high
  else truncate x

/-- The power with an integer exponent; a negative one inverts the power. -/
def powInt (x : F) (exponent : Int) : F :=
  let power := Id.run (powBySquaring (fun x y => pure (x * y)) 1 x exponent.natAbs)
  if exponent < 0 then 1 / power else power

/-- The remainder that is never negative. -/
def remainderEuclid (x y : F) : F :=
  let r := remainder x y
  if r < 0 then r + abs y else r

/-- The number that a numeral stands for. -/
def ofNumeral (n : Decimal.Numeral) : F :=
  let magnitude : F := match n.magnitude with
    | .infinity => infinity
    | .notANumber => notANumber
    | .decimal digits scale => ofDecimal digits scale
  if n.negative then -magnitude else magnitude

/-- The number that a text spells as a whole. -/
def read (cs : List Char) : Option F :=
  (Decimal.Numeral.read cs).map ofNumeral

/-- The text of a number in a displayed value: the two infinities by their sign, and no sign on zero. -/
def displayText (x : F) : String :=
  if isNaN x then "nan"
  else if isInfinite x then if 0 < x then "∞" else "-∞"
  else if x == 0 then "0"
  else text x

end Numeric

end QuantityCalculus
