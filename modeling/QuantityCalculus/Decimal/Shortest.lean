import QuantityCalculus.Decimal.Digits
import QuantityCalculus.Decimal.Dyadic

/-!
# Shortest decimal text

A floating-point number stands for every real number that rounds to it. Of the decimal numbers among those, the shortest text
takes one with the fewest digits, of these the nearest to the number itself, and of two equally near the larger.
-/

namespace QuantityCalculus.Decimal

-- Powers of integers are those of the core library, whatever else is loaded.
attribute [local instance (1001)] instPowNat

/-- A quotient of two integers; the denominator is positive. -/
structure Quotient where
  num : Nat
  den : Nat
  deriving DecidableEq, Repr

/-- The magnitude of a dyadic number in quarters of its last place, as a quotient. -/
def Dyadic.quarters (d : Dyadic) (n : Nat) : Quotient :=
  ⟨n * 2 ^ (d.exponent - 2).toNat, 2 ^ (2 - d.exponent).toNat⟩

/-- The quotient measured in units of `10 ^ scale`. -/
def Quotient.inUnitsOf (x : Quotient) (scale : Int) : Quotient :=
  ⟨x.num * 10 ^ (-scale).toNat, x.den * 10 ^ scale.toNat⟩

/-- The least quarter of a last place that still rounds to the number, up to inclusion. -/
def Dyadic.lowQuarter (d : Dyadic) : Nat :=
  4 * d.significand - (if d.nextBelowCloser then 1 else 2)

/-- The greatest quarter of a last place that still rounds to the number, up to inclusion. -/
def Dyadic.highQuarter (d : Dyadic) : Nat :=
  4 * d.significand + 2

/-- Whether `n * 10 ^ scale` rounds to the number; ends of the interval count where the significand is even. -/
def Dyadic.covers (d : Dyadic) (scale : Int) (n : Nat) : Bool :=
  let low := (d.quarters d.lowQuarter).inUnitsOf scale
  let high := (d.quarters d.highQuarter).inUnitsOf scale
  if d.significand % 2 == 0 then low.num ≤ n * low.den && n * high.den ≤ high.num
  else low.num < n * low.den && n * high.den < high.num

/-- The multiple of `10 ^ scale` next to the number that rounds to it, if one does: the nearer of two, the larger at a tie. -/
def Dyadic.onGrid? (d : Dyadic) (scale : Int) : Option Nat :=
  let x := (d.quarters (4 * d.significand)).inUnitsOf scale
  let below := x.num / x.den
  let nearerBelow := 2 * (x.num % x.den) < x.den
  if d.covers scale below && (nearerBelow || !d.covers scale (below + 1)) then some below
  else if d.covers scale (below + 1) then some (below + 1)
  else none

/-- All digits of a dyadic number. -/
def Dyadic.allDigits (d : Dyadic) : Digits :=
  if 0 ≤ d.exponent then ⟨d.numerator, 0⟩ else ⟨d.significand * 5 ^ (-d.exponent).toNat, d.exponent⟩

/-- The digits on the first grid with a hit, from a scale on downwards; all digits where none of the grids has one. -/
def Dyadic.shortestFrom (d : Dyadic) : Int → Nat → Digits
  | _, 0 => d.allDigits
  | scale, grids + 1 =>
    match d.onGrid? scale with
    | some n => ⟨n, scale⟩
    | none => d.shortestFrom (scale - 1) grids

/-- The shortest digits of a positive dyadic number; seventeen always suffice for a double. -/
def Dyadic.shortest (d : Dyadic) : Digits :=
  d.shortestFrom (leadingExponent d.numerator d.denominator) 17

/-- The magnitude rounded to a count of significant digits, a half to the even neighbour. -/
def Dyadic.rounded (d : Dyadic) (digits : Nat) : Digits :=
  let scale := leadingExponent d.numerator d.denominator - digits + 1
  let x := (Quotient.mk d.numerator d.denominator).inUnitsOf scale
  let below := x.num / x.den
  let rest := 2 * (x.num % x.den)
  let n := if rest < x.den || rest == x.den && below % 2 == 0 then below else below + 1
  if n == 10 ^ digits then ⟨n / 10, scale + 1⟩ else ⟨n, scale⟩

/-- The text of a double without any exponent; it reads back as the same number. -/
def floatText (x : Float) : String :=
  match shape x with
  | .notANumber => "NaN"
  | .infinite negative => if negative then "-inf" else "inf"
  | .finite negative magnitude =>
    (if negative then "-" else "") ++
      (if magnitude.significand == 0 then "0" else magnitude.shortest.positional)

/-- The text of a double with a count of significant digits and an exponent; zero and what is not finite have the text that
needs no exponent. -/
def significantText (digits : Nat) (x : Float) : String :=
  match shape x with
  | .finite negative magnitude =>
    if magnitude.significand == 0 then floatText x
    else (if negative then "-" else "") ++ (magnitude.rounded digits).scientific
  | _ => floatText x

end QuantityCalculus.Decimal
