import QuantityCalculus.Conversion
import QuantityCalculus.Text.LowerCase
import QuantityCalculus.Text.Trim

/-!
# Color codes of resistors

A resistance is written as colored bands: digits, and then a band for the power of ten that multiplies them. Two bands stand for
negative powers. Writing uses two digits.
-/

namespace QuantityCalculus.ColorCode

-- Powers of integers are those of the core library, whatever else is loaded.
attribute [local instance (1001)] instPowNat

/-- The colors of the ten digits. -/
def digitColors : List String :=
  ["black", "brown", "red", "orange", "yellow", "green", "blue", "violet", "grey", "white"]

/-- The number that a color stands for; the two that stand for negative ones are no digits. -/
def value? (color : String) : Option Int :=
  if color == "gold" then some (-1)
  else if color == "silver" then some (-2)
  else (digitColors.findIdx? (· == color)).map Int.ofNat

/-- The color of a digit. -/
def digitColor (n : Nat) : String := (digitColors[n % 10]?).getD ""

/-- The color of a power of ten. -/
def multiplierColor? (exponent : Int) : Option String :=
  if exponent == -2 then some "silver"
  else if exponent == -1 then some "gold"
  else if 0 ≤ exponent && exponent ≤ 9 then digitColors[exponent.toNat]?
  else none

variable {F : Type} [Numeric F]

/-- The number of ohms that bands stand for, with digits first. -/
def ohms? (bands : List Int) : Option F :=
  match bands.getLast?, bands.dropLast with
  | none, _ => none
  | some _, [] => none
  | some multiplier, digits =>
    if digits.any (· < 0) then none
    else
      let significand : F := digits.foldl (fun n d => n * Numeric.ofNat 10 + Numeric.ofInt d) 0
      some (significand * Numeric.powInt (Numeric.ofNat 10) multiplier)

/-- The number of ohms that a text of bands stands for. -/
def read (text : String) : Except ConversionError F :=
  let colors := (Text.words text.toList).map fun band => Text.lowerCase (String.ofList band)
  match (colors.mapM value?).bind ohms? with
  | some x => .ok x
  | none => .error (.invalidColorCode text)

/-- A number of ohms as a number from ten up to a hundred, rounded, and a power of ten. -/
def normalized (ohms : F) : F × Int :=
  let exponent := Numeric.truncateBetween (-(2 ^ (31 : Nat))) (2 ^ (31 : Nat) - 1) (Numeric.floor (Numeric.elementary .log10 ohms)) - 1
  let significand := Numeric.round (ohms / Numeric.powInt (Numeric.ofNat 10) exponent)
  if (Numeric.ofNat 100 : F) ≤ significand then (significand / Numeric.ofNat 10, exponent + 1)
  else (significand, exponent)

/-- The bands for a number of ohms. -/
def write (ohms : F) : Except ConversionError String :=
  if !Numeric.isFinite ohms || ohms ≤ 0 then .error (.noColorCode (Numeric.text ohms))
  else
    let (significand, exponent) := normalized ohms
    match multiplierColor? exponent with
    | none => .error (.noColorCode (Numeric.text ohms))
    | some multiplier =>
      let tens := digitColor (Numeric.truncate (Numeric.floor (significand / Numeric.ofNat 10))).toNat
      let ones := digitColor (Numeric.truncate significand).toNat
      .ok (String.intercalate " " [tens, ones, multiplier])

end QuantityCalculus.ColorCode
