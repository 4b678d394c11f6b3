import QuantityCalculus.Scalar

/-!
# Conversions

How a payload in a unit becomes one in the base unit of its dimension, and back. A conversion may need the value of an independent
variable, which is given in its own base unit.
-/

namespace QuantityCalculus

/-- Why a conversion fails. -/
inductive ConversionError where
  | wrongPayload (expected actual : ScalarKind)
  | badFraction (input : String)
  | wrongComponentCount (expected actual : Nat)
  | missingIndependentVariable
  | badInstructions (source step : String)
  | invalidColorCode (text : String)
  | noColorCode (ohms : String)
  deriving DecidableEq, Repr

/-- The text of a conversion error. -/
def ConversionError.message : ConversionError → String
  | .wrongPayload expected actual => "Expected a " ++ expected.name ++ ", got a " ++ actual.name
  | .badFraction input => "Cannot read '" ++ input ++ "' as a fraction"
  | .wrongComponentCount expected actual =>
    "Expected " ++ toString expected ++ " components, got " ++ toString actual
  | .missingIndependentVariable => "This conversion requires an independent variable"
  | .badInstructions source step =>
    "Invalid conversion instructions '" ++ source ++ "': bad step '" ++ step ++ "'"
  | .invalidColorCode text => "Invalid resistor color code '" ++ text ++ "'"
  | .noColorCode ohms => "No resistor color code for " ++ ohms ++ " ohms"

variable {F : Type}

/-- The number that a payload is. -/
def Scalar.expectNumber : Scalar F → Except ConversionError F
  | .number x => .ok x
  | x => .error (.wrongPayload .number x.kind)

/-- The text that a payload is. -/
def Scalar.expectText : Scalar F → Except ConversionError String
  | .text s => .ok s
  | x => .error (.wrongPayload .text x.kind)

/-- The components that a payload is. -/
def Scalar.expectTuple : Scalar F → Except ConversionError (List (Scalar F))
  | .tuple cs => .ok cs
  | x => .error (.wrongPayload .tuple x.kind)

/-- A conversion in one direction of a payload, given the independent variable if there is one. -/
abbrev Converter (F : Type) := Scalar F → Option (Scalar F) → Except ConversionError (Scalar F)

/-- The conversion of numbers by a function. -/
def Converter.ofNumeric (f : F → F) : Converter F := fun x _ =>
  x.expectNumber.map fun x => .number (f x)

/-- A conversion and its inverse. -/
structure Transform (F : Type) where
  toBase : Converter F
  fromBase : Converter F

/-- The conversion of numbers by two functions. -/
def Transform.ofNumeric (toBase fromBase : F → F) : Transform F :=
  ⟨.ofNumeric toBase, .ofNumeric fromBase⟩

/-- A scale: one of the unit is `multiplier / divisor` of the base unit. -/
structure Ratio (F : Type) where
  multiplier : F
  divisor : F
  deriving DecidableEq, Repr

namespace Ratio

variable [Numeric F]

/-- The scale of a base unit. -/
def one : Ratio F := ⟨1, 1⟩

/-- The number of base units in a number of units. -/
def toBase (r : Ratio F) (x : F) : F := x * r.multiplier / r.divisor

/-- The number of units in a number of base units. -/
def fromBase (r : Ratio F) (x : F) : F := x * r.divisor / r.multiplier

/-- The number of base units in one unit. -/
def value (r : Ratio F) : F := r.multiplier / r.divisor

/-- Whether a part of the scale is not a number. -/
def isNaN (r : Ratio F) : Bool := Numeric.isNaN r.multiplier || Numeric.isNaN r.divisor

end Ratio

end QuantityCalculus
