import QuantityCalculus.Builtin.Arguments

/-!
# General functions

Rounding, signs, lengths, order and units.
-/

namespace QuantityCalculus

variable {F : Type} [Numeric F]

/-- The function on numbers. -/
def Rounding.of : Rounding → F → F
  | .abs => Numeric.abs
  | .floor => Numeric.floor
  | .ceil => Numeric.ceil
  | .round => Numeric.round
  | .trunc => Numeric.trunc

/-- One with the sign of a number; zeros, and what is not a number, are kept. -/
def signOf (x : F) : F := if x == 0 || Numeric.isNaN x then x else Numeric.signum x

namespace Builtin

variable (c : Catalog F)

/-- The sign of a number or an amount, without a unit. -/
def signum : Value F → Outcome (Value F)
  | .quantity q => Algebra.mapPayload c "sign" signOf q.payload
  | a => Algebra.mapPayload c "sign" signOf a

/-- The number of elements of an array, or of characters of a text. -/
def length : Value F → Outcome (Value F)
  | .array elems => .ok (.number (Numeric.ofNat elems.length))
  | .string s => .ok (.number (Numeric.ofNat s.length))
  | a => .error (Algebra.unaryTypeMismatch c "len" a)

/-- Whether each value has an accepted order with the next one. -/
def isOrdered (name : String) (accept : Ordering → Bool) : List (Value F) → Outcome Bool
  | a :: b :: rest => do
    if (← Algebra.ordering c name a b).any accept then isOrdered name accept (b :: rest) else return false
  | _ => .ok true

/-- Whether the arguments are ordered. -/
def ordered (name : String) (accept : Ordering → Bool) (args : List (Value F)) : Outcome (Value F) :=
  (isOrdered c name accept (spread args)).map .boolean

/-- The unit that a unit expression stands for. -/
def readUnit : Value F → Outcome (Value F)
  | .string s => ((UnitExpression.read c s).mapError .unitExpression).map .unit
  | a => .error (Algebra.unaryTypeMismatch c "unit" a)

end Builtin

end QuantityCalculus
