import QuantityCalculus.Numeric

/-!
# Payloads of conversions

Most units convert plain numbers. Units that are written as text exchange texts with their base unit, and units with several
components exchange one payload for each component.
-/

namespace QuantityCalculus

/-- What a unit converts. -/
inductive Scalar (F : Type) where
  | number (x : F)
  | text (s : String)
  | tuple (components : List (Scalar F))
  deriving Repr, Inhabited

/-- The kinds of payload. -/
inductive ScalarKind where
  | number | text | tuple
  deriving DecidableEq, Repr

/-- The word for a kind of payload. -/
def ScalarKind.name : ScalarKind → String
  | .number => "number"
  | .text => "text"
  | .tuple => "tuple"

namespace Scalar

variable {F : Type}

/-- The kind of a payload. -/
def kind : Scalar F → ScalarKind
  | .number _ => .number
  | .text _ => .text
  | .tuple _ => .tuple

mutual

/-- The text of a payload. -/
def display [Numeric F] : Scalar F → String
  | .number x => Numeric.text x
  | .text s => s
  | .tuple components => displayAll components

/-- The texts of payloads with spaces between them. -/
def displayAll [Numeric F] : List (Scalar F) → String
  | [] => ""
  | [c] => c.display
  | c :: cs => c.display ++ " " ++ displayAll cs

end

end Scalar

end QuantityCalculus
