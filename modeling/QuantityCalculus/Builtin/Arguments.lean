import QuantityCalculus.Algebra

/-!
# Arguments of functions
-/

namespace QuantityCalculus.Builtin

variable {F : Type}

/-- The values that a function of several values is given: its arguments, or the elements of the array that is its only argument. -/
def spread : List (Value F) → List (Value F)
  | [.array elems] => elems
  | args => args

variable [Numeric F] (c : Catalog F)

/-- An argument that is an integer. -/
def integerArgument (name : String) : Value F → Outcome Int
  | .number x => Algebra.toInteger name x
  | a => .error (Algebra.unaryTypeMismatch c name a)

/-- An argument that is a matrix. -/
def matrixArgument (name : String) (a : Value F) : Outcome (Matrix (Value F)) :=
  match a.toMatrix? with
  | some m => .ok m
  | none => .error (Algebra.unaryTypeMismatch c name a)

end QuantityCalculus.Builtin
