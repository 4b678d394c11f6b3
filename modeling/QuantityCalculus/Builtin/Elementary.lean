import QuantityCalculus.Builtin.Arguments
import QuantityCalculus.Numeric.Gamma

/-!
# Elementary functions

Functions of real numbers take quantities by their base values, so that an angle in degrees goes through radians. Powers and roots keep
track of units.
-/

namespace QuantityCalculus.Builtin

variable {F : Type} [Numeric F] (c : Catalog F)

/-- A function of a real number, element by element. -/
def onReal (name : String) (f : F → F) : Value F → Outcome (Value F) :=
  Algebra.mapElements fun a => (Algebra.real c name a).map fun x => .number (f x)

/-- A function of two real numbers. -/
def onReals (name : String) (f : F → F → Outcome F) (a b : Value F) : Outcome (Value F) := do
  let x ← Algebra.real c name a
  let y ← Algebra.real c name b
  return .number (← f x y)

/-- The power of ten. -/
def powerOfTen (x : F) : F := Numeric.pow (Numeric.ofNat 10) x

/-- The square of a value. -/
def square (a : Value F) : Outcome (Value F) := Algebra.pow c a (.number (Numeric.ofNat 2))

/-- The third power of a value. -/
def powerOfThree (a : Value F) : Outcome (Value F) := Algebra.pow c a (.number (Numeric.ofNat 3))

/-- The natural logarithm, or that to a base. -/
def logarithm (a : Value F) : Option (Value F) → Outcome (Value F)
  | none => (Algebra.real c "log" a).map fun x => .number (Numeric.elementary .ln x)
  | some base => onReals c "log" (fun x y => .ok (Numeric.elementary .ln x / Numeric.elementary .ln y)) a base

/-- The beta function, of positive numbers only. -/
def betaOf (x y : F) : Outcome F :=
  if x ≤ 0 ∨ y ≤ 0 then .error (.domain "beta" .notPositive) else .ok (Numeric.beta x y)

/-- The root of the sum of two squares. -/
def hypotenuse (a b : Value F) : Outcome (Value F) := do
  let x ← square c a
  let y ← square c b
  Algebra.root c (.number (Numeric.ofNat 2)) (← Algebra.add c x y)

end QuantityCalculus.Builtin
