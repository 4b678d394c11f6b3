import QuantityCalculus.Composition
import QuantityCalculus.Fraction

/-!
# Units written as fractions
-/

namespace QuantityCalculus.Composition

variable {F : Type} [Numeric F]

/-- The conversion of fraction texts in a unit. -/
def fractionTransform (u : UnitOfMeasure F) (bounds : Fraction.Bounds) : Transform F :=
  ⟨fun x dep => x.expectText.bind fun text => (Fraction.read text).bind fun value => u.toBase (.number value) dep,
    fun x dep => (u.fromBase x dep).bind fun y => y.expectNumber.map fun value => .text (Fraction.write value bounds)⟩

/-- The unit whose quantities are written as fractions of a composable unit. -/
def fractional (c : Catalog F) (u : UnitOfMeasure F) (bounds : Fraction.Bounds) :
    Except CompositionError (UnitOfMeasure F) :=
  match check c u with
  | .error e => .error e
  | .ok () =>
    .ok ⟨none, u.symbol, u.name, u.dimension, .text, .functions (fractionTransform u bounds), none⟩

end QuantityCalculus.Composition
