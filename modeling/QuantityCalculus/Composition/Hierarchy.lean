import QuantityCalculus.Composition

/-!
# Mixed-radix units

Units such as feet and inches, whose quantities are written as one component for each unit, the most significant first. Every
component but the last is an integer, and the last one is what remains.
-/

namespace QuantityCalculus.Composition

variable {F : Type} [Numeric F]

/-- How near to an integer, relative to its magnitude, a component counts as that integer. -/
def snapTolerance : F := Numeric.ofDecimal 1 (-9)

/-- The integer part of a component; one that is almost an integer is that integer. -/
def wholePart (x : F) : F :=
  let nearest := Numeric.round x
  if Numeric.abs (x - nearest) ≤ snapTolerance * Numeric.max (Numeric.abs x) 1 then nearest
  else if x < 0 then Numeric.ceil x
  else Numeric.floor x

/-- The components of a base value in units. -/
def decompose (dep : Option (Scalar F)) : List (UnitOfMeasure F) → F → Except ConversionError (List (Scalar F))
  | [], _ => .ok []
  | [last], remaining => (last.fromBase (.number remaining) dep).map ([·])
  | u :: us, remaining =>
    (u.fromBaseNumber remaining dep).bind fun value =>
      let whole := wholePart value
      (u.toBaseNumber whole dep).bind fun taken =>
        (decompose dep us (remaining - taken)).map (.number whole :: ·)

/-- A total with the base values of components in units. -/
def addComponents (dep : Option (Scalar F)) :
    F → List (UnitOfMeasure F × Scalar F) → Except ConversionError F
  | total, [] => .ok total
  | total, (u, x) :: rest =>
    ((u.toBase x dep).bind Scalar.expectNumber).bind fun base => addComponents dep (total + base) rest

/-- The base value of components in units. -/
def recompose (us : List (UnitOfMeasure F)) : Converter F := fun x dep =>
  x.expectTuple.bind fun components =>
    if components.length = us.length then (addComponents dep 0 (us.zip components)).map .number
    else .error (.wrongComponentCount us.length components.length)

/-- The conversion of components. -/
def hierarchyTransform (us : List (UnitOfMeasure F)) : Transform F :=
  ⟨recompose us, fun x dep => x.expectNumber.bind fun base => (decompose dep us base).map .tuple⟩

/-- All units are composable and of the dimension of the first one; the last may be written as text. -/
def checkHierarchy (c : Catalog F) (first : UnitOfMeasure F) : List (UnitOfMeasure F) → Except CompositionError Unit
  | [] => .ok ()
  | u :: us =>
    match if us.isEmpty ∧ u.datatype = .text then checkDimension c u else check c u with
    | .error e => .error e
    | .ok () =>
      if u.dimension = first.dimension then checkHierarchy c first us
      else .error (.dimensionsDiffer (nameOf c first) (nameOf c u))

/-- The unit with one component for each of several units of one dimension. -/
def hierarchical (c : Catalog F) : List (UnitOfMeasure F) → Except CompositionError (UnitOfMeasure F)
  | [] => .error .noOperands
  | first :: rest =>
    let us := first :: rest
    match checkHierarchy c first us with
    | .error e => .error e
    | .ok () =>
      .ok ⟨none, (us.mapM UnitOfMeasure.symbolText?).map .tuple,
        (us.mapM UnitOfMeasure.name).map (joinedName c.joiners.hierarchical), first.dimension, .tuple,
        .functions (hierarchyTransform us), none⟩

end QuantityCalculus.Composition
