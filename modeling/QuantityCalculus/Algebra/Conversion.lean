import QuantityCalculus.Algebra.Elementwise
import QuantityCalculus.Composition

/-!
# Converting quantities

A payload is converted through the base unit. Units of equal dimension convert directly, and units whose dimensions complement each
other, such as frequency and period, by the reciprocal. A dependent unit needs the value of its independent variable, which a
quantity carries and which is named for a target. Converting a unit instead of a quantity makes a function.
-/

namespace QuantityCalculus.Algebra

variable {F : Type} [Numeric F] (c : Catalog F)

/-- The error for units of different dimensions. -/
def dimensionMismatch (u v : UnitOfMeasure F) : EvaluationError :=
  .dimensionMismatch (Value.text c.language (.unit u)) (Value.text c.language (.unit v))

/-- The value of the independent variable of a dependent unit in its base unit; other units need none. -/
def bindingBase (side : Side) (u : UnitOfMeasure F) (binding : Option (Binding F (Value F))) :
    Outcome (Option (Scalar F)) :=
  if u.isDependent then
    match binding with
    | none => .error (.missingIndependentVariable side (u.displayName c.language))
    | some b =>
      match b.value.toScalar? with
      | none => .error (unaryTypeMismatch c BinaryOp.at.symbol b.value)
      | some x =>
        match b.unit with
        | none => .ok (some x)
        | some v => (Outcome.ofConversion (v.toBase x none)).map some
  else .ok none

/-- The number that a quantity is in the base unit of its dimension. The error for a payload that does not convert names `blamed`. -/
def baseValue (side : Side) (name : String) (blamed : Value F) (q : Quantity F (Value F)) : Outcome F := do
  let dep ← bindingBase c side q.unit q.binding
  match q.payload.toScalar? with
  | none => .error (unaryTypeMismatch c name blamed)
  | some x => .ofConversion ((q.unit.toBase x dep).bind Scalar.expectNumber)

/-- A number as it is, and a quantity by its base value. -/
def real (name : String) : Value F → Outcome F
  | .number x => .ok x
  | .quantity q => baseValue c .source name (.quantity q) q
  | a => .error (unaryTypeMismatch c name a)

/-- A payload that is not taken apart, from one unit to another. -/
def convertScalar (reciprocal : Bool) (source : UnitOfMeasure F) (sourceDep : Option (Scalar F))
    (target : UnitOfMeasure F) (targetDep : Option (Scalar F)) (payload : Value F) : Outcome (Value F) :=
  match payload.toScalar? with
  | none => .error (unaryTypeMismatch c BinaryOp.convert.symbol payload)
  | some x => .ofConversion do
    let base ← source.toBase x sourceDep
    let base ← if reciprocal then base.expectNumber.map fun y => .number (1 / y) else .ok base
    return .ofScalar (← target.fromBase base targetDep)

/-- A payload from one unit to another. Only a unit with components takes an array as a whole; in others, its elements are payloads
of their own. -/
def convertPayload (source : UnitOfMeasure F) (sourceDep : Option (Scalar F)) (target : UnitOfMeasure F)
    (targetDep : Option (Scalar F)) (payload : Value F) : Outcome (Value F) :=
  let convertWith (reciprocal : Bool) : Outcome (Value F) :=
    let f := convertScalar c reciprocal source sourceDep target targetDep
    if source.datatype = .tuple then f payload else mapElements f payload
  if source.dimension.sameAs target.dimension then convertWith false
  else if source.dimension.complements target.dimension then convertWith true
  else .error (dimensionMismatch c source target)

/-- The payload of the second of two composable quantities of one dimension, in the unit of the first one. -/
def align (p q : Quantity F (Value F)) : Outcome (Value F) := do
  .ofComposition (Composition.check c p.unit)
  .ofComposition (Composition.check c q.unit)
  if p.unit.dimension.sameAs q.unit.dimension then convertPayload c q.unit none p.unit none q.payload
  else .error (dimensionMismatch c p.unit q.unit)

/-- The function that converts payloads from one unit to another. -/
def conversionFunction (source target : UnitOfMeasure F) (binding : Option (Binding F (Value F))) :
    Outcome (FunctionValue F) :=
  if source.isDependent then .error (.missingIndependentVariable .source (source.displayName c.language))
  else if source.dimension.sameAs target.dimension || source.dimension.complements target.dimension then
    (bindingBase c .target target binding).map
      (.conversion (source.displayName c.language ++ " to " ++ target.displayName c.language) source target ·)
  else .error (dimensionMismatch c source target)

/-- What a value gives as the value of an independent variable: a number, or a quantity. -/
def bindingOf : Value F → Outcome (Binding F (Value F))
  | .quantity q => .ok ⟨q.payload, some q.unit⟩
  | .number x => .ok ⟨.number x, none⟩
  | b => .error (unaryTypeMismatch c BinaryOp.at.symbol b)

/-- A quantity in another unit, of which the independent variable may be bound. -/
def convertQuantity (target : UnitOfMeasure F) (binding : Option (Binding F (Value F))) (q : Quantity F (Value F)) :
    Outcome (Value F) := do
  let sourceDep ← bindingBase c .source q.unit q.binding
  let targetDep ← bindingBase c .target target binding
  let payload ← convertPayload c q.unit sourceDep target targetDep q.payload
  return .quantity ⟨payload, target, binding⟩

mutual

/-- A value in a unit, of which the independent variable may be bound. Numbers are of dimension one. -/
def convertBound (target : UnitOfMeasure F) (binding : Option (Binding F (Value F))) : Value F → Outcome (Value F)
  | .unit u => (conversionFunction c u target binding).map .function
  | .quantity q => convertQuantity c target binding q
  | .array elems =>
    if elems.any Value.isQuantity then (convertEach target binding elems).map .array
    else convertQuantity c target binding ⟨.array elems, .base .one, none⟩
  | .number x => convertQuantity c target binding ⟨.number x, .base .one, none⟩
  | a => .error (typeMismatch c BinaryOp.convert.symbol a (.unit target))

/-- Several values in a unit. -/
def convertEach (target : UnitOfMeasure F) (binding : Option (Binding F (Value F))) :
    List (Value F) → Outcome (List (Value F))
  | [] => .ok []
  | x :: xs => do
    let y ← convertBound target binding x
    let ys ← convertEach target binding xs
    return y :: ys

end

/-- A value in a unit, given the value of the independent variable of the unit. -/
def convert (a : Value F) (target : UnitOfMeasure F) (binding : Option (Value F)) : Outcome (Value F) := do
  convertBound c target (← binding.mapM (bindingOf c)) a

/-- A quantity in a dependent unit with the value of its independent variable. -/
def bind (a b : Value F) : Outcome (Value F) :=
  match a with
  | .quantity q => do
    if q.unit.isDependent then
      let binding ← bindingOf c b
      match q.unit.dependent, binding.unit with
      | some independent, some v =>
        if independent.dimension.sameAs v.dimension then return .quantity { q with binding := some binding }
        else
          .error (.dimensionMismatch ("independent variable of \x60" ++ q.unit.displayName c.language ++ "\x60")
            (Value.text c.language (.unit v)))
      | _, _ => return .quantity { q with binding := some binding }
    else .error (typeMismatch c BinaryOp.at.symbol a b)
  | _ => .error (typeMismatch c BinaryOp.at.symbol a b)

end QuantityCalculus.Algebra
