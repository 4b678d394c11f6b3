import QuantityCalculus.Proofs.Conversion.Payload

/-!
# Conversions that succeed

What a conversion of a quantity or of a unit does when it succeeds, step by step: the binding of the target is taken apart
(`Algebra.convert_eq_ok_iff`), the independent variables of both units are brought to their base units, and the payload is
converted (`Algebra.convertQuantity_eq_ok_iff`, `Algebra.conversionFunction_eq_ok_iff`).
-/

namespace QuantityCalculus

/-- Multiples of a reference of the same dimension, which is the independent variable. -/
def UnitOfMeasure.relative {F : Type} [Numeric F] (d : Dimension) : UnitOfMeasure F :=
  let scale (f : F → F → F) : Converter F := fun x dep =>
    match dep with
    | none => .error .missingIndependentVariable
    | some reference => x.expectNumber.bind fun x => reference.expectNumber.map fun r => .number (f x r)
  ((UnitOfMeasure.base d).withConversion (.functions ⟨scale (· * ·), scale (· / ·)⟩)).withDependent ⟨d, .plain "reference"⟩

namespace Algebra

open Outcome

variable {F : Type} [Numeric F] {c : Catalog F} {u v : UnitOfMeasure F} {binding : Option (Binding F (Value F))}

/-- A conversion takes the binding of its target apart, and then converts. -/
theorem convert_eq_ok_iff {a z : Value F} {b : Option (Value F)} :
    convert c a v b = .ok z ↔ ∃ binding, b.mapM (bindingOf c) = .ok binding ∧ convertBound c v binding a = .ok z := by
  simp only [convert, bind_eq_ok_iff]

/-- The side of a conversion on which a unit stands only matters for its error. -/
theorem bindingBase_eq_ok_iff (side side' : Side) {dep : Option (Scalar F)} :
    bindingBase c side u binding = .ok dep ↔ bindingBase c side' u binding = .ok dep := by
  unfold bindingBase
  split
  · cases binding with
    | none => exact ⟨nofun, nofun⟩
    | some b => exact Iff.rfl
  · exact Iff.rfl

/-- A unit that is not dependent needs no independent variable. -/
theorem bindingBase_of_isDependent_eq_false (h : u.isDependent = false) (side : Side) :
    bindingBase c side u binding = .ok none := by
  simp [bindingBase, h]

/-- A quantity is converted with the values of the independent variables of both units, and carries that of the target afterwards. -/
theorem convertQuantity_eq_ok_iff {q : Quantity F (Value F)} {z : Value F} :
    convertQuantity c v binding q = .ok z ↔ ∃ sourceDep targetDep payload,
      bindingBase c .source q.unit q.binding = .ok sourceDep ∧ bindingBase c .target v binding = .ok targetDep ∧
      convertPayload c q.unit sourceDep v targetDep q.payload = .ok payload ∧ z = .quantity ⟨payload, v, binding⟩ := by
  simp only [convertQuantity, bind_eq_ok_iff, pure_eq_ok_iff]
  constructor
  · rintro ⟨sourceDep, hsource, targetDep, htarget, payload, hpayload, rfl⟩
    exact ⟨sourceDep, targetDep, payload, hsource, htarget, hpayload, rfl⟩
  · rintro ⟨sourceDep, targetDep, payload, hsource, htarget, hpayload, rfl⟩
    exact ⟨sourceDep, hsource, targetDep, htarget, payload, hpayload, rfl⟩

/-- A quantity is converted to a quantity in the target unit. -/
theorem convert_quantity_eq_ok_iff {q : Quantity F (Value F)} {z : Value F} {b : Option (Value F)} :
    convert c (.quantity q) v b = .ok z ↔ ∃ binding sourceDep targetDep payload,
      b.mapM (bindingOf c) = .ok binding ∧ bindingBase c .source q.unit q.binding = .ok sourceDep ∧
      bindingBase c .target v binding = .ok targetDep ∧
      convertPayload c q.unit sourceDep v targetDep q.payload = .ok payload ∧ z = .quantity ⟨payload, v, binding⟩ := by
  simp only [convert_eq_ok_iff, convertBound, convertQuantity_eq_ok_iff]
  constructor
  · rintro ⟨binding, hbinding, sourceDep, targetDep, payload, h⟩
    exact ⟨binding, sourceDep, targetDep, payload, hbinding, h⟩
  · rintro ⟨binding, sourceDep, targetDep, payload, hbinding, h⟩
    exact ⟨binding, hbinding, sourceDep, targetDep, payload, h⟩

/-- The function that converts from a unit that is not dependent exists if the dimensions convert and the independent variable of the
target has a value, which the function keeps. -/
theorem conversionFunction_eq_ok_iff (hu : u.isDependent = false) {f : FunctionValue F} :
    conversionFunction c u v binding = .ok f ↔ u.dimension.ConvertsTo v.dimension ∧
      ∃ targetDep, bindingBase c .target v binding = .ok targetDep ∧
        f = .conversion (u.displayName c.language ++ " to " ++ v.displayName c.language) u v targetDep := by
  unfold conversionFunction
  rw [if_neg (by simp [hu])]
  by_cases hconverts : u.dimension.ConvertsTo v.dimension
  · rw [if_pos (Dimension.sameAs_or_complements_iff.2 hconverts), map_eq_ok_iff]
    simp only [hconverts, true_and, eq_comm]
  · rw [if_neg (mt Dimension.sameAs_or_complements_iff.1 hconverts)]
    exact ⟨nofun, fun h => absurd h.1 hconverts⟩

end Algebra

end QuantityCalculus
