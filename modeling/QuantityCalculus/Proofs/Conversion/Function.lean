import QuantityCalculus.Builtin.Calls
import QuantityCalculus.Proofs.Conversion.Quantity
import QuantityCalculus.Proofs.Numeric.Exact

/-!
# Conversion functions

Converting a unit gives the function that converts payloads in it. Calling that function agrees with converting quantities, and so does
calling its inverse (`Algebra.conversion_function_converts_quantities`): what the function keeps of the target when it is made is
what a quantity in the target carries along.
-/

namespace QuantityCalculus

open Outcome

variable {F : Type} [Numeric F] {c : Catalog F} {u v : UnitOfMeasure F}

namespace FunctionValue

/-- The inverse of a conversion function converts its argument to the source. -/
theorem exists_invert_conversion (name : String) (targetDep : Option (Scalar F)) :
    ∃ g, (conversion name u v targetDep).invert = .ok g ∧
      ∀ p, g.call c [p] = Algebra.convertPayload c v targetDep u none p :=
  ⟨_, rfl, fun _ => rfl⟩

end FunctionValue

namespace Algebra

/-- Converting a unit that is not dependent gives a function, which keeps the value of the independent variable of the target. -/
theorem convert_unit_eq_ok_iff (hu : u.isDependent = false) {b : Option (Value F)} {f : FunctionValue F} :
    convert c (.unit u) v b = .ok (.function f) ↔ ∃ binding targetDep,
      b.mapM (bindingOf c) = .ok binding ∧ u.dimension.ConvertsTo v.dimension ∧
      bindingBase c .target v binding = .ok targetDep ∧
      f = .conversion (u.displayName c.language ++ " to " ++ v.displayName c.language) u v targetDep := by
  simp only [convert_eq_ok_iff, convertBound, map_eq_ok_iff, conversionFunction_eq_ok_iff hu, Value.function.injEq]
  constructor
  · rintro ⟨binding, hbinding, f, ⟨hconverts, targetDep, htarget, rfl⟩, rfl⟩
    exact ⟨binding, targetDep, hbinding, hconverts, htarget, rfl⟩
  · rintro ⟨binding, targetDep, hbinding, hconverts, htarget, rfl⟩
    exact ⟨binding, hbinding, _, ⟨hconverts, targetDep, htarget, rfl⟩, rfl⟩

/-- What a function converts a payload to, the conversion of the quantity has as its payload. -/
theorem call_conversion_iff (hu : u.isDependent = false) (b : Option (Value F)) (p p' : Value F) :
    (∃ f, convert c (.unit u) v b = .ok (.function f) ∧ f.call c [p] = .ok p') ↔
      ∃ q, convert c (p.inUnit u) v b = .ok (.quantity q) ∧ q.payload = p' := by
  simp only [convert_unit_eq_ok_iff hu, Value.inUnit, convert_quantity_eq_ok_iff,
    bindingBase_of_isDependent_eq_false hu, Value.quantity.injEq]
  constructor
  · rintro ⟨f, ⟨binding, targetDep, hbinding, -, htarget, rfl⟩, hcall⟩
    exact ⟨_, ⟨binding, none, targetDep, p', hbinding, rfl, htarget, hcall, rfl⟩, rfl⟩
  · rintro ⟨q, ⟨binding, sourceDep, targetDep, payload, hbinding, hsource, htarget, hpayload, rfl⟩, rfl⟩
    obtain rfl := Except.ok.inj hsource
    have hconverts := convertsTo_of_convertPayload_eq_ok hpayload
    exact ⟨_, ⟨binding, targetDep, hbinding, hconverts, htarget, rfl⟩, hpayload⟩

/-- What the inverse of a function converts a payload to, the conversion of the quantity back has as its payload. The quantity carries the
binding that the function was made with. -/
theorem call_invert_conversion_iff (hu : u.isDependent = false) (b : Option (Value F)) (p p' : Value F) :
    (∃ f g, convert c (.unit u) v b = .ok (.function f) ∧ f.invert = .ok g ∧ g.call c [p] = .ok p') ↔
      ∃ binding q, b.mapM (bindingOf c) = .ok binding ∧ convert c (.quantity ⟨p, v, binding⟩) u none = .ok (.quantity q) ∧
        q.payload = p' := by
  simp only [convert_unit_eq_ok_iff hu, convert_quantity_eq_ok_iff, bindingBase_of_isDependent_eq_false hu,
    Value.quantity.injEq]
  constructor
  · rintro ⟨f, g, ⟨binding, targetDep, hbinding, -, htarget, rfl⟩, hinvert, hcall⟩
    obtain ⟨g', hg', hcalls⟩ := FunctionValue.exists_invert_conversion (c := c) (u := u) (v := v) _ targetDep
    obtain rfl := Except.ok.inj (hg'.symm.trans hinvert)
    rw [hcalls] at hcall
    have hsource := (bindingBase_eq_ok_iff .target .source).1 htarget
    exact ⟨binding, _, hbinding, ⟨none, targetDep, none, p', rfl, hsource, rfl, hcall, rfl⟩, rfl⟩
  · rintro ⟨binding, q, hbinding, ⟨binding', sourceDep, targetDep, payload, hbinding', hsource, htarget, hpayload, rfl⟩, rfl⟩
    obtain rfl := Except.ok.inj htarget
    obtain ⟨g, hinvert, hcalls⟩ := FunctionValue.exists_invert_conversion (c := c) (u := u) (v := v)
      (u.displayName c.language ++ " to " ++ v.displayName c.language) sourceDep
    have hconverts := (convertsTo_of_convertPayload_eq_ok hpayload).symm
    have htarget := (bindingBase_eq_ok_iff .source .target).1 hsource
    exact ⟨_, g, ⟨binding, sourceDep, hbinding, hconverts, htarget, rfl⟩, hinvert, (hcalls p).trans hpayload⟩

/-- Converting through a function agrees with converting a quantity. From a unit that is not dependent, the function that converts to a
target gives what the conversion of the quantity gives, and its inverse gives what the conversion back does, of a quantity that
carries the binding of the target. -/
theorem conversion_function_converts_quantities (c : Catalog F) (u v : UnitOfMeasure F) (hu : u.isDependent = false)
    (b : Option (Value F)) (p p' : Value F) :
    ((∃ f, convert c (.unit u) v b = .ok (.function f) ∧ f.call c [p] = .ok p') ↔
      ∃ q, convert c (p.inUnit u) v b = .ok (.quantity q) ∧ q.payload = p') ∧
    ((∃ f g, convert c (.unit u) v b = .ok (.function f) ∧ f.invert = .ok g ∧ g.call c [p] = .ok p') ↔
      ∃ binding q, b.mapM (bindingOf c) = .ok binding ∧ convert c (.quantity ⟨p, v, binding⟩) u none = .ok (.quantity q) ∧
        q.payload = p') :=
  ⟨call_conversion_iff hu b p p', call_invert_conversion_iff hu b p p'⟩

/-- Twenty in the base unit of length are five times four, whether a function converts them or they are converted as a quantity, and
back. -/
theorem conversion_function_to_multiples_of_four :
    let length : UnitOfMeasure ℚ := .base (.single "length")
    let multiples : UnitOfMeasure ℚ := .relative (.single "length")
    length.isDependent = false ∧
    (∃ q, convert .empty ((Value.number 20).inUnit length) multiples (some (.number 4)) = .ok (.quantity q) ∧
      q.payload = .number 5) ∧
    ∃ binding q, (some (.number 4)).mapM (bindingOf .empty) = .ok binding ∧
      convert .empty (.quantity ⟨.number 5, multiples, binding⟩) length none = .ok (.quantity q) ∧ q.payload = .number 20 := by
  intro length multiples
  have hlength : length.isDependent = false := rfl
  have hthere : multiples.fromBase (.number 20) (some (.number 4)) = .ok (.number 5) := by
    have hquotient : (20 / 4 : ℚ) = 5 := by norm_num
    rw [← hquotient]
    rfl
  have hback : multiples.toBase (.number 5) (some (.number 4)) = .ok (.number 20) := by
    have hproduct : (5 * 4 : ℚ) = 20 := by norm_num
    rw [← hproduct]
    rfl
  have hfunction : convert .empty (.unit length) multiples (some (.number 4)) =
      .ok (.function (.conversion _ length multiples (some (.number 4)))) :=
    (convert_unit_eq_ok_iff hlength).2 ⟨some ⟨.number 4, none⟩, some (.number 4), rfl, .inl rfl, rfl, rfl⟩
  have hcarry : Dimension.carry? (.single "length") (.single "length") (.number (20 : ℚ)) = some (.number 20) := if_pos rfl
  have hquantity := conversion_function_converts_quantities .empty length multiples hlength (some (.number 4))
  refine ⟨hlength, (hquantity (.number 20) (.number 5)).1.1 ⟨_, hfunction, ?_⟩,
    (hquantity (.number 5) (.number 20)).2.1 ⟨_, _, hfunction, rfl, ?_⟩⟩
  · exact (convertPayload_eq_ok_iff ⟨.inr rfl, .number 20, rfl, rfl⟩).2 ⟨.number 20, .number 5, hcarry, hthere, rfl⟩
  · exact (convertPayload_eq_ok_iff ⟨.inr rfl, .number 5, rfl, hback⟩).2 ⟨.number 20, .number 20, hcarry, rfl, rfl⟩

end Algebra

end QuantityCalculus
