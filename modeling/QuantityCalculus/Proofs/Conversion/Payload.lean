import QuantityCalculus.Algebra
import QuantityCalculus.Proofs.Evaluation.Outcome
import QuantityCalculus.Proofs.Measure.Dimension

/-!
# Payloads are converted through base values

A payload that is not taken apart has a value in the base unit of its dimension (`UnitOfMeasure.HasBase`). The conversion to another unit
carries that value to the other dimension (`Dimension.carry?`) and asks the other unit for the payload of it
(`Algebra.convertPayload_eq_ok_iff`): nothing else of the first unit matters. Carrying a base value twice is carrying it once
(`Dimension.carry?_carry?`), since the dimensions that a dimension converts to are itself and its inverse.
-/

namespace QuantityCalculus

variable {F : Type}

/-! ## Payloads as values -/

namespace Value

mutual

/-- What a conversion gives is what a conversion takes. -/
@[simp] theorem toScalar?_ofScalar (s : Scalar F) : (ofScalar s).toScalar? = some s := by
  cases s with
  | number x => rw [ofScalar, toScalar?]
  | text t => rw [ofScalar, toScalar?]
  | tuple components => rw [ofScalar, toScalar?, scalars?_ofScalars, Option.map_some]

/-- What conversions give is what conversions take. -/
theorem scalars?_ofScalars (ss : List (Scalar F)) : scalars? (ofScalars ss) = some ss := by
  cases ss with
  | nil => rw [ofScalars, scalars?]
  | cons s ss => rw [ofScalars, scalars?, toScalar?_ofScalar, scalars?_ofScalars, Option.bind_some, Option.map_some]

end

end Value

/-- A value that is not an array is the only element of itself. -/
theorem Algebra.mapElements_of_elems?_eq_none {g : Value F → Outcome (Value F)} {a : Value F} (h : a.elems? = none) :
    mapElements g a = g a := by
  cases a with
  | array elems => nomatch h
  | _ => simp [mapElements]

/-! ## Dimensions that convert -/

/-- Payloads convert between dimensions that are equal or complement each other. -/
def Dimension.ConvertsTo (d e : Dimension) : Prop := d = e ∨ d * e = 1

/-- The two tests of a conversion of payloads. -/
theorem Dimension.sameAs_or_complements_iff {d e : Dimension} : (d.sameAs e || d.complements e) = true ↔ d.ConvertsTo e := by
  rw [Bool.or_eq_true, sameAs_iff, complements_iff, ConvertsTo]

/-- What converts one way converts the other way. -/
theorem Dimension.ConvertsTo.symm {d e : Dimension} (h : d.ConvertsTo e) : e.ConvertsTo d := by
  rcases h with h | h
  · exact .inl h.symm
  · exact .inr (by rw [mul_comm, h])

variable [Numeric F]

/-- The reciprocal of a number. -/
def Scalar.reciprocal? : Scalar F → Option (Scalar F)
  | .number y => some (.number (1 / y))
  | _ => none

namespace Dimension

/-- A value in the base unit of one dimension as one in that of another: the same value or its reciprocal, if the dimensions convert. -/
def carry? (d e : Dimension) (s : Scalar F) : Option (Scalar F) :=
  if d = e then some s else if d * e = 1 then s.reciprocal? else none

variable {d e f : Dimension} {s s' : Scalar F}

/-- A value is carried between dimensions that convert only. -/
theorem convertsTo_of_carry? (h : d.carry? e s = some s') : d.ConvertsTo e := by
  unfold carry? at h
  split at h
  · exact .inl ‹_›
  split at h
  · exact .inr ‹_›
  · nomatch h

/-- Between dimensions that convert, the reciprocal is taken unless they are equal. -/
theorem carry?_of_convertsTo (h : d.ConvertsTo e) (s : Scalar F) :
    d.carry? e s = if !d.sameAs e then s.reciprocal? else some s := by
  unfold carry?
  by_cases hde : d = e
  · simp [hde, sameAs_iff.2 rfl]
  · have hsame : d.sameAs e = false := Bool.eq_false_iff.2 (mt sameAs_iff.1 hde)
    simp [hde, hsame, h.resolve_left hde]

/-- Carrying a value on to a third dimension is carrying it there at once. A number whose reciprocal was taken must be that of its
reciprocal. -/
theorem carry?_carry? (h : d.carry? e s = some s') (hreciprocal : d ≠ e → ∀ y : F, s = .number y → 1 / (1 / y) = y) :
    e.carry? f s' = d.carry? f s := by
  by_cases hde : d = e
  · subst hde
    rw [carry?, if_pos rfl] at h
    rw [Option.some.inj h]
  have hinverse : d * e = 1 := (convertsTo_of_carry? h).resolve_left hde
  have hcarry := h
  rw [carry?, if_neg hde, if_pos hinverse] at h
  by_cases hef : e = f
  · subst hef
    rw [carry?, if_pos rfl, hcarry]
  by_cases hback : e * f = 1
  · -- The third dimension is the first one, and the reciprocal is taken twice.
    have hdf : d = f := (eq_inv_of_mul_eq_one_left hinverse).trans (eq_inv_of_mul_eq_one_right hback).symm
    rw [carry?, if_neg hef, if_pos hback, carry?, if_pos hdf]
    cases s with
    | number y =>
      obtain rfl := Option.some.inj h
      rw [Scalar.reciprocal?, hreciprocal hde y rfl]
    | text t => nomatch h
    | tuple components => nomatch h
  · have hdf : d ≠ f := fun hdf => hback (by rw [← hdf, mul_comm, hinverse])
    have hnot : d * f ≠ 1 := fun hdf =>
      hef ((eq_inv_of_mul_eq_one_right hinverse).trans (eq_inv_of_mul_eq_one_right hdf).symm)
    rw [carry?, if_neg hef, if_neg hback, carry?, if_neg hdf, if_neg hnot]

end Dimension

/-! ## Base values -/

namespace UnitOfMeasure

/-- A payload that is not taken apart has a value in the base unit. In a unit without components an array is taken apart, since its
elements are payloads of their own. -/
def HasBase (u : UnitOfMeasure F) (dep : Option (Scalar F)) (p : Value F) (s : Scalar F) : Prop :=
  (u.datatype = .tuple ∨ p.elems? = none) ∧ ∃ x, p.toScalar? = some x ∧ u.toBase x dep = .ok s

end UnitOfMeasure

namespace Algebra

open Outcome

variable {c : Catalog F} {u v : UnitOfMeasure F} {sourceDep targetDep : Option (Scalar F)} {p p' : Value F}

/-- Payloads convert between dimensions that do. -/
theorem convertsTo_of_convertPayload_eq_ok (h : convertPayload c u sourceDep v targetDep p = .ok p') :
    u.dimension.ConvertsTo v.dimension := by
  unfold convertPayload at h
  dsimp only at h
  split at h
  · rename_i hsame
    exact .inl (Dimension.sameAs_iff.1 hsame)
  split at h
  · rename_i hcomplement
    exact .inr (Dimension.complements_iff.1 hcomplement)
  · nomatch h

/-- The reciprocal of a base value is taken if it is a number. -/
theorem expectNumber_map_reciprocal_eq_ok_iff {s s' : Scalar F} :
    (s.expectNumber.map fun y => Scalar.number (1 / y)) = .ok s' ↔ s.reciprocal? = some s' := by
  cases s <;> simp [Scalar.expectNumber, Scalar.reciprocal?, Except.map]

/-- A payload is converted through its base value, of which the reciprocal may be taken. -/
theorem convertScalar_eq_ok_iff {reciprocal : Bool} : convertScalar c reciprocal u sourceDep v targetDep p = .ok p' ↔
    ∃ x s s' t, p.toScalar? = some x ∧ u.toBase x sourceDep = .ok s ∧
      (if reciprocal then s.reciprocal? else some s) = some s' ∧ v.fromBase s' targetDep = .ok t ∧ p' = .ofScalar t := by
  cases hx : p.toScalar? with
  | none => simp [convertScalar, hx]
  | some x =>
    have hsteps : convertScalar c reciprocal u sourceDep v targetDep p = ofConversion (do
        let s ← u.toBase x sourceDep
        let s' ← (if reciprocal then s.expectNumber.map fun y => Scalar.number (1 / y) else .ok s)
        let t ← v.fromBase s' targetDep
        return .ofScalar t) := by
      unfold convertScalar
      cases reciprocal <;> rw [hx] <;> rfl
    have hreciprocal (s s' : Scalar F) :
        (if reciprocal then s.expectNumber.map fun y => Scalar.number (1 / y) else .ok s) = .ok s' ↔
          (if reciprocal then s.reciprocal? else some s) = some s' := by
      cases reciprocal
      · simp
      · simpa using expectNumber_map_reciprocal_eq_ok_iff
    simp only [hsteps, ofConversion_eq_ok_iff, bind_eq_ok_iff, pure_eq_ok_iff, hreciprocal, Option.some.injEq]
    constructor
    · rintro ⟨s, hs, s', hs', t, ht, rfl⟩
      exact ⟨x, s, s', t, rfl, hs, hs', ht, rfl⟩
    · rintro ⟨_, s, s', t, rfl, hs, hs', ht, rfl⟩
      exact ⟨s, hs, s', hs', t, ht, rfl⟩

/-- A payload that is not taken apart is converted at once, with the reciprocal unless the dimensions are equal. -/
theorem convertPayload_of_whole (hconverts : u.dimension.ConvertsTo v.dimension)
    (hwhole : u.datatype = .tuple ∨ p.elems? = none) : convertPayload c u sourceDep v targetDep p =
      convertScalar c (!u.dimension.sameAs v.dimension) u sourceDep v targetDep p := by
  have hwith (reciprocal : Bool) :
      (if u.datatype = .tuple then convertScalar c reciprocal u sourceDep v targetDep p
        else mapElements (convertScalar c reciprocal u sourceDep v targetDep) p) =
        convertScalar c reciprocal u sourceDep v targetDep p := by
    split
    · rfl
    · rename_i htuple
      exact mapElements_of_elems?_eq_none (hwhole.resolve_left htuple)
  unfold convertPayload
  dsimp only
  rw [hwith, hwith]
  cases hsame : u.dimension.sameAs v.dimension with
  | true => rfl
  | false =>
    have hconverts := Dimension.sameAs_or_complements_iff.2 hconverts
    rw [hsame, Bool.false_or] at hconverts
    rw [if_neg Bool.false_ne_true, if_pos hconverts]
    rfl

/-- A payload with a base value is converted to the payload of that value in the target. -/
theorem convertPayload_eq_ok_iff {s : Scalar F} (h : u.HasBase sourceDep p s) :
    convertPayload c u sourceDep v targetDep p = .ok p' ↔
      ∃ s' t, u.dimension.carry? v.dimension s = some s' ∧ v.fromBase s' targetDep = .ok t ∧ p' = .ofScalar t := by
  obtain ⟨hwhole, x, hx, hs⟩ := h
  constructor
  · intro h
    have hconverts := convertsTo_of_convertPayload_eq_ok h
    rw [convertPayload_of_whole hconverts hwhole, convertScalar_eq_ok_iff] at h
    obtain ⟨x', s₁, s', t, hx', hs₁, hs', ht, rfl⟩ := h
    obtain rfl := Option.some.inj (hx.symm.trans hx')
    obtain rfl := Except.ok.inj (hs.symm.trans hs₁)
    exact ⟨s', t, (Dimension.carry?_of_convertsTo hconverts s).trans hs', ht, rfl⟩
  · rintro ⟨s', t, hs', ht, rfl⟩
    have hconverts := Dimension.convertsTo_of_carry? hs'
    rw [convertPayload_of_whole hconverts hwhole, convertScalar_eq_ok_iff]
    exact ⟨x, s, s', t, hx, hs, (Dimension.carry?_of_convertsTo hconverts s).symm.trans hs', ht, rfl⟩

/-- A payload that is converted and not taken apart has a base value. -/
theorem exists_hasBase (hwhole : u.datatype = .tuple ∨ p.elems? = none)
    (h : convertPayload c u sourceDep v targetDep p = .ok p') : ∃ s, u.HasBase sourceDep p s := by
  rw [convertPayload_of_whole (convertsTo_of_convertPayload_eq_ok h) hwhole, convertScalar_eq_ok_iff] at h
  obtain ⟨x, s, s', t, hx, hs, -⟩ := h
  exact ⟨s, hwhole, x, hx, hs⟩

end Algebra

end QuantityCalculus
