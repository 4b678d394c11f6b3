import QuantityCalculus.Catalog.Standard
import QuantityCalculus.Proofs.Measure.Composition

/-!
# Prefixed units

A unit with a prefix is the unit scaled by the power of the prefix (`Composition.withPrefix_isMultipleOf`), however the unit converts.
A unit with a scale gets another scale, and any other unit gets functions around its own conversion, which may be affine or depend on
an independent variable. In exact arithmetic nothing tells the two apart.
-/

namespace QuantityCalculus

open ExactNumeric

/-- The unit is another one scaled by a factor. Numbers are multiplied by the factor before the conversion to the base unit and divided
by it after the conversion back, and a conversion fails as that of the other unit does. -/
structure UnitOfMeasure.IsMultipleOf {F : Type} [Numeric F] (w u : UnitOfMeasure F) (factor : F) : Prop where
  toBase : ∀ (x : F) (dep : Option (Scalar F)), w.toBase (.number x) dep = u.toBase (.number (x * factor)) dep
  fromBase : ∀ (y : F) (dep : Option (Scalar F)),
    (∃ z, u.fromBase (.number y) dep = .ok (.number z) ∧ w.fromBase (.number y) dep = .ok (.number (z / factor))) ∨
      ∃ e, u.fromBase (.number y) dep = .error e ∧ w.fromBase (.number y) dep = .error e
  dimension : w.dimension = u.dimension
  datatype : w.datatype = u.datatype

/-- Only functions convert a number in the base unit to something else than a number. -/
theorem UnitOfMeasure.kind_of_fromBase {F : Type} [Numeric F] {u : UnitOfMeasure F} (hu : ∀ t, u.conversion ≠ .functions t) {y : F}
    {dep : Option (Scalar F)} {z : Scalar F} (h : u.fromBase (.number y) dep = .ok z) : z.kind = .number := by
  unfold fromBase at h
  cases hconversion : u.conversion with
  | identity =>
    rw [hconversion] at h
    obtain rfl := Except.ok.inj h
    rfl
  | ratio r =>
    rw [hconversion] at h
    obtain rfl := Except.ok.inj h
    rfl
  | instructions i =>
    rw [hconversion] at h
    dsimp only at h
    cases hsteps : i.steps (F := F) with
    | error e =>
      rw [hsteps] at h
      nomatch h
    | ok steps =>
      rw [hsteps] at h
      obtain rfl := Except.ok.inj h
      rfl
  | functions t => exact absurd hconversion (hu t)

/-- A payload of the kind of numbers is a number. -/
theorem Scalar.exists_eq_number {F : Type} {x : Scalar F} (h : x.kind = .number) : ∃ y, x = .number y := by
  cases x with
  | number y => exact ⟨y, rfl⟩
  | text s => nomatch h
  | tuple components => nomatch h

namespace Composition

variable {F : Type}

section

variable [Numeric F] {c : Catalog F} {u w : UnitOfMeasure F} {base : ℕ} {exponent : ℤ}

/-- A unit with a scale gets a prefix only if it composes. -/
theorem check_of_withPrefix {r : Ratio F} (hratio : u.ratio? = some r) (h : withPrefix c u base exponent = .ok w) :
    check c u = .ok () := by
  unfold withPrefix at h
  rw [hratio] at h
  split at h
  · nomatch h
  · cases hcheck : check c u with
    | error e =>
      rw [hcheck] at h
      nomatch h
    | ok _ => rfl

/-- A unit without a scale gets functions around its conversion. -/
theorem conversion_of_withPrefix (hratio : u.ratio? = none) (h : withPrefix c u base exponent = .ok w) :
    w.conversion = .functions (scaledTransform u (Numeric.powInt (Numeric.ofNat base) exponent)) ∧ w.dimension = u.dimension ∧
      w.datatype = u.datatype := by
  unfold withPrefix at h
  rw [hratio] at h
  split at h
  · nomatch h
  · dsimp only at h
    split at h
    · nomatch h
    · obtain rfl := Except.ok.inj h
      exact ⟨rfl, rfl, rfl⟩

/-- Functions around a conversion scale the unit, if it converts numbers to numbers. -/
theorem isMultipleOf_of_functions {factor : F} (hconversion : w.conversion = .functions (scaledTransform u factor))
    (hdimension : w.dimension = u.dimension) (hdatatype : w.datatype = u.datatype)
    (hnumbers : ∀ y dep z, u.fromBase (.number y) dep = .ok z → z.kind = .number) : w.IsMultipleOf u factor where
  toBase x dep := by
    unfold UnitOfMeasure.toBase
    rw [hconversion]
    rfl
  fromBase y dep := by
    have hw : w.fromBase (.number y) dep =
        (u.fromBase (.number y) dep).bind fun z => z.expectNumber.map fun z => .number (z / factor) := by
      unfold UnitOfMeasure.fromBase
      rw [hconversion]
      rfl
    rw [hw]
    cases hu : u.fromBase (.number y) dep with
    | error e => exact .inr ⟨e, rfl, rfl⟩
    | ok z =>
      obtain ⟨z, rfl⟩ := Scalar.exists_eq_number (hnumbers y dep z hu)
      exact .inl ⟨z, rfl, rfl⟩
  dimension := hdimension
  datatype := hdatatype

end

variable [ExactNumeric F] {c : Catalog F} {u w : UnitOfMeasure F} {base : ℕ} {exponent : ℤ}

/-- A scaled unit is another one scaled by what its scale is a multiple of. -/
theorem isMultipleOf_of_scale {factor : F} (hu : u.IsScaled c) (hw : w.IsScaled c) (hfactor : toRat factor ≠ 0)
    (hscale : w.scale = u.scale * toRat factor) (hdimension : w.dimension = u.dimension) : w.IsMultipleOf u factor := by
  obtain ⟨r, hur, hr⟩ := hu.ratio
  obtain ⟨s, hws, hs⟩ := hw.ratio
  rw [scale_eq_amount hur, scale_eq_amount hws] at hscale
  refine ⟨fun x dep => ?_, fun y dep => ?_, hdimension, ?_⟩
  · obtain ⟨y, hy, hyx⟩ := UnitOfMeasure.exists_toBase_number hur hr (x * factor) dep
    obtain ⟨z, hz, hzx⟩ := UnitOfMeasure.exists_toBase_number hws hs x dep
    have hyz : z = y := toRat_injective <| by
      rw [hyx, hzx, hscale, toRat_mul, mul_assoc, mul_comm r.amount]
    rw [hy, hz, hyz]
  · obtain ⟨z, hz, hzy⟩ := UnitOfMeasure.exists_fromBase_number hur hr y dep
    obtain ⟨z', hz', hzy'⟩ := UnitOfMeasure.exists_fromBase_number hws hs y dep
    have hzz : z' = z / factor := toRat_injective <| by
      rw [hzy', toRat_div _ _ hfactor, hzy, hscale, div_div]
    exact .inl ⟨z, hz, hzz ▸ hz'⟩
  · rw [(check_eq_ok_iff.1 hu.check).1, (check_eq_ok_iff.1 hw.check).1]

/-- The power of a base is that of the rational. -/
theorem powInt_eq_ofRat (hbase : 0 < base) (exponent : ℤ) :
    Numeric.powInt (Numeric.ofNat base : F) exponent = ofRat ((base : ℚ) ^ exponent) := by
  have hne : (base : ℚ) ≠ 0 := by exact_mod_cast hbase.ne'
  apply toRat_injective
  rw [toRat_ofRat, toRat_powInt _ fun _ => by rwa [toRat_ofNat], toRat_ofNat]

end Composition

end QuantityCalculus
