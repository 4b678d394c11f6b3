import QuantityCalculus.Composition.Fraction
import QuantityCalculus.Composition.Hierarchy
import QuantityCalculus.Numeric.Binary64
import QuantityCalculus.Proofs.Composition.Prefix
import QuantityCalculus.Proofs.Evaluation.Outcome

/-!
# Prefixes of units without numbers

A prefix divides numbers, so what a prefixed unit makes of a payload in the base unit is a number or an error
(`Composition.kind_fromBase_withPrefix`). A unit without a scale gets a prefix whatever it writes. Units written as fractions and
units with several components write no numbers, and therefore nothing converts to them once they have a prefix
(`Composition.withPrefix_converts_iff_number`).
-/

namespace QuantityCalculus

open Outcome

section Payloads

variable {F : Type}

/-- What is expected to be a number and is none is reported with its kind. -/
theorem Scalar.expectNumber_of_kind {x : Scalar F} (h : x.kind ≠ .number) :
    x.expectNumber = .error (.wrongPayload .number x.kind) := by
  cases x with
  | number x => exact absurd rfl h
  | text s => rfl
  | tuple components => rfl

/-- Where a payload is expected to be a number and is used, it is one. -/
theorem Scalar.expectNumber_eq_ok_iff {x : Scalar F} {y : F} : x.expectNumber = .ok y ↔ x = .number y := by
  cases x <;> simp [expectNumber]

variable [Numeric F] {u : UnitOfMeasure F}

/-- A unit with functions converts by them. -/
theorem UnitOfMeasure.fromBase_of_functions {t : Transform F} (h : u.conversion = .functions t) : u.fromBase = t.fromBase := by
  funext y dep
  unfold fromBase
  rw [h]

/-- A unit with a scale makes a number of a number, and nothing of anything else unless it is the base unit. -/
theorem UnitOfMeasure.expectNumber_fromBase {r : Ratio F} (h : u.ratio? = some r) (y : Scalar F) (dep : Option (Scalar F)) :
    ((u.fromBase y dep).bind Scalar.expectNumber).map (fun _ => ScalarKind.number) = y.expectNumber.map fun _ => .number := by
  unfold ratio? at h
  unfold fromBase
  cases hconversion : u.conversion with
  | identity => rfl
  | ratio r => cases y <;> rfl
  | instructions i =>
    rw [hconversion] at h
    dsimp only at h ⊢
    cases hsteps : i.steps (F := F) with
    | error e =>
      rw [hsteps] at h
      nomatch h
    | ok steps => cases y <;> rfl
  | functions t =>
    rw [hconversion] at h
    nomatch h

/-- Whatever converts to the unit becomes something else than a number. -/
def UnitOfMeasure.WritesNoNumber (u : UnitOfMeasure F) : Prop :=
  ∀ (y : Scalar F) (dep : Option (Scalar F)) (x : Scalar F), u.fromBase y dep = .ok x → x.kind ≠ .number

end Payloads

namespace Composition

variable {F : Type} [Numeric F] {c : Catalog F} {u v w : UnitOfMeasure F} {us : List (UnitOfMeasure F)} {base : ℕ} {exponent : ℤ}

/-! ## Conversion of a prefixed unit -/

/-- A unit with a scale gets another scale with its prefix. -/
theorem exists_ratio_of_withPrefix {r : Ratio F} (hratio : u.ratio? = some r) (h : withPrefix c u base exponent = .ok w) :
    ∃ s, w.conversion = .ratio s := by
  have hcheck := check_of_withPrefix hratio h
  unfold withPrefix at h
  rw [hratio, hcheck] at h
  split at h
  · nomatch h
  · obtain rfl := Except.ok.inj h
    exact ⟨_, rfl⟩

/-- A prefixed unit makes a number of what the unit makes a number of. It fails as the unit does, and on everything else that the
unit writes. -/
theorem kind_fromBase_withPrefix (h : withPrefix c u base exponent = .ok w) (y : Scalar F) (dep : Option (Scalar F)) :
    (w.fromBase y dep).map Scalar.kind = ((u.fromBase y dep).bind Scalar.expectNumber).map fun _ => .number := by
  cases hratio : u.ratio? with
  | none =>
    rw [UnitOfMeasure.fromBase_of_functions (conversion_of_withPrefix hratio h).1]
    dsimp only [scaledTransform]
    cases u.fromBase y dep with
    | error e => rfl
    | ok x => cases x <;> rfl
  | some r =>
    obtain ⟨s, hs⟩ := exists_ratio_of_withPrefix hratio h
    rw [UnitOfMeasure.expectNumber_fromBase hratio]
    unfold UnitOfMeasure.fromBase
    rw [hs]
    cases y <;> rfl

/-- A prefixed unit reports the kind of what the unit writes, unless that is a number. -/
theorem fromBase_withPrefix_of_kind (h : withPrefix c u base exponent = .ok w) {x y : Scalar F} {dep : Option (Scalar F)}
    (hx : u.fromBase y dep = .ok x) (hkind : x.kind ≠ .number) : w.fromBase y dep = .error (.wrongPayload .number x.kind) := by
  have hw := kind_fromBase_withPrefix h y dep
  rw [hx, Except.bind, Scalar.expectNumber_of_kind hkind] at hw
  cases hz : w.fromBase y dep with
  | error e =>
    rw [hz] at hw
    exact congrArg _ (Except.error.inj hw)
  | ok z =>
    rw [hz] at hw
    nomatch hw

/-- A prefixed unit converts from the base unit where the unit converts to a number. -/
theorem exists_fromBase_withPrefix_iff (h : withPrefix c u base exponent = .ok w) (y : Scalar F) (dep : Option (Scalar F)) :
    (∃ z, w.fromBase y dep = .ok z) ↔ ∃ x, u.fromBase y dep = .ok (.number x) := by
  have hw := kind_fromBase_withPrefix h y dep
  constructor
  · rintro ⟨z, hz⟩
    rw [hz] at hw
    obtain ⟨x, hx, -⟩ := map_eq_ok_iff.1 hw.symm
    obtain ⟨s, hs, hsx⟩ := bind_eq_ok_iff.1 hx
    obtain rfl := Scalar.expectNumber_eq_ok_iff.1 hsx
    exact ⟨x, hs⟩
  · rintro ⟨x, hx⟩
    rw [hx] at hw
    obtain ⟨z, hz, -⟩ := map_eq_ok_iff.1 hw
    exact ⟨z, hz⟩

/-! ## Units that write no numbers -/

/-- A dimension passes the check of a catalog if it composes in it. -/
theorem checkDimension_eq_ok_iff {F : Type} {c : Catalog F} {u : UnitOfMeasure F} :
    checkDimension c u = .ok () ↔ u.dimension ∈ c.composable := by
  rw [← Catalog.nonComposableBase?_eq_none_iff]
  unfold checkDimension
  cases c.nonComposableBase? u.dimension <;> simp

/-- A unit without a scale gets every prefix of a catalog that its dimension composes in. -/
theorem exists_withPrefix {affix : Affix} (haffix : c.findPrefix? base exponent = some affix) (hratio : u.ratio? = none)
    (hdimension : u.dimension ∈ c.composable) : ∃ w, withPrefix c u base exponent = .ok w := by
  unfold withPrefix
  rw [haffix, hratio, checkDimension_eq_ok_iff.2 hdimension]
  exact ⟨_, rfl⟩

/-- A unit that is written as fractions has no scale, is of a dimension that composes and writes texts. -/
theorem of_fractional {bounds : Fraction.Bounds} (h : fractional c v bounds = .ok u) :
    u.ratio? = none ∧ u.dimension ∈ c.composable ∧ u.WritesNoNumber := by
  unfold fractional at h
  cases hcheck : check c v with
  | error e =>
    rw [hcheck] at h
    nomatch h
  | ok _ =>
    rw [hcheck] at h
    obtain rfl := Except.ok.inj h
    refine ⟨rfl, (composable_of_check hcheck : v.dimension ∈ _), fun y dep x hx => ?_⟩
    obtain ⟨z, -, hz⟩ := bind_eq_ok_iff.1 (hx : (v.fromBase y dep >>= _) = _)
    obtain ⟨value, -, rfl⟩ := map_eq_ok_iff.1 hz
    nofun

/-- The first of the units that components are in is of a dimension that composes. -/
theorem composable_of_checkHierarchy {F : Type} {c : Catalog F} {first u : UnitOfMeasure F} {us : List (UnitOfMeasure F)}
    (h : checkHierarchy c first (u :: us) = .ok ()) : u.dimension ∈ c.composable := by
  unfold checkHierarchy at h
  by_cases htext : us.isEmpty ∧ u.datatype = .text
  · rw [if_pos htext] at h
    cases hcheck : checkDimension c u with
    | error e =>
      rw [hcheck] at h
      nomatch h
    | ok _ => exact checkDimension_eq_ok_iff.1 hcheck
  · rw [if_neg htext] at h
    cases hcheck : check c u with
    | error e =>
      rw [hcheck] at h
      nomatch h
    | ok _ => exact composable_of_check hcheck

/-- A unit of several components has no scale, is of a dimension that composes and writes tuples. -/
theorem of_hierarchical (h : hierarchical c us = .ok u) : u.ratio? = none ∧ u.dimension ∈ c.composable ∧ u.WritesNoNumber := by
  cases us with
  | nil => nomatch h
  | cons first rest =>
    rw [hierarchical] at h
    cases hcheck : checkHierarchy c first (first :: rest) with
    | error e =>
      rw [hcheck] at h
      nomatch h
    | ok _ =>
      rw [hcheck] at h
      obtain rfl := Except.ok.inj h
      refine ⟨rfl, (composable_of_checkHierarchy hcheck : first.dimension ∈ _), fun y dep x hx => ?_⟩
      obtain ⟨value, -, hvalue⟩ := bind_eq_ok_iff.1 (hx : (y.expectNumber >>= _) = _)
      obtain ⟨components, -, rfl⟩ := map_eq_ok_iff.1 hvalue
      nofun

/-! ## Where a prefixed unit converts -/

/-- A unit with a prefix converts from the base unit exactly where the unit itself converts to a number, and it reports what else
the unit makes of it. So the prefix keeps every conversion of a number by a unit that does not convert by functions. Units that are
written as fractions and units of several components get every prefix of a catalog, and then nothing converts to them. -/
theorem withPrefix_converts_iff_number {affix : Affix} (haffix : c.findPrefix? base exponent = some affix) :
    (∀ u w, withPrefix c u base exponent = .ok w →
      (∀ y dep, (∃ z, w.fromBase y dep = .ok z) ↔ ∃ x, u.fromBase y dep = .ok (.number x)) ∧
      (∀ y dep x, u.fromBase y dep = .ok x → x.kind ≠ .number → w.fromBase y dep = .error (.wrongPayload .number x.kind)) ∧
      ((∀ t, u.conversion ≠ .functions t) → ∀ y dep x, u.fromBase (.number y) dep = .ok x →
        ∃ z, w.fromBase (.number y) dep = .ok z)) ∧
    ∀ u, (∃ v bounds, fractional c v bounds = .ok u) ∨ (∃ us, hierarchical c us = .ok u) →
      ∃ w, withPrefix c u base exponent = .ok w ∧ ∀ y dep z, w.fromBase y dep ≠ .ok z := by
  constructor
  · intro u w h
    have hiff := exists_fromBase_withPrefix_iff h
    refine ⟨hiff, fun y dep x => fromBase_withPrefix_of_kind h, fun hu y dep x hx => ?_⟩
    obtain ⟨x, rfl⟩ := Scalar.exists_eq_number (UnitOfMeasure.kind_of_fromBase hu hx)
    exact (hiff (.number y) dep).2 ⟨x, hx⟩
  · intro u hu
    obtain ⟨hratio, hdimension, hwrites⟩ : u.ratio? = none ∧ u.dimension ∈ c.composable ∧ u.WritesNoNumber := by
      rcases hu with ⟨v, bounds, hu⟩ | ⟨us, hu⟩
      · exact of_fractional hu
      · exact of_hierarchical hu
    obtain ⟨w, hw⟩ := exists_withPrefix haffix hratio hdimension
    refine ⟨w, hw, fun y dep z hz => ?_⟩
    obtain ⟨x, hx⟩ := (exists_fromBase_withPrefix_iff hw y dep).1 ⟨z, hz⟩
    exact hwrites y dep _ hx rfl

/-- A thousand inches convert, and a thousand feet with inches do not. -/
theorem kilo_of_inch_and_feet :
    let c : Catalog Float := Catalog.empty.addPrefix 10 3 ⟨"k", .plain "kilo\x7b0\x7d"⟩
    let foot : UnitOfMeasure Float := Catalog.Standard.multiple (.single "length") "ft" "foot" "feet" 3048 10000
    let inch : UnitOfMeasure Float := Catalog.Standard.multiple (.single "length") "in" "inch" "inches" 254 10000
    (∃ w, withPrefix c inch 10 3 = .ok w ∧ ∃ z, w.fromBase (.number 25.4) none = .ok z) ∧
      ∃ u w, hierarchical c [foot, inch] = .ok u ∧ withPrefix c u 10 3 = .ok w ∧ ∀ y dep z, w.fromBase y dep ≠ .ok z := by
  intro c foot inch
  have haffix : c.findPrefix? 10 3 = some ⟨"k", .plain "kilo\x7b0\x7d"⟩ := rfl
  constructor
  · obtain ⟨w, hw⟩ : ∃ w, withPrefix c inch 10 3 = .ok w := ⟨_, rfl⟩
    exact ⟨w, hw, (((withPrefix_converts_iff_number haffix).1 inch w hw).1 (.number 25.4) none).2 ⟨_, rfl⟩⟩
  · obtain ⟨u, hu⟩ : ∃ u, hierarchical c [foot, inch] = .ok u := ⟨_, rfl⟩
    obtain ⟨w, hw⟩ := (withPrefix_converts_iff_number haffix).2 u (.inr ⟨_, hu⟩)
    exact ⟨u, w, hu, hw⟩

/-- A thousand inches convert to sixteenths of an inch, and not to a thousand of them. -/
theorem inches_in_kilo_of_sixteenths :
    let c : Catalog Float := Catalog.empty.addPrefix 10 3 ⟨"k", .plain "kilo\x7b0\x7d"⟩
    let inch : UnitOfMeasure Float := Catalog.Standard.multiple (.single "length") "in" "inch" "inches" 254 10000
    ∃ u w, fractional c inch ⟨0, 0, 16⟩ = .ok u ∧ withPrefix c u 10 3 = .ok w ∧
      u.fromBase (.number 25.4) none = .ok (.text "1000") ∧
      w.fromBase (.number 25.4) none = .error (.wrongPayload .number .text) := by
  intro c inch
  obtain ⟨u, hu⟩ : ∃ u, fractional c inch ⟨0, 0, 16⟩ = .ok u := ⟨_, rfl⟩
  obtain ⟨w, hw⟩ : ∃ w, withPrefix c u 10 3 = .ok w := by
    obtain rfl := Except.ok.inj hu
    exact ⟨_, rfl⟩
  have hinch : u.fromBase (.number 25.4) none = .ok (.text "1000") := by
    obtain rfl := Except.ok.inj hu
    have hwrite : Fraction.write ((25.4 : Float) * Numeric.ofNat 10000 / Numeric.ofNat 254) ⟨0, 0, 16⟩ = "1000" := by
      decide +kernel
    exact congrArg (Except.ok ∘ Scalar.text) hwrite
  exact ⟨u, w, hu, hw, hinch, fromBase_withPrefix_of_kind hw hinch nofun⟩

end Composition

end QuantityCalculus
