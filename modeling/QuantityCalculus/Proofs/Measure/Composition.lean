import Mathlib.Algebra.BigOperators.Group.List.Lemmas
import Mathlib.Algebra.Group.Subgroup.Basic
import Mathlib.Algebra.Group.Submonoid.BigOperators
import QuantityCalculus.Composition
import QuantityCalculus.Proofs.Composition.Exponents
import QuantityCalculus.Proofs.Measure.Dimension
import QuantityCalculus.Proofs.Measure.Scale

/-!
# Scales of composed units

In exact arithmetic, units that are numeric, composable and have a scale without a zero compose to units that are so again. The scale
and the dimension of a product, a quotient or a power are the product, quotient or power of those of the operands, and a prefix
multiplies the scale by its power.
-/

namespace QuantityCalculus

open ExactNumeric

/-- The dimensions all of whose bases are composable. -/
def Catalog.composable {F : Type} (c : Catalog F) : Subgroup Dimension where
  carrier := {d | ∀ base, d.get base ≠ 0 → c.isComposableBase base = true}
  one_mem' base h := absurd rfl h
  mul_mem' := by
    intro d e hd he base h
    rw [Dimension.get_mul] at h
    by_cases hbase : d.get base = 0
    · refine he base fun hzero => h ?_
      rw [hbase, hzero, add_zero]
    · exact hd base hbase
  inv_mem' := by
    intro d hd base h
    rw [Dimension.get_inv] at h
    exact hd base (neg_ne_zero.1 h)

/-- A dimension is composable if no base is found that is not. -/
theorem Catalog.nonComposableBase?_eq_none_iff {F : Type} {c : Catalog F} {d : Dimension} :
    c.nonComposableBase? d = none ↔ d ∈ c.composable := by
  unfold nonComposableBase?
  rw [List.find?_eq_none]
  constructor
  · intro h base hbase
    have hcomposable := h base (Dimension.mem_bases_iff.2 hbase)
    simpa using hcomposable
  · intro h base hbase
    simpa using h base (Dimension.mem_bases_iff.1 hbase)

variable {F : Type} [ExactNumeric F]

/-- A unit that is numeric and composable and has a scale without a zero. -/
structure UnitOfMeasure.IsScaled (c : Catalog F) (u : UnitOfMeasure F) : Prop where
  check : Composition.check c u = .ok ()
  ratio : ∃ r, u.ratio? = some r ∧ r.IsNonzero

namespace Composition

variable {c : Catalog F}

/-- A unit composes if it is numeric and of a composable dimension. -/
theorem check_eq_ok_iff {F : Type} {c : Catalog F} {u : UnitOfMeasure F} :
    check c u = .ok () ↔ u.datatype = .numeric ∧ u.dimension ∈ c.composable := by
  rw [← Catalog.nonComposableBase?_eq_none_iff]
  unfold check checkDimension
  by_cases h : u.datatype = .numeric
  · rw [if_pos h]
    cases c.nonComposableBase? u.dimension <;> simp [h]
  · rw [if_neg h]
    simp [h]

/-- A unit that composes is of a composable dimension. -/
theorem composable_of_check {F : Type} {c : Catalog F} {u : UnitOfMeasure F} (h : check c u = .ok ()) :
    u.dimension ∈ c.composable :=
  (check_eq_ok_iff.1 h).2

/-- The product of the dimensions of units that compose is composable. -/
theorem prod_mem_composable {F : Type} {c : Catalog F} {us : List (UnitOfMeasure F)} (h : ∀ u ∈ us, check c u = .ok ()) :
    (us.map (·.dimension)).prod ∈ c.composable := by
  refine list_prod_mem fun d hd => ?_
  obtain ⟨u, hu, rfl⟩ := List.mem_map.1 hd
  exact composable_of_check (h u hu)

/-- The scale of a unit that composes is its ratio. -/
theorem scaleOf_eq_ok {F : Type} [Numeric F] {c : Catalog F} {u : UnitOfMeasure F} {r : Ratio F} (h : check c u = .ok ())
    (hratio : u.ratio? = some r) : scaleOf c u = .ok r := by
  simp only [scaleOf, h, hratio]

/-- A unit whose scale is taken composes. -/
theorem check_of_scaleOf {F : Type} [Numeric F] {c : Catalog F} {u : UnitOfMeasure F} {r : Ratio F} (h : scaleOf c u = .ok r) :
    check c u = .ok () := by
  unfold scaleOf at h
  cases hcheck : check c u with
  | error e =>
    rw [hcheck] at h
    nomatch h
  | ok _ => rfl

/-- The scale of a unit that is made of one. -/
theorem scaleOf_scaledUnit {F : Type} [Numeric F] {c : Catalog F} {d : Dimension} (h : d ∈ c.composable) (r : Ratio F)
    (symbol : Option String) (name : Option LanguageString) : scaleOf c (scaledUnit d r symbol name) = .ok r :=
  scaleOf_eq_ok (check_eq_ok_iff.2 ⟨rfl, h⟩) rfl

/-- A unit made of a scale without a zero is scaled by it. -/
theorem isScaled_scaledUnit {d : Dimension} {r : Ratio F} (hd : d ∈ c.composable) (hr : r.IsNonzero)
    (symbol : Option String) (name : Option LanguageString) : (scaledUnit d r symbol name).IsScaled c :=
  ⟨check_eq_ok_iff.2 ⟨rfl, hd⟩, r, rfl, hr⟩

/-- The scale of a unit is the amount of its ratio. -/
theorem scale_eq_amount {u : UnitOfMeasure F} {r : Ratio F} (h : u.ratio? = some r) : u.scale = r.amount := by
  unfold UnitOfMeasure.scale
  rw [h]
  rfl

/-- A scaled unit has no scale of zero. -/
theorem scale_ne_zero {u : UnitOfMeasure F} (h : u.IsScaled c) : u.scale ≠ 0 := by
  obtain ⟨r, hratio, hr⟩ := h.ratio
  rw [scale_eq_amount hratio]
  exact hr.amount_ne_zero

/-- A scaled unit has a scale in a composition. -/
theorem exists_scaleOf {u : UnitOfMeasure F} (h : u.IsScaled c) :
    ∃ r, scaleOf c u = .ok r ∧ r.IsNonzero ∧ r.amount = u.scale := by
  obtain ⟨r, hratio, hr⟩ := h.ratio
  exact ⟨r, scaleOf_eq_ok h.check hratio, hr, (scale_eq_amount hratio).symm⟩

/-- Combining scales one after another multiplies by what each of them contributes. -/
theorem exists_foldScales {combine : Ratio F → Ratio F → Ratio F} {f : ℚ → ℚ}
    (hcombine : ∀ r s : Ratio F, r.IsNonzero → s.IsNonzero →
      (combine r s).IsNonzero ∧ (combine r s).amount = r.amount * f s.amount)
    {us : List (UnitOfMeasure F)} (h : ∀ u ∈ us, u.IsScaled c) {r : Ratio F} (hr : r.IsNonzero) :
    ∃ s, foldScales c combine r us = .ok s ∧ s.IsNonzero ∧ s.amount = r.amount * (us.map fun u => f u.scale).prod := by
  induction us generalizing r with
  | nil =>
    refine ⟨r, rfl, hr, ?_⟩
    rw [List.map_nil, List.prod_nil, mul_one]
  | cons u us ih =>
    obtain ⟨t, hscale, ht, hamount⟩ := exists_scaleOf (h u (List.mem_cons_self ..))
    obtain ⟨hnonzero, hcombined⟩ := hcombine r t hr ht
    obtain ⟨s, hfold, hs, hsamount⟩ := ih (fun v hv => h v (List.mem_cons_of_mem _ hv)) hnonzero
    refine ⟨s, ?_, hs, ?_⟩
    · rw [foldScales, hscale]
      exact hfold
    · rw [hsamount, hcombined, hamount, List.map_cons, List.prod_cons, mul_assoc]

/-- The scale of a product of two. -/
def productScale {F : Type} [Numeric F] (r s : Ratio F) : Ratio F := ⟨r.multiplier * s.multiplier, r.divisor * s.divisor⟩

/-- The scale of a quotient of two. -/
def quotientScale {F : Type} [Numeric F] (r s : Ratio F) : Ratio F := ⟨r.multiplier * s.divisor, r.divisor * s.multiplier⟩

/-- Scales are multiplied part by part. -/
theorem product_of_scales (r s : Ratio F) (hr : r.IsNonzero) (hs : s.IsNonzero) :
    (productScale r s).IsNonzero ∧ (productScale r s).amount = r.amount * s.amount := by
  unfold productScale Ratio.IsNonzero Ratio.amount at *
  simp only [toRat_mul]
  exact ⟨⟨mul_ne_zero hr.1 hs.1, mul_ne_zero hr.2 hs.2⟩, (div_mul_div_comm ..).symm⟩

/-- Scales are divided crosswise. -/
theorem quotient_of_scales (r s : Ratio F) (hr : r.IsNonzero) (hs : s.IsNonzero) :
    (quotientScale r s).IsNonzero ∧ (quotientScale r s).amount = r.amount * s.amount⁻¹ := by
  unfold quotientScale Ratio.IsNonzero Ratio.amount at *
  simp only [toRat_mul]
  refine ⟨⟨mul_ne_zero hr.1 hs.2, mul_ne_zero hr.2 hs.1⟩, ?_⟩
  rw [inv_div, div_mul_div_comm]

/-! ## Products and quotients -/

/-- A product combines the dimensions, scales, symbols and names of its factors. -/
theorem multiply_eq {F : Type} [Numeric F] (c : Catalog F) {us : List (UnitOfMeasure F)} (hus : us ≠ []) :
    multiply c us = (foldScales c productScale .one us).map fun r =>
      scaledUnit (us.map (·.dimension)).prod r (joinedSymbol c c.joiners.product us)
        ((us.mapM UnitOfMeasure.name).map (joinedName c.joiners.product)) := by
  unfold multiply
  rw [if_neg (by simpa using hus), ← Dimension.product_eq_prod]
  unfold productScale
  split <;> rename_i h <;> rw [h] <;> rfl

/-- A quotient combines the dimensions, scales, symbols and names of the dividend and its divisors. -/
theorem divide_eq {F : Type} [Numeric F] (c : Catalog F) (u : UnitOfMeasure F) (us : List (UnitOfMeasure F)) :
    divide c (u :: us) = (scaleOf c u).bind fun r => (foldScales c quotientScale r us).map fun s =>
      scaledUnit (u.dimension / (us.map (·.dimension)).prod) s (joinedSymbol c c.joiners.quotient (u :: us))
        (((u :: us).mapM UnitOfMeasure.name).map fun names => joinedName c.joiners.quotient (quotientNames names)) := by
  unfold divide
  dsimp only
  rw [← Dimension.quotient_eq_div_prod]
  cases scaleOf c u with
  | error e => rfl
  | ok r =>
    unfold quotientScale
    dsimp only [Except.bind]
    split <;> rename_i h <;> rw [h] <;> rfl

/-- The product of scaled units exists, and is scaled by the product of their scales. -/
theorem exists_multiply (us : List (UnitOfMeasure F)) (hne : us ≠ []) (h : ∀ u ∈ us, u.IsScaled c) :
    ∃ w, multiply c us = .ok w ∧ w.IsScaled c ∧ w.scale = (us.map (·.scale)).prod ∧
      w.dimension = (us.map (·.dimension)).prod := by
  obtain ⟨r, hfold, hr, hamount⟩ := exists_foldScales (f := fun x => x) product_of_scales h Ratio.isNonzero_one
  have hdimension : (us.map (·.dimension)).prod ∈ c.composable := prod_mem_composable fun u hu => (h u hu).check
  rw [Ratio.amount_one, one_mul] at hamount
  rw [multiply_eq c hne, hfold]
  exact ⟨_, rfl, isScaled_scaledUnit hdimension hr _ _, hamount, rfl⟩

/-- The quotient of scaled units exists, and is scaled by the quotient of their scales. -/
theorem exists_divide {u : UnitOfMeasure F} (us : List (UnitOfMeasure F)) (hu : u.IsScaled c)
    (hus : ∀ v ∈ us, v.IsScaled c) :
    ∃ w, divide c (u :: us) = .ok w ∧ w.IsScaled c ∧ w.scale = u.scale / (us.map (·.scale)).prod ∧
      w.dimension = u.dimension / (us.map (·.dimension)).prod := by
  obtain ⟨s, hscale, hs, hsamount⟩ := exists_scaleOf hu
  obtain ⟨r, hfold, hr, hamount⟩ := exists_foldScales (f := fun x => x⁻¹) quotient_of_scales hus hs
  have hdimension : u.dimension / (us.map (·.dimension)).prod ∈ c.composable :=
    Subgroup.div_mem _ (composable_of_check hu.check) (prod_mem_composable fun v hv => (hus v hv).check)
  have hinv : (us.map fun v => v.scale⁻¹).prod = ((us.map (·.scale)).prod)⁻¹ := by
    rw [List.prod_inv, List.map_map]
    rfl
  rw [hsamount, hinv, ← div_eq_mul_inv] at hamount
  rw [divide_eq, hscale]
  dsimp only [Except.bind]
  rw [hfold]
  exact ⟨_, rfl, isScaled_scaledUnit hdimension hr _ _, hamount, rfl⟩

/-! ## Powers -/

/-- An integer is recognized as itself. -/
theorem rationalExponent?_eq_some {x : F} {n : ℤ} (hx : toRat x = n) {e : Rat} (h : rationalExponent? x = some e) :
    e = n := by
  refine eq_of_isNear (rationalExponent?_eq_some_iff.1 h).1 ⟨?_, ?_⟩
  · rw [Rat.den_intCast]
    decide
  · rw [hx, sub_self, abs_zero]
    norm_num

/-- Scales are raised part by part. -/
theorem power_of_scale {x : F} {n : ℤ} (hx : toRat x = n) {r : Ratio F} (hr : r.IsNonzero) :
    (⟨Numeric.pow r.multiplier x, Numeric.pow r.divisor x⟩ : Ratio F).IsNonzero ∧
      (⟨Numeric.pow r.multiplier x, Numeric.pow r.divisor x⟩ : Ratio F).amount = r.amount ^ n := by
  obtain ⟨hmultiplier, hdivisor⟩ := hr
  unfold Ratio.IsNonzero Ratio.amount
  dsimp only
  rw [toRat_pow r.multiplier x n hx fun _ => hmultiplier, toRat_pow r.divisor x n hx fun _ => hdivisor]
  exact ⟨⟨zpow_ne_zero _ hmultiplier, zpow_ne_zero _ hdivisor⟩, (div_zpow ..).symm⟩

/-- A power of a scaled unit with an integer exponent is scaled by the power of its scale. -/
theorem power_eq_ok {u w : UnitOfMeasure F} {x : F} {n : ℤ} (hu : u.IsScaled c) (hx : toRat x = n)
    (h : power c u x = .ok w) : w.IsScaled c ∧ w.scale = u.scale ^ n ∧ w.dimension = u.dimension ^ n := by
  obtain ⟨r, hratio, hr⟩ := hu.ratio
  unfold power at h
  rw [hu.check, hratio] at h
  dsimp only at h
  cases hexponent : rationalExponent? x with
  | none =>
    rw [hexponent] at h
    nomatch h
  | some e =>
    obtain rfl := rationalExponent?_eq_some hx hexponent
    rw [hexponent, Option.bind_some] at h
    cases hdegree : c.findDegree? n with
    | none =>
      rw [hdegree] at h
      nomatch h
    | some degree =>
      rw [hdegree] at h
      dsimp only [Option.map_some] at h
      split at h
      · nomatch h
      · obtain rfl := Except.ok.inj h
        obtain ⟨hnonzero, hamount⟩ := power_of_scale hx hr
        have hdimension : u.dimension.pow n = u.dimension ^ n := Dimension.pow_intCast _ _
        have hcomposable := Subgroup.zpow_mem _ (composable_of_check hu.check) n
        rw [← hdimension] at hcomposable
        refine ⟨isScaled_scaledUnit hcomposable hnonzero _ _, ?_, hdimension⟩
        rw [scale_eq_amount hratio, ← hamount]
        rfl

/-! ## Prefixes -/

/-- A scale is multiplied by a power of a base, or divided by it if the exponent is not positive. -/
theorem prefix_of_scale {base : ℕ} (hbase : base ≠ 0) (exponent : ℤ) {r : Ratio F} (hr : r.IsNonzero) {scale : F}
    (hscale : toRat scale = (base : ℚ) ^ exponent.natAbs) :
    (if 0 < exponent then ⟨r.multiplier * scale, r.divisor⟩ else ⟨r.multiplier, r.divisor * scale⟩ : Ratio F).IsNonzero ∧
      (if 0 < exponent then ⟨r.multiplier * scale, r.divisor⟩ else ⟨r.multiplier, r.divisor * scale⟩ : Ratio F).amount =
        r.amount * base ^ exponent := by
  obtain ⟨hmultiplier, hdivisor⟩ := hr
  have hpow : (base : ℚ) ^ exponent.natAbs ≠ 0 := pow_ne_zero _ (by exact_mod_cast hbase)
  unfold Ratio.IsNonzero Ratio.amount
  by_cases hpositive : 0 < exponent
  · have habs : (exponent.natAbs : ℤ) = exponent := by omega
    rw [if_pos hpositive, toRat_mul, hscale]
    refine ⟨⟨mul_ne_zero hmultiplier hpow, hdivisor⟩, ?_⟩
    rw [← zpow_natCast, habs, div_mul_eq_mul_div]
  · have habs : (exponent.natAbs : ℤ) = -exponent := by omega
    rw [if_neg hpositive, toRat_mul, hscale]
    refine ⟨⟨hmultiplier, mul_ne_zero hdivisor hpow⟩, ?_⟩
    rw [← zpow_natCast, habs, zpow_neg, ← div_div, div_inv_eq_mul]

/-- A prefix multiplies the scale of a scaled unit by its power. -/
theorem withPrefix_eq_ok {u w : UnitOfMeasure F} {base : ℕ} {exponent : ℤ} (hu : u.IsScaled c) (hbase : base ≠ 0)
    (h : withPrefix c u base exponent = .ok w) :
    w.IsScaled c ∧ w.scale = u.scale * base ^ exponent ∧ w.dimension = u.dimension := by
  obtain ⟨r, hratio, hr⟩ := hu.ratio
  have hscale : toRat (Numeric.powInt (Numeric.ofNat base : F) exponent.natAbs) = (base : ℚ) ^ exponent.natAbs := by
    rw [toRat_powInt _ (fun h => absurd h (by omega)), toRat_ofNat, zpow_natCast]
  obtain ⟨hnonzero, hamount⟩ := prefix_of_scale hbase exponent hr hscale
  unfold withPrefix at h
  cases haffix : c.findPrefix? base exponent with
  | none =>
    rw [haffix] at h
    nomatch h
  | some affix =>
    rw [haffix, hratio] at h
    dsimp only at h
    rw [hu.check] at h
    obtain rfl := Except.ok.inj h
    refine ⟨isScaled_scaledUnit (composable_of_check hu.check) hnonzero _ _, ?_, rfl⟩
    rw [scale_eq_amount hratio, ← hamount]
    rfl

end Composition

end QuantityCalculus
