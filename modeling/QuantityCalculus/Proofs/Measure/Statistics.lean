import QuantityCalculus.Catalog.Standard
import QuantityCalculus.Proofs.Builtin.Arguments
import QuantityCalculus.Proofs.Measure.Arithmetic
import QuantityCalculus.Proofs.Numeric.Statistics

/-!
# Statistics of quantities

A statistic of quantities is taken of their numbers in the unit of the first one. In exact arithmetic, what it comes to in the base
unit is the statistic of what the quantities come to (`Builtin.statistic_of_base_values`). So it depends neither on the units that the
quantities are in nor on their order, although both may change the unit of the result.
-/

namespace QuantityCalculus

open ExactNumeric

variable {F : Type} [ExactNumeric F] {c : Catalog F} {d : Dimension}

/-! ## Amounts -/

/-- A scale above zero has no zero. -/
theorem Ratio.isNonzero_of_amount_pos {r : Ratio F} (h : 0 < r.amount) : r.IsNonzero := by
  unfold amount at h
  exact div_ne_zero_iff.1 h.ne'

namespace Value

/-- A number in a numeric, composable unit with a positive scale. -/
inductive IsAmount (c : Catalog F) : Value F → Prop
  | quantity {x : F} {u : UnitOfMeasure F} {binding : Option (Binding F (Value F))} {r : Ratio F} :
    Composition.check c u = .ok () → u.ratio? = some r → 0 < r.amount → IsAmount c (.quantity ⟨.number x, u, binding⟩)

/-- An amount of a dimension, with the number that it comes to in the base unit. -/
def IsAmountOf (c : Catalog F) (d : Dimension) (a : Value F) (base : ℚ) : Prop := a.IsAmount c ∧ a.measure? = some ⟨base, d⟩

/-- An amount is a number in a scaled unit, and comes to the number times the scale. -/
theorem IsAmountOf.exists_quantity {a : Value F} {base : ℚ} (h : a.IsAmountOf c d base) :
    ∃ x u binding, a = .quantity ⟨.number x, u, binding⟩ ∧ u.IsScaled c ∧ 0 < u.scale ∧ u.dimension = d ∧
      toRat x * u.scale = base := by
  obtain ⟨@⟨x, u, binding, r, hcheck, hratio, hr⟩, hmeasure⟩ := h
  have hu : u.IsScaled c := ⟨hcheck, r, hratio, Ratio.isNonzero_of_amount_pos hr⟩
  have hbase := (UnitOfMeasure.measure?_eq hu x).symm.trans hmeasure
  obtain ⟨hvalue, hdimension⟩ := Measure.mk.inj (Option.some.inj hbase)
  exact ⟨x, u, binding, rfl, hu, by rwa [Composition.scale_eq_amount hratio], hdimension, hvalue⟩

end Value

/-! ## Numbers in the unit of the first amount -/

variable {u w : UnitOfMeasure F}

/-- A number in one scaled unit is aligned to another one of its dimension, and comes to the same. -/
theorem Algebra.exists_align (hu : u.IsScaled c) (hw : w.IsScaled c) (hdimension : w.dimension = u.dimension) (x y : F)
    (binding binding' : Option (Binding F (Value F))) :
    ∃ z, align c ⟨.number x, u, binding⟩ ⟨.number y, w, binding'⟩ = .ok (.number z) ∧
      toRat z * u.scale = toRat y * w.scale := by
  obtain ⟨z, hz, hvalue⟩ := exists_convertPayload_number hu hw hdimension y
  refine ⟨z, ?_, ?_⟩
  · unfold align
    rw [hu.check, hw.check]
    have hsame : u.dimension.sameAs w.dimension = true := Dimension.sameAs_iff.2 hdimension.symm
    exact (if_pos hsame).trans hz
  · rw [hvalue, div_mul_cancel₀ _ (Composition.scale_ne_zero hu)]

namespace Builtin

/-- Amounts of the dimension of a unit are numbers in it that come to the same. -/
theorem exists_alignedNumbers (name : String) (hu : u.IsScaled c) (x : F) (binding : Option (Binding F (Value F)))
    {args : List (Value F)} {bases : List ℚ} (h : List.Forall₂ (Value.IsAmountOf c u.dimension) args bases) :
    ∃ xs, alignedNumbers c name ⟨.number x, u, binding⟩ args = .ok xs ∧ xs.map (fun x => toRat x * u.scale) = bases := by
  induction h with
  | nil => exact ⟨[], rfl, rfl⟩
  | cons ha hargs ih =>
    obtain ⟨y, w, binding', rfl, hw, -, hdimension, rfl⟩ := ha.exists_quantity
    obtain ⟨z, hz, hvalue⟩ := Algebra.exists_align hu hw hdimension x y binding binding'
    obtain ⟨xs, hxs, rfl⟩ := ih
    refine ⟨z :: xs, ?_, ?_⟩
    · unfold alignedNumbers at hxs ⊢
      rw [List.mapM_cons, hxs]
      dsimp only
      rw [hz]
      rfl
    · rw [List.map_cons, hvalue]

/-- The numbers that amounts are in the unit of the first one. -/
theorem exists_magnitudes (name : String) {args : List (Value F)} {bases : List ℚ}
    (h : List.Forall₂ (Value.IsAmountOf c d) (spread args) bases) (hne : bases ≠ []) :
    ∃ xs u, magnitudes c name args = .ok (xs, some u) ∧ u.IsScaled c ∧ 0 < u.scale ∧ u.dimension = d ∧
      bases = (xs.map toRat).map (· * u.scale) := by
  unfold magnitudes
  generalize spread args = amounts at h
  cases h with
  | nil => exact absurd rfl hne
  | cons ha hargs =>
    obtain ⟨x, u, binding, rfl, hu, hpositive, rfl, -⟩ := ha.exists_quantity
    obtain ⟨xs, hxs, hbases⟩ := exists_alignedNumbers name hu x binding (.cons ha hargs)
    refine ⟨xs, u, ?_, hu, hpositive, rfl, ?_⟩
    · dsimp only
      rw [hxs]
      rfl
    · rw [List.map_map]
      exact hbases.symm

/-- A sum from an amount on stays in its unit, and comes to the sum. -/
theorem exists_foldlM_add (hu : u.IsScaled c) (binding : Option (Binding F (Value F))) {args : List (Value F)} {bases : List ℚ}
    (h : List.Forall₂ (Value.IsAmountOf c u.dimension) args bases) (x : F) :
    ∃ y, args.foldlM (Algebra.add c) (.quantity ⟨.number x, u, binding⟩) = .ok (.quantity ⟨.number y, u, binding⟩) ∧
      toRat y * u.scale = toRat x * u.scale + bases.sum := by
  induction h generalizing x with
  | nil => exact ⟨x, rfl, by simp⟩
  | cons ha hargs ih =>
    obtain ⟨y, w, binding', rfl, hw, -, hdimension, rfl⟩ := ha.exists_quantity
    obtain ⟨z, hz, hvalue⟩ := Algebra.exists_align hu hw hdimension x y binding binding'
    obtain ⟨total, htotal, hsum⟩ := ih (x + z)
    have hadd : Algebra.add c (.quantity ⟨.number x, u, binding⟩) (.quantity ⟨.number y, w, binding'⟩) =
        .ok (.quantity ⟨.number (x + z), u, binding⟩) := by
      show (Algebra.align c ⟨.number x, u, binding⟩ ⟨.number y, w, binding'⟩ >>= _) = _
      rw [hz]
      rfl
    refine ⟨total, ?_, ?_⟩
    · rw [List.foldlM_cons, hadd]
      exact htotal
    · rw [hsum, toRat_add, add_mul, hvalue, List.sum_cons, add_assoc]

/-! ## Statistics of amounts -/

/-- The sum of amounts comes to the sum of what they come to. -/
theorem exists_sum {args : List (Value F)} {bases : List ℚ} (h : List.Forall₂ (Value.IsAmountOf c d) (spread args) bases)
    (hne : bases ≠ []) : ∃ v, Builtin.sum.apply c args = .ok v ∧ v.measure? = some ⟨bases.sum, d⟩ := by
  show ∃ v, accumulate (Algebra.add c) (.number 0) args = .ok v ∧ _
  unfold accumulate
  generalize spread args = amounts at h
  cases h with
  | nil => exact absurd rfl hne
  | cons ha hargs =>
    obtain ⟨x, u, binding, rfl, hu, -, rfl, rfl⟩ := ha.exists_quantity
    obtain ⟨y, hy, hsum⟩ := exists_foldlM_add hu binding hargs x
    refine ⟨_, hy, ?_⟩
    rw [List.sum_cons, ← hsum]
    exact UnitOfMeasure.measure?_eq hu y

/-- A statistic of amounts comes to the statistic of what they come to. -/
theorem exists_statistic {s : Statistic} (hs : s ∈ [.mean, .median, .min, .max]) {args : List (Value F)} {bases : List ℚ}
    (h : List.Forall₂ (Value.IsAmountOf c d) (spread args) bases) (hne : bases ≠ []) :
    ∃ v m, (Builtin.statistic s).apply c args = .ok v ∧ v.measure? = some ⟨m, d⟩ ∧
      (Builtin.statistic s).statistic? bases = some m := by
  obtain ⟨xs, u, hmagnitudes, hu, hpositive, rfl, rfl⟩ := exists_magnitudes s.name h hne
  have hxs : xs ≠ [] := by simpa using hne
  obtain ⟨y, hy, hstatistic⟩ := Statistic.exists_of hs hxs
  refine ⟨(Value.number y).inUnit u, toRat y * u.scale, ?_, UnitOfMeasure.measure?_eq hu y, ?_⟩
  · show reduceNumbers c s args = _
    unfold reduceNumbers
    rw [hmagnitudes]
    dsimp only [bind, Except.bind]
    rw [hy]
    rfl
  · rw [statistic?_scale _ _ hpositive, hstatistic]
    exact congrArg (fun k => some (toRat y * k)) (pow_one u.scale)

/-- The variance of two or more amounts comes to the variance of what they come to. -/
theorem exists_var {args : List (Value F)} {bases : List ℚ} (h : List.Forall₂ (Value.IsAmountOf c d) (spread args) bases)
    (htwo : 2 ≤ bases.length) :
    ∃ v m, Builtin.var.apply c args = .ok v ∧ v.measure? = some ⟨m, d ^ 2⟩ ∧ Builtin.var.statistic? bases = some m := by
  have hne : bases ≠ [] := by
    rintro rfl
    simp at htwo
  obtain ⟨xs, u, hmagnitudes, hu, hpositive, rfl, rfl⟩ := exists_magnitudes "var" h hne
  rw [List.length_map, List.length_map] at htwo
  obtain ⟨y, hy, hvariance⟩ := exists_sampleVariance "var" htwo
  obtain ⟨w, hw, hscaled, hscale, hdimension⟩ := Composition.exists_multiply (c := c) [u, u]
    (List.cons_ne_nil _ _) (by simpa using hu)
  rw [List.map_cons, List.map_cons, List.map_nil, List.prod_pair, ← pow_two] at hscale hdimension
  refine ⟨(Value.number y).inUnit w, toRat y * w.scale, ?_, ?_, ?_⟩
  · show variance c args = _
    unfold variance
    rw [hmagnitudes]
    dsimp only [bind, Except.bind]
    rw [hy]
    dsimp only
    rw [hw]
    rfl
  · rw [← hdimension]
    exact UnitOfMeasure.measure?_eq hscaled y
  · have hstatistic : Builtin.var.statistic? (xs.map toRat) = some (toRat y) := by
      rw [hvariance]
      exact if_neg (by rw [List.length_map]; omega)
    rw [statistic?_scale _ _ hpositive, hstatistic, hscale]
    rfl

/-- The functions of several amounts whose value is a rational statistic. -/
def statistics : List Builtin := [.sum, .statistic .mean, .statistic .median, .statistic .min, .statistic .max, .var]

/-- A statistic is called with one argument or more. -/
theorem call_statistic {b : Builtin} (hb : b ∈ statistics) {args : List (Value F)} (hargs : args ≠ []) :
    (FunctionValue.ofBuiltin b).call c args = b.apply c args := by
  refine call_of_variadic ?_ hargs
  revert b
  decide

/-- A statistic of amounts can be called, and comes to the statistic of what they come to. -/
theorem exists_call_statistic {b : Builtin} (hb : b ∈ statistics) {args : List (Value F)} {bases : List ℚ}
    (h : List.Forall₂ (Value.IsAmountOf c d) (spread args) bases) (hne : bases ≠ []) (htwo : b = .var → 2 ≤ bases.length) :
    ∃ v m, (FunctionValue.ofBuiltin b).call c args = .ok v ∧ v.measure? = some ⟨m, d ^ b.degree⟩ ∧
      b.statistic? bases = some m := by
  have hargs : args ≠ [] := by
    rintro rfl
    cases h
    exact hne rfl
  rw [call_statistic hb hargs]
  cases b with
  | sum =>
    obtain ⟨v, hv, hmeasure⟩ := exists_sum h hne
    exact ⟨v, bases.sum, hv, by simpa [degree] using hmeasure, rfl⟩
  | var => exact exists_var h (htwo rfl)
  | statistic s =>
    have hs : s ∈ [.mean, .median, .min, .max] := by simpa [statistics] using hb
    obtain ⟨v, m, hv, hmeasure, hm⟩ := exists_statistic hs h hne
    exact ⟨v, m, hv, by simpa [degree] using hmeasure, hm⟩
  | _ => simp [statistics] at hb

/-- A statistic of amounts of one dimension can be called, and comes in the base unit to the statistic of what the amounts come to. It
comes to the same for amounts that come to the same in any order, so it depends neither on the units nor on the order. A variance takes
two amounts. -/
theorem statistic_of_base_values {b : Builtin} (hb : b ∈ statistics) {args args' : List (Value F)} {bases bases' : List ℚ}
    (h : List.Forall₂ (Value.IsAmountOf c d) (spread args) bases)
    (h' : List.Forall₂ (Value.IsAmountOf c d) (spread args') bases') (hperm : bases'.Perm bases) (hne : bases ≠ [])
    (htwo : b = .var → 2 ≤ bases.length) :
    ∃ v v' m, (FunctionValue.ofBuiltin b).call c args = .ok v ∧ (FunctionValue.ofBuiltin b).call c args' = .ok v' ∧
      b.statistic? bases = some m ∧ v.measure? = some ⟨m, d ^ b.degree⟩ ∧ v'.measure? = some ⟨m, d ^ b.degree⟩ := by
  have hne' : bases' ≠ [] := by
    rintro rfl
    exact hne hperm.nil_eq.symm
  obtain ⟨v, m, hv, hmeasure, hm⟩ := exists_call_statistic hb h hne htwo
  obtain ⟨v', m', hv', hmeasure', hm'⟩ := exists_call_statistic hb h' hne' (by rwa [hperm.length_eq])
  obtain rfl : m' = m := by
    rw [statistic?_perm b hperm, hm] at hm'
    exact (Option.some.inj hm').symm
  exact ⟨v, v', m', hv, hv', hm, hmeasure, hmeasure'⟩

/-- The least of two meters and five feet is five feet, also of sixty inches and two meters in an array. -/
theorem min_of_lengths :
    let length : Dimension := .single "length"
    let meters (x : ℚ) : Value ℚ := (Value.number x).inUnit (Catalog.Standard.named length "m" "meter" "meters")
    let feet (x : ℚ) : Value ℚ := (Value.number x).inUnit (Catalog.Standard.multiple length "ft" "foot" "feet" 3048 10000)
    let inches (x : ℚ) : Value ℚ := (Value.number x).inUnit (Catalog.Standard.multiple length "in" "inch" "inches" 254 10000)
    ∃ v v', (FunctionValue.ofBuiltin (.statistic .min)).call .empty [meters 2, feet 5] = .ok v ∧
      (FunctionValue.ofBuiltin (.statistic .min)).call .empty [.array [inches 60, meters 2]] = .ok v' ∧
      v.measure? = some ⟨1.524, length⟩ ∧ v'.measure? = some ⟨1.524, length⟩ := by
  intro length meters feet inches
  have hmeters : (meters 2).IsAmountOf .empty length 2 := by
    refine ⟨.quantity rfl rfl ?_, rfl⟩
    rw [Ratio.amount_one]
    exact one_pos
  have hratio {multiplier divisor : ℕ} (hm : 0 < multiplier) (hd : 0 < divisor) :
      0 < (⟨Numeric.ofNat multiplier, Numeric.ofNat divisor⟩ : Ratio ℚ).amount := by
    unfold Ratio.amount
    rw [toRat_ofNat, toRat_ofNat]
    positivity
  have hfeet : (feet 5).IsAmountOf .empty length 1.524 := by
    refine ⟨.quantity rfl rfl (hratio (by decide) (by decide)), ?_⟩
    decide +kernel
  have hinches : (inches 60).IsAmountOf .empty length 1.524 := by
    refine ⟨.quantity rfl rfl (hratio (by decide) (by decide)), ?_⟩
    decide +kernel
  obtain ⟨v, v', m, hv, hv', hm, hmeasure, hmeasure'⟩ :=
    @statistic_of_base_values ℚ _ _ _ (.statistic .min) (by decide) [meters 2, feet 5]
      [.array [inches 60, meters 2]] _ _ (.cons hmeters (.cons hfeet .nil)) (.cons hinches (.cons hmeters .nil))
      (.swap ..) (List.cons_ne_nil _ _) nofun
  have hleast : Builtin.statistic? (.statistic .min) [2, 1.524] = some 1.524 := by decide +kernel
  obtain rfl : 1.524 = m := Option.some.inj (hleast.symm.trans hm)
  exact ⟨v, v', hv, hv', by simpa [degree] using hmeasure, by simpa [degree] using hmeasure'⟩

end Builtin

end QuantityCalculus
