import QuantityCalculus.Proofs.Conversion.Payload
import QuantityCalculus.Proofs.Measure.Composition

/-!
# Arithmetic on base values

In exact arithmetic a number, a unit or a quantity measures a rational amount of some dimension: what it comes to in the base unit of
that dimension. Each operation on values is the operation on what they measure (`Algebra.measures_binary`), so the way in which
an operation distributes its work over payloads and units makes no difference.
-/

namespace QuantityCalculus

open ExactNumeric

/-- The operations on two operands that measures have. -/
def BinaryOp.isArithmetic : BinaryOp → Bool
  | .add | .sub | .mul | .div | .power | .decimalScale | .binaryScale => true
  | _ => false

/-- A rational amount of the base unit of a dimension. -/
structure Measure where
  value : ℚ
  dimension : Dimension
  deriving DecidableEq

namespace Measure

/-- The negative of a measure. -/
def neg (a : Measure) : Measure := ⟨-a.value, a.dimension⟩

/-- An operation on measures. Only measures of one dimension are added; the second operand of a power or a scale is an integer. -/
def binary? (op : BinaryOp) (a b : Measure) : Option Measure :=
  match op with
  | .add => if a.dimension = b.dimension then some ⟨a.value + b.value, a.dimension⟩ else none
  | .sub => if a.dimension = b.dimension then some ⟨a.value - b.value, a.dimension⟩ else none
  | .mul => some ⟨a.value * b.value, a.dimension * b.dimension⟩
  | .div => some ⟨a.value / b.value, a.dimension / b.dimension⟩
  | .power => some ⟨a.value ^ b.value.num, a.dimension ^ b.value.num⟩
  | .decimalScale => some ⟨a.value * 10 ^ b.value.num, a.dimension⟩
  | .binaryScale => some ⟨a.value * 2 ^ b.value.num, a.dimension⟩
  | _ => none

/-- What is asked of the operands of an operation: zero is not divided by nor inverted, and integers are where `binary?` needs them. -/
def Admits (op : BinaryOp) (a b : Measure) : Prop :=
  match op with
  | .div => b.value ≠ 0
  | .power => b.value.den = 1 ∧ (b.value < 0 → a.value ≠ 0)
  | .decimalScale | .binaryScale => b.value.den = 1
  | _ => True

end Measure

variable {F : Type} [ExactNumeric F]

/-- A number in a unit, as an amount of the base unit. -/
def UnitOfMeasure.measure? (u : UnitOfMeasure F) (x : F) : Option Measure :=
  (u.toBaseNumber x none).toOption.map fun y => ⟨toRat y, u.dimension⟩

namespace Value

/-- What a value measures: a number itself, a unit one of it, and a quantity its payload in its unit. -/
def measure? : Value F → Option Measure
  | .number x => some ⟨toRat x, 1⟩
  | .unit u => u.measure? 1
  | .quantity q => q.payload.number?.bind q.unit.measure?
  | _ => none

/-- A number, a scaled unit, or a number in a scaled unit. -/
def IsOperand (c : Catalog F) : Value F → Prop
  | .number _ => True
  | .unit u => u.IsScaled c
  | .quantity q => (∃ x, q.payload = .number x) ∧ q.unit.IsScaled c
  | _ => False

/-- An operand with what it measures, by the scale of its unit. -/
inductive Measures (c : Catalog F) : Value F → Measure → Prop where
  | number (x : F) : Measures c (.number x) ⟨toRat x, 1⟩
  | unit {u : UnitOfMeasure F} (h : u.IsScaled c) : Measures c (.unit u) ⟨u.scale, u.dimension⟩
  | quantity (x : F) {u : UnitOfMeasure F} (binding : Option (Binding F (Value F))) (h : u.IsScaled c) :
    Measures c (.quantity ⟨.number x, u, binding⟩) ⟨toRat x * u.scale, u.dimension⟩

end Value

/-- A number in a scaled unit comes to the number times the scale. -/
theorem UnitOfMeasure.measure?_eq {c : Catalog F} {u : UnitOfMeasure F} (h : u.IsScaled c) (x : F) :
    u.measure? x = some ⟨toRat x * u.scale, u.dimension⟩ := by
  obtain ⟨r, hratio, hr⟩ := h.ratio
  obtain ⟨y, hy, hamount⟩ := exists_toBase_number hratio hr x none
  unfold measure? toBaseNumber
  rw [hy, Composition.scale_eq_amount hratio, ← hamount]
  rfl

/-- The operands are the values that measure something by the scale of their unit, which is what they come to in the base unit. -/
theorem Value.measures_iff {c : Catalog F} {a : Value F} {μ : Measure} :
    a.Measures c μ ↔ a.IsOperand c ∧ a.measure? = some μ := by
  constructor
  · intro h
    cases h with
    | number x => exact ⟨trivial, rfl⟩
    | @unit u h =>
      refine ⟨h, (UnitOfMeasure.measure?_eq h 1).trans ?_⟩
      rw [toRat_one, one_mul]
    | quantity x binding h => exact ⟨⟨⟨x, rfl⟩, h⟩, UnitOfMeasure.measure?_eq h x⟩
  · rintro ⟨hoperand, hmeasure⟩
    cases a with
    | number x =>
      obtain rfl := Option.some.inj hmeasure
      exact .number x
    | unit u =>
      have hu := UnitOfMeasure.measure?_eq hoperand 1
      rw [toRat_one, one_mul] at hu
      obtain rfl := Option.some.inj (hu.symm.trans hmeasure)
      exact .unit hoperand
    | quantity q =>
      obtain ⟨payload, u, binding⟩ := q
      obtain ⟨⟨x, hpayload⟩, hu⟩ := hoperand
      dsimp only at hpayload hu
      subst hpayload
      obtain rfl := Option.some.inj ((UnitOfMeasure.measure?_eq hu x).symm.trans hmeasure)
      exact .quantity x binding hu
    | _ => exact hoperand.elim

/-- An operand measures something. -/
theorem Value.IsOperand.exists_measure? {c : Catalog F} {a : Value F} (h : a.IsOperand c) : ∃ μ, a.measure? = some μ := by
  cases a with
  | number x => exact ⟨_, rfl⟩
  | unit u => exact ⟨_, UnitOfMeasure.measure?_eq h 1⟩
  | quantity q =>
    obtain ⟨payload, u, binding⟩ := q
    obtain ⟨⟨x, hpayload⟩, hu⟩ := h
    dsimp only at hpayload hu
    subst hpayload
    exact ⟨_, UnitOfMeasure.measure?_eq hu x⟩
  | _ => exact h.elim

namespace Algebra

open Value (Measures)

variable {c : Catalog F} {a b v : Value F} {μ ν : Measure}

/-- A number in a scaled unit measures what it comes to in the base unit. -/
theorem measures_quantity {u : UnitOfMeasure F} {x : F} {binding : Option (Binding F (Value F))} (h : u.IsScaled c)
    (hvalue : toRat x * u.scale = μ.value) (hdimension : u.dimension = μ.dimension) :
    Measures c (.quantity ⟨.number x, u, binding⟩) μ := by
  obtain ⟨value, dimension⟩ := μ
  dsimp only at hvalue hdimension
  subst hvalue hdimension
  exact .quantity x binding h

/-! ## Composed units as results -/

section Composed

variable {composed : Except CompositionError (UnitOfMeasure F)}

/-- The unit that a composition gives, if it gives one, measures an amount. -/
def Composes (c : Catalog F) (composed : Except CompositionError (UnitOfMeasure F)) (μ : Measure) : Prop :=
  ∀ w, composed = .ok w → w.IsScaled c ∧ w.scale = μ.value ∧ w.dimension = μ.dimension

/-- The result is the unit that is composed. -/
theorem measures_composed (hcomposed : Composes c composed μ)
    (h : ((Outcome.ofComposition composed).bind fun w => .ok (.unit w)) = .ok v) : Measures c v μ := by
  obtain ⟨w, hw, h⟩ := Outcome.bind_eq_ok_iff.1 h
  obtain rfl := Except.ok.inj h
  obtain ⟨hscaled, hscale, hdimension⟩ := hcomposed w (Outcome.ofComposition_eq_ok_iff.1 hw)
  obtain ⟨value, dimension⟩ := μ
  dsimp only at hscale hdimension
  subst hscale hdimension
  exact .unit hscaled

/-- The result is a number in the unit that is composed. -/
theorem measures_inComposed (hcomposed : Composes c composed ν) (x : F) (hvalue : toRat x * ν.value = μ.value)
    (hdimension : ν.dimension = μ.dimension)
    (h : ((Outcome.ofComposition composed).bind fun w => .ok ((Value.number x).inUnit w)) = .ok v) :
    Measures c v μ := by
  obtain ⟨w, hw, h⟩ := Outcome.bind_eq_ok_iff.1 h
  obtain rfl := Except.ok.inj h
  obtain ⟨hscaled, hscale, hw⟩ := hcomposed w (Outcome.ofComposition_eq_ok_iff.1 hw)
  exact measures_quantity hscaled (by rw [hscale, hvalue]) (by rw [hw, hdimension])

variable {u w : UnitOfMeasure F}

/-- The product of two scaled units. -/
theorem composes_multiply (hu : u.IsScaled c) (hw : w.IsScaled c) :
    Composes c (Composition.multiply c [u, w]) ⟨u.scale * w.scale, u.dimension * w.dimension⟩ := by
  intro product h
  obtain ⟨_, hproduct, hscaled, hscale, hdimension⟩ := Composition.exists_multiply (c := c) [u, w]
    (List.cons_ne_nil _ _) fun x hx => by
      rcases List.mem_pair.1 hx with rfl | rfl
      · exact hu
      · exact hw
  obtain rfl := Except.ok.inj (hproduct.symm.trans h)
  rw [List.map_cons, List.map_cons, List.map_nil, List.prod_pair] at hscale hdimension
  exact ⟨hscaled, hscale, hdimension⟩

/-- The quotient of two scaled units. -/
theorem composes_divide (hu : u.IsScaled c) (hw : w.IsScaled c) :
    Composes c (Composition.divide c [u, w]) ⟨u.scale / w.scale, u.dimension / w.dimension⟩ := by
  intro quotient h
  obtain ⟨_, hquotient, hscaled, hscale, hdimension⟩ := Composition.exists_divide [w] hu fun x hx => by
    rw [List.mem_singleton.1 hx]
    exact hw
  obtain rfl := Except.ok.inj (hquotient.symm.trans h)
  rw [List.map_singleton, List.prod_singleton] at hscale hdimension
  exact ⟨hscaled, hscale, hdimension⟩

/-- The power of a scaled unit with an integer exponent. -/
theorem composes_power (hu : u.IsScaled c) {x : F} {n : ℤ} (hx : toRat x = n) :
    Composes c (Composition.power c u x) ⟨u.scale ^ n, u.dimension ^ n⟩ :=
  fun _ h => Composition.power_eq_ok hu hx h

/-- The reciprocal of a scaled unit. -/
theorem composes_reciprocal (hu : u.IsScaled c) :
    Composes c (Composition.power c u (-1)) ⟨u.scale⁻¹, u.dimension⁻¹⟩ := by
  have h : toRat (-1 : F) = ((-1 : ℤ) : ℚ) := by
    rw [toRat_neg, toRat_one, Int.cast_neg, Int.cast_one]
  have hpower := composes_power hu h
  rw [zpow_neg_one, zpow_neg_one] at hpower
  exact hpower

/-- The prefixed form of a scaled unit. -/
theorem composes_withPrefix (hu : u.IsScaled c) {base : ℕ} (hbase : base ≠ 0) (n : ℤ) :
    Composes c (Composition.withPrefix c u base n) ⟨u.scale * base ^ n, u.dimension⟩ :=
  fun _ h => Composition.withPrefix_eq_ok hu hbase h

end Composed

/-! ## Each operation -/

/-- The negative of an operand measures the negative. -/
theorem measures_neg (ha : Measures c a μ) (h : neg c a = .ok v) : Measures c v μ.neg := by
  cases ha with
  | number x =>
    obtain rfl := Except.ok.inj h
    unfold Measure.neg
    rw [← toRat_neg]
    exact .number (-x)
  | unit hu => nomatch h
  | quantity x binding hu =>
    obtain rfl := Except.ok.inj h
    refine measures_quantity hu ?_ rfl
    rw [toRat_neg, neg_mul]
    rfl

/-- The product of operands measures the product. -/
theorem measures_mul (ha : Measures c a μ) (hb : Measures c b ν) (h : mul c a b = .ok v) :
    Measures c v ⟨μ.value * ν.value, μ.dimension * ν.dimension⟩ := by
  cases ha with
  | number x =>
    cases hb with
    | number y =>
      obtain rfl := Except.ok.inj h
      rw [← toRat_mul]
      exact .number (x * y)
    | unit hw =>
      obtain rfl := Except.ok.inj h
      exact measures_quantity hw rfl (one_mul _).symm
    | quantity y binding hw =>
      obtain rfl := Except.ok.inj h
      refine measures_quantity hw ?_ (one_mul _).symm
      rw [toRat_mul, mul_assoc]
  | unit hu =>
    cases hb with
    | number y =>
      obtain rfl := Except.ok.inj h
      exact measures_quantity hu (mul_comm _ _) (mul_one _).symm
    | unit hw => exact measures_composed (composes_multiply hu hw) h
    | quantity y binding hw =>
      refine measures_inComposed (composes_multiply hu hw) y ?_ rfl h
      ring
  | quantity x binding hu =>
    cases hb with
    | number y =>
      obtain rfl := Except.ok.inj h
      refine measures_quantity hu ?_ (mul_one _).symm
      rw [toRat_mul]
      ring
    | unit hw =>
      refine measures_inComposed (composes_multiply hu hw) x ?_ rfl h
      ring
    | quantity y binding' hw =>
      refine measures_inComposed (composes_multiply hu hw) (x * y) ?_ rfl h
      rw [toRat_mul]
      ring

/-- The quotient of operands measures the quotient, unless the divisor measures zero. -/
theorem measures_div (ha : Measures c a μ) (hb : Measures c b ν) (hzero : ν.value ≠ 0) (h : div c a b = .ok v) :
    Measures c v ⟨μ.value / ν.value, μ.dimension / ν.dimension⟩ := by
  cases ha with
  | number x =>
    cases hb with
    | number y =>
      obtain rfl := Except.ok.inj h
      rw [← toRat_div _ _ hzero, div_one]
      exact .number (x / y)
    | unit hw => exact measures_inComposed (composes_reciprocal hw) x (div_eq_mul_inv _ _).symm (one_div _).symm h
    | quantity y binding hw =>
      refine measures_inComposed (composes_reciprocal hw) (x / y) ?_ (one_div _).symm h
      rw [toRat_div _ _ (left_ne_zero_of_mul hzero), ← div_eq_mul_inv, div_div]
  | unit hu =>
    cases hb with
    | number y =>
      obtain rfl := Except.ok.inj h
      refine measures_quantity hu ?_ (div_one _).symm
      rw [toRat_div _ _ hzero, toRat_one, one_div_mul_eq_div]
    | unit hw => exact measures_composed (composes_divide hu hw) h
    | quantity y binding hw =>
      refine measures_inComposed (composes_divide hu hw) (1 / y) ?_ rfl h
      rw [toRat_div _ _ (left_ne_zero_of_mul hzero), toRat_one, div_mul_div_comm, one_mul]
  | quantity x binding hu =>
    cases hb with
    | number y =>
      obtain rfl := Except.ok.inj h
      refine measures_quantity hu ?_ (div_one _).symm
      rw [toRat_div _ _ hzero, div_mul_eq_mul_div]
    | unit hw =>
      refine measures_inComposed (composes_divide hu hw) x ?_ rfl h
      rw [mul_div_assoc]
    | quantity y binding' hw =>
      refine measures_inComposed (composes_divide hu hw) (x / y) ?_ rfl h
      rw [toRat_div _ _ (left_ne_zero_of_mul hzero), div_mul_div_comm]

/-- The power of an operand with an integer exponent measures the power, unless zero is inverted. -/
theorem measures_pow (ha : Measures c a μ) (hb : Measures c b ν) (hinteger : ν.value.den = 1)
    (hzero : ν.value < 0 → μ.value ≠ 0) (h : pow c a b = .ok v) :
    Measures c v ⟨μ.value ^ ν.value.num, μ.dimension ^ ν.value.num⟩ := by
  cases hb with
  | number y =>
    have hy : toRat y = ((toRat y).num : ℚ) := ((Rat.den_eq_one_iff _).1 hinteger).symm
    have hneg : (toRat y).num < 0 → toRat y < 0 := Rat.num_neg.1
    cases ha with
    | number x =>
      obtain rfl := Except.ok.inj h
      rw [one_zpow, ← toRat_pow x y _ hy fun hn => hzero (hneg hn)]
      exact .number (Numeric.pow x y)
    | unit hu => exact measures_composed (composes_power hu hy) h
    | quantity x binding hu =>
      refine measures_inComposed (composes_power hu hy) (Numeric.pow x y) ?_ rfl h
      rw [toRat_pow x y _ hy fun hn => left_ne_zero_of_mul (hzero (hneg hn)), mul_zpow]
  | unit hw => cases ha <;> nomatch h
  | quantity y binding hw => cases ha <;> nomatch h

/-- The exponent of a prefix is the integer that it is given as. -/
theorem prefixExponent_eq_ok {op : BinaryOp} {x : F} {n exponent : ℤ} (hx : toRat x = n)
    (h : prefixExponent op x = .ok exponent) : exponent = n := by
  obtain ⟨i, hi, h⟩ := Outcome.bind_eq_ok_iff.1 h
  unfold toInteger at hi
  split at hi
  · obtain rfl := Except.ok.inj hi
    split at h
    · obtain rfl := Except.ok.inj h
      rw [truncate_eq, hx, roundTowardsZero_intCast]
    · nomatch h
  · nomatch hi

/-- An operand scaled by an integer power of a base measures that much more. -/
theorem measures_scale {op : BinaryOp} {base : ℕ} (hbase : base ≠ 0) (ha : Measures c a μ) (hb : Measures c b ν)
    (hinteger : ν.value.den = 1) (h : scale c op base a b = .ok v) :
    Measures c v ⟨μ.value * base ^ ν.value.num, μ.dimension⟩ := by
  cases hb with
  | number y =>
    have hy : toRat y = ((toRat y).num : ℚ) := ((Rat.den_eq_one_iff _).1 hinteger).symm
    have hbase' : toRat (Numeric.ofNat base : F) ≠ 0 := by
      rw [toRat_ofNat]
      exact_mod_cast hbase
    have hpow : toRat (Numeric.pow (Numeric.ofNat base : F) y) = (base : ℚ) ^ (toRat y).num := by
      rw [toRat_pow _ _ _ hy fun _ => hbase', toRat_ofNat]
    cases ha with
    | number x =>
      obtain rfl := Except.ok.inj h
      rw [← hpow, ← toRat_mul]
      exact .number _
    | unit hu =>
      obtain ⟨exponent, hexponent, h⟩ := Outcome.bind_eq_ok_iff.1 h
      obtain rfl := prefixExponent_eq_ok hy hexponent
      exact measures_composed (composes_withPrefix hu hbase _) h
    | quantity x binding hu =>
      obtain rfl := Except.ok.inj h
      refine measures_quantity hu ?_ rfl
      rw [toRat_mul, hpow]
      ring
  | unit hw => cases ha <;> nomatch h
  | quantity y binding hw => cases ha <;> nomatch h

/-- A number in one scaled unit is converted to another one of its dimension by both scales. -/
theorem exists_convertPayload_number {u w : UnitOfMeasure F} (hu : u.IsScaled c) (hw : w.IsScaled c)
    (hdimension : w.dimension = u.dimension) (y : F) :
    ∃ z, convertPayload c w none u none (.number y) = .ok (.number z) ∧ toRat z = toRat y * w.scale / u.scale := by
  obtain ⟨r, hratio, hr⟩ := hu.ratio
  obtain ⟨s, hratio', hs⟩ := hw.ratio
  obtain ⟨base, hbase, hbaseValue⟩ := UnitOfMeasure.exists_toBase_number hratio' hs y none
  obtain ⟨z, hz, hzValue⟩ := UnitOfMeasure.exists_fromBase_number hratio hr base none
  refine ⟨z, ?_, ?_⟩
  · have hcarry : w.dimension.carry? u.dimension (.number base) = some (.number base) := if_pos hdimension
    exact (convertPayload_eq_ok_iff ⟨.inr rfl, .number y, rfl, hbase⟩).2 ⟨.number base, .number z, hcarry, hz, rfl⟩
  · rw [hzValue, hbaseValue, Composition.scale_eq_amount hratio, Composition.scale_eq_amount hratio']

/-- A number is aligned to a scaled unit only from a unit of the same dimension, and as it is converted. -/
theorem align_eq_ok {x y : F} {u w : UnitOfMeasure F} {binding binding' : Option (Binding F (Value F))}
    (hu : u.IsScaled c) (hw : w.IsScaled c) (h : align c ⟨.number x, u, binding⟩ ⟨.number y, w, binding'⟩ = .ok v) :
    u.dimension = w.dimension ∧ ∃ z, v = .number z ∧ toRat z = toRat y * w.scale / u.scale := by
  unfold align at h
  rw [hu.check, hw.check] at h
  have halign : (if u.dimension.sameAs w.dimension then convertPayload c w none u none (.number y)
      else .error (dimensionMismatch c u w)) = .ok v := h
  by_cases hsame : u.dimension.sameAs w.dimension = true
  · have hdimension := Dimension.sameAs_iff.1 hsame
    obtain ⟨z, hz, hvalue⟩ := exists_convertPayload_number hu hw hdimension.symm y
    rw [if_pos hsame, hz] at halign
    exact ⟨hdimension, z, (Except.ok.inj halign).symm, hvalue⟩
  · rw [if_neg hsame] at halign
    nomatch halign

/-- The sum or the difference of operands measures the sum or the difference, and is taken of one dimension only. -/
theorem measures_additive {op : BinaryOp} {f : F → F → F} {g : ℚ → ℚ → ℚ}
    (hf : ∀ x y, toRat (f x y) = g (toRat x) (toRat y)) (hg : ∀ x y a, g x y * a = g (x * a) (y * a))
    (ha : Measures c a μ) (hb : Measures c b ν) (h : additive c op f a b = .ok v) :
    μ.dimension = ν.dimension ∧ Measures c v ⟨g μ.value ν.value, μ.dimension⟩ := by
  cases ha with
  | number x =>
    cases hb with
    | number y =>
      obtain rfl := Except.ok.inj h
      rw [← hf]
      exact ⟨rfl, .number (f x y)⟩
    | unit hw => nomatch h
    | quantity y binding hw => nomatch h
  | unit hu => cases hb <;> nomatch h
  | quantity x binding hu =>
    cases hb with
    | number y => nomatch h
    | unit hw => nomatch h
    | quantity y binding' hw =>
      obtain ⟨payload, halign, h⟩ := Outcome.bind_eq_ok_iff.1 h
      obtain ⟨hdimension, z, rfl, hz⟩ := align_eq_ok hu hw halign
      obtain rfl := Except.ok.inj h
      refine ⟨hdimension, measures_quantity hu ?_ rfl⟩
      rw [hf, hg, hz, div_mul_cancel₀ _ (Composition.scale_ne_zero hu)]

/-- An operation on operands measures the operation on what they measure. -/
theorem measures_binary {op : BinaryOp} (hop : op.isArithmetic = true) (ha : Measures c a μ) (hb : Measures c b ν)
    (hadmits : Measure.Admits op μ ν) (h : binary c op a b = .ok v) :
    ∃ ρ, Measure.binary? op μ ν = some ρ ∧ Measures c v ρ := by
  cases op with
  | add =>
    obtain ⟨hdimension, hv⟩ := measures_additive (g := fun x y => x + y) toRat_add (fun _ _ _ => add_mul _ _ _) ha hb h
    exact ⟨_, if_pos hdimension, hv⟩
  | sub =>
    obtain ⟨hdimension, hv⟩ := measures_additive (g := fun x y => x - y) toRat_sub (fun _ _ _ => sub_mul _ _ _) ha hb h
    exact ⟨_, if_pos hdimension, hv⟩
  | mul => exact ⟨_, rfl, measures_mul ha hb h⟩
  | div => exact ⟨_, rfl, measures_div ha hb hadmits h⟩
  | power => exact ⟨_, rfl, measures_pow ha hb hadmits.1 hadmits.2 h⟩
  | decimalScale => exact ⟨_, rfl, measures_scale (show 10 ≠ 0 by decide) ha hb hadmits h⟩
  | binaryScale => exact ⟨_, rfl, measures_scale (show 2 ≠ 0 by decide) ha hb hadmits h⟩
  | _ => nomatch hop

end Algebra

end QuantityCalculus
