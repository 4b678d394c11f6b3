import QuantityCalculus.Proofs.Numeric.Exact
import QuantityCalculus.UnitOfMeasure

/-!
# Scales of units

In exact arithmetic, a unit with a scale multiplies by that scale towards the base unit and divides by it on the way back
(`UnitOfMeasure.exists_toBase_number`, `UnitOfMeasure.exists_fromBase_number`), whichever way the unit states the scale. The scale
that is reported for instructions is the one that their steps amount to.
-/

namespace QuantityCalculus

open ExactNumeric

variable {F : Type} [ExactNumeric F]

namespace Ratio

/-- Neither part of the scale is zero. -/
def IsNonzero (r : Ratio F) : Prop := toRat r.multiplier ≠ 0 ∧ toRat r.divisor ≠ 0

/-- The amount of the base unit that one of the unit is. -/
def amount (r : Ratio F) : ℚ := toRat r.multiplier / toRat r.divisor

/-- A scale without a zero is no scale by zero. -/
theorem IsNonzero.amount_ne_zero {r : Ratio F} (h : r.IsNonzero) : r.amount ≠ 0 := div_ne_zero h.1 h.2

/-- The scale of a base unit has no zero. -/
theorem isNonzero_one : (one : Ratio F).IsNonzero := by
  unfold IsNonzero one
  rw [toRat_one]
  exact ⟨one_ne_zero, one_ne_zero⟩

/-- One of a base unit is one. -/
theorem amount_one : (one : Ratio F).amount = 1 := by
  unfold amount one
  rw [toRat_one, div_one]

/-- A scale multiplies towards the base unit. -/
theorem toRat_toBase {r : Ratio F} (h : r.IsNonzero) (x : F) : toRat (r.toBase x) = toRat x * r.amount := by
  unfold toBase amount
  rw [toRat_div _ _ h.2, toRat_mul, mul_div_assoc]

/-- A scale divides on the way back. -/
theorem toRat_fromBase {r : Ratio F} (h : r.IsNonzero) (x : F) : toRat (r.fromBase x) = toRat x / r.amount := by
  unfold fromBase amount
  rw [toRat_div _ _ h.1, toRat_mul, div_div_eq_mul_div]

end Ratio

/-! ## Steps -/

namespace Step

/-- A step that a scale without a zero comes from multiplies by a factor, and dividing by the factor undoes it. -/
theorem exists_factor {step : Step F} {r r' : Ratio F} (h : step.scale? r = some r') (hr' : r'.IsNonzero) :
    r.IsNonzero ∧ ∃ factor : ℚ, factor ≠ 0 ∧ r'.amount = r.amount * factor ∧
      ∀ x, toRat (step.apply x) = toRat x * factor ∧ toRat (step.undo x) = toRat x / factor := by
  cases step with
  | mul a =>
    obtain rfl := Option.some.inj h
    obtain ⟨hmultiplier, hdivisor⟩ := hr'
    rw [toRat_mul] at hmultiplier
    obtain ⟨hmultiplier, ha⟩ := mul_ne_zero_iff.1 hmultiplier
    refine ⟨⟨hmultiplier, hdivisor⟩, toRat a, ha, ?_, fun x => ⟨toRat_mul _ _, toRat_div _ _ ha⟩⟩
    unfold Ratio.amount
    rw [toRat_mul, div_mul_eq_mul_div]
  | div a =>
    obtain rfl := Option.some.inj h
    obtain ⟨hmultiplier, hdivisor⟩ := hr'
    rw [toRat_mul] at hdivisor
    obtain ⟨hdivisor, ha⟩ := mul_ne_zero_iff.1 hdivisor
    refine ⟨⟨hmultiplier, hdivisor⟩, (toRat a)⁻¹, inv_ne_zero ha, ?_, fun x => ⟨?_, ?_⟩⟩
    · unfold Ratio.amount
      rw [toRat_mul, ← div_div, ← div_eq_mul_inv]
    · rw [← div_eq_mul_inv]
      exact toRat_div _ _ ha
    · rw [div_inv_eq_mul]
      exact toRat_mul _ _
  | add a => nomatch h
  | sub a => nomatch h

/-- Steps that a scale without a zero comes from amount to what they add to the scale before, and back. -/
theorem toRat_foldl {steps : List (Step F)} {r r' : Ratio F} (h : steps.foldlM (fun r step => step.scale? r) r = some r')
    (hr' : r'.IsNonzero) (x : F) :
    r.IsNonzero ∧
      toRat (steps.foldl (fun x step => step.apply x) x) * r.amount = toRat x * r'.amount ∧
      toRat (steps.foldr (fun step x => step.undo x) x) * r'.amount = toRat x * r.amount := by
  induction steps generalizing r x with
  | nil =>
    obtain rfl := Option.some.inj h
    exact ⟨hr', rfl, rfl⟩
  | cons step steps ih =>
    rw [List.foldlM_cons] at h
    obtain ⟨r₁, hstep, h⟩ := Option.bind_eq_some_iff.1 h
    obtain ⟨hr₁, happly, -⟩ := ih h (step.apply x)
    obtain ⟨-, -, hundo⟩ := ih h x
    obtain ⟨hr, factor, hfactor, hamount, hx⟩ := exists_factor hstep hr₁
    refine ⟨hr, ?_, ?_⟩
    · rw [List.foldl_cons]
      rw [hamount, (hx x).1] at happly
      refine mul_right_cancel₀ hfactor ?_
      rw [mul_assoc, happly]
      ring
    · rw [List.foldr_cons, (hx _).2, div_mul_eq_mul_div, hundo, hamount, ← mul_assoc, mul_div_cancel_right₀ _ hfactor]

/-- Steps with a scale multiply by it towards the base unit. -/
theorem toRat_foldl_apply {steps : List (Step F)} {r : Ratio F} (h : ratio? steps = some r) (hr : r.IsNonzero) (x : F) :
    toRat (steps.foldl (fun x step => step.apply x) x) = toRat x * r.amount := by
  obtain ⟨-, happly, -⟩ := toRat_foldl h hr x
  rw [Ratio.amount_one, mul_one] at happly
  exact happly

/-- Steps with a scale divide by it when they are undone in the reverse order. -/
theorem toRat_foldl_undo {steps : List (Step F)} {r : Ratio F} (h : ratio? steps = some r) (hr : r.IsNonzero) (x : F) :
    toRat (steps.reverse.foldl (fun x step => step.undo x) x) = toRat x / r.amount := by
  obtain ⟨-, -, hundo⟩ := toRat_foldl h hr x
  rw [Ratio.amount_one, mul_one] at hundo
  rw [List.foldl_reverse, eq_div_iff hr.amount_ne_zero]
  exact hundo

end Step

/-! ## Units -/

namespace UnitOfMeasure

/-- The scale of a unit as a rational, zero if there is none. -/
def scale (u : UnitOfMeasure F) : ℚ := (u.ratio?.map Ratio.amount).getD 0

/-- A unit with a scale multiplies by it towards the base unit. -/
theorem exists_toBase_number {u : UnitOfMeasure F} {r : Ratio F} (h : u.ratio? = some r) (hr : r.IsNonzero) (x : F)
    (dep : Option (Scalar F)) :
    ∃ y, u.toBase (.number x) dep = .ok (.number y) ∧ toRat y = toRat x * r.amount := by
  unfold ratio? at h
  unfold toBase
  split at h
  · obtain rfl := Option.some.inj h
    rw [Ratio.amount_one, mul_one]
    exact ⟨x, rfl, rfl⟩
  · obtain rfl := Option.some.inj h
    exact ⟨_, rfl, Ratio.toRat_toBase hr x⟩
  · rename_i i _
    cases hsteps : i.steps (F := F) with
    | error e =>
      rw [hsteps] at h
      nomatch h
    | ok steps =>
      rw [hsteps] at h
      exact ⟨_, rfl, Step.toRat_foldl_apply h hr x⟩
  · nomatch h

/-- A unit with a scale divides by it on the way back. -/
theorem exists_fromBase_number {u : UnitOfMeasure F} {r : Ratio F} (h : u.ratio? = some r) (hr : r.IsNonzero) (x : F)
    (dep : Option (Scalar F)) :
    ∃ y, u.fromBase (.number x) dep = .ok (.number y) ∧ toRat y = toRat x / r.amount := by
  unfold ratio? at h
  unfold fromBase
  split at h
  · obtain rfl := Option.some.inj h
    rw [Ratio.amount_one, div_one]
    exact ⟨x, rfl, rfl⟩
  · obtain rfl := Option.some.inj h
    exact ⟨_, rfl, Ratio.toRat_fromBase hr x⟩
  · rename_i i _
    cases hsteps : i.steps (F := F) with
    | error e =>
      rw [hsteps] at h
      nomatch h
    | ok steps =>
      rw [hsteps] at h
      exact ⟨_, rfl, Step.toRat_foldl_undo h hr x⟩
  · nomatch h

end UnitOfMeasure

end QuantityCalculus
