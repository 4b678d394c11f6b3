import QuantityCalculus.Catalog.Standard
import QuantityCalculus.Proofs.Measure.Scale

/-!
# Instructions convert both ways

In exact arithmetic, undoing steps in the reverse order undoes what doing them in order does (`Step.undo_run`, `Step.run_undo`), as
long as no step multiplies or divides by zero. The scale that instructions report is the conversion that their steps are
(`Instructions.inverse_and_as_reported`): a scale is reported if every step is one of scaling, and then a unit that states
the scale converts as one that states the steps.
-/

namespace QuantityCalculus

open ExactNumeric

/-! ## Words of instructions -/

namespace Step

variable {F : Type}

/-- The sign that a step is written with. -/
def sign : Step F → Char
  | .mul _ => '*'
  | .div _ => '/'
  | .add _ => '+'
  | .sub _ => '-'

/-- The number that a step is written with. -/
def operand : Step F → F
  | .mul a | .div a | .add a | .sub a => a

/-- The step does not multiply or divide by zero. -/
def IsReversible [Zero F] (step : Step F) : Prop := step.sign = '*' ∨ step.sign = '/' → step.operand ≠ 0

variable [Numeric F]

/-- A word is a step if it is the sign of the step and a numeral of its operand. -/
theorem read?_eq_some {word : List Char} {step : Step F} (h : read? word = some step) :
    ∃ numeral, word = step.sign :: numeral ∧ Numeric.read numeral = some step.operand := by
  cases word with
  | nil => nomatch h
  | cons sign numeral =>
    obtain ⟨a, ha, h⟩ := Option.bind_eq_some_iff.1 h
    split at h
    · obtain rfl := Option.some.inj h
      exact ⟨numeral, rfl, ha⟩
    · obtain rfl := Option.some.inj h
      exact ⟨numeral, rfl, ha⟩
    · obtain rfl := Option.some.inj h
      exact ⟨numeral, rfl, ha⟩
    · obtain rfl := Option.some.inj h
      exact ⟨numeral, rfl, ha⟩
    · nomatch h

end Step

/-- The words of instructions that are read are the steps one by one. -/
theorem Instructions.forall₂_of_readSteps {F : Type} [Numeric F] {source : String} {words : List (List Char)} {steps : List (Step F)}
    (h : readSteps source words = .ok steps) : List.Forall₂ (fun word step => Step.read? word = some step) words steps := by
  induction words generalizing steps with
  | nil =>
    obtain rfl := Except.ok.inj h
    exact .nil
  | cons word words ih =>
    rw [readSteps] at h
    cases hword : Step.read? (F := F) word with
    | none =>
      rw [hword] at h
      nomatch h
    | some step =>
      rw [hword] at h
      dsimp only at h
      cases hwords : readSteps (F := F) source words with
      | error e =>
        rw [hwords] at h
        nomatch h
      | ok rest =>
        rw [hwords] at h
        obtain rfl := Except.ok.inj h
        exact .cons hword (ih hwords)

/-! ## Steps and their scale -/

/-- An exact number that is not zero is no rational zero. -/
theorem ExactNumeric.toRat_ne_zero {F : Type} [ExactNumeric F] {x : F} (h : x ≠ 0) : toRat x ≠ 0 := by
  intro hzero
  exact h (toRat_injective (hzero.trans toRat_zero.symm))

namespace Step

section

variable {F : Type} [Numeric F]

/-- A step passes a scale on if it is one of scaling. -/
theorem isSome_scale?_iff {step : Step F} {r : Ratio F} :
    (step.scale? r).isSome = true ↔ step.sign ≠ '+' ∧ step.sign ≠ '-' := by
  cases step <;> simp [scale?, sign]

/-- Steps pass a scale on if each of them is one of scaling. -/
theorem isSome_foldlM_scale?_iff {steps : List (Step F)} {r : Ratio F} :
    (steps.foldlM (fun r (step : Step F) => step.scale? r) r).isSome = true ↔
      ∀ step ∈ steps, step.sign ≠ '+' ∧ step.sign ≠ '-' := by
  induction steps generalizing r with
  | nil => simp
  | cons step steps ih =>
    rw [List.foldlM_cons, List.forall_mem_cons, ← isSome_scale?_iff (r := r)]
    cases hstep : step.scale? r with
    | none => simp
    | some r' => simpa using ih

end

variable {F : Type} [ExactNumeric F]

/-- Undoing a step after doing it changes nothing. -/
theorem undo_apply {step : Step F} (h : step.IsReversible) (x : F) : step.undo (step.apply x) = x := by
  apply toRat_injective
  cases step with
  | mul a =>
    have ha : toRat a ≠ 0 := toRat_ne_zero (h (.inl rfl))
    rw [apply, undo, toRat_div _ _ ha, toRat_mul]
    exact mul_div_cancel_right₀ _ ha
  | div a =>
    have ha : toRat a ≠ 0 := toRat_ne_zero (h (.inr rfl))
    rw [apply, undo, toRat_mul, toRat_div _ _ ha]
    exact div_mul_cancel₀ _ ha
  | add a => simp [apply, undo]
  | sub a => simp [apply, undo]

/-- Doing a step after undoing it changes nothing. -/
theorem apply_undo {step : Step F} (h : step.IsReversible) (x : F) : step.apply (step.undo x) = x := by
  apply toRat_injective
  cases step with
  | mul a =>
    have ha : toRat a ≠ 0 := toRat_ne_zero (h (.inl rfl))
    rw [apply, undo, toRat_mul, toRat_div _ _ ha]
    exact div_mul_cancel₀ _ ha
  | div a =>
    have ha : toRat a ≠ 0 := toRat_ne_zero (h (.inr rfl))
    rw [apply, undo, toRat_div _ _ ha, toRat_mul]
    exact mul_div_cancel_right₀ _ ha
  | add a => simp [apply, undo]
  | sub a => simp [apply, undo]

/-- Undoing steps in the reverse order after doing them changes nothing. -/
theorem undo_run {steps : List (Step F)} (h : ∀ step ∈ steps, step.IsReversible) (x : F) :
    steps.reverse.foldl (fun x step => step.undo x) (steps.foldl (fun x step => step.apply x) x) = x := by
  rw [List.foldl_reverse]
  induction steps generalizing x with
  | nil => rfl
  | cons step steps ih =>
    rw [List.foldl_cons, List.foldr_cons, ih (fun step' hstep' => h step' (by simp [hstep']))]
    exact undo_apply (h step (by simp)) x

/-- Doing steps after undoing them in the reverse order changes nothing. -/
theorem run_undo {steps : List (Step F)} (h : ∀ step ∈ steps, step.IsReversible) (x : F) :
    steps.foldl (fun x step => step.apply x) (steps.reverse.foldl (fun x step => step.undo x) x) = x := by
  rw [List.foldl_reverse]
  induction steps with
  | nil => rfl
  | cons step steps ih =>
    rw [List.foldl_cons, List.foldr_cons, apply_undo (h step (by simp))]
    exact ih fun step' hstep' => h step' (by simp [hstep'])

/-- The scale that reversible steps amount to has no zero. -/
theorem isNonzero_of_foldlM {steps : List (Step F)} (h : ∀ step ∈ steps, step.IsReversible) {r r' : Ratio F} (hr : r.IsNonzero)
    (hr' : steps.foldlM (fun r step => step.scale? r) r = some r') : r'.IsNonzero := by
  induction steps generalizing r with
  | nil =>
    obtain rfl := Option.some.inj hr'
    exact hr
  | cons step steps ih =>
    rw [List.foldlM_cons] at hr'
    obtain ⟨r₁, hstep, hr'⟩ := Option.bind_eq_some_iff.1 hr'
    refine ih (fun step' hstep' => h step' (by simp [hstep'])) ?_ hr'
    have hreversible := h step (by simp)
    cases step with
    | mul a =>
      obtain rfl := Option.some.inj hstep
      refine ⟨?_, hr.2⟩
      rw [toRat_mul]
      exact mul_ne_zero hr.1 (toRat_ne_zero (hreversible (.inl rfl)))
    | div a =>
      obtain rfl := Option.some.inj hstep
      refine ⟨hr.1, ?_⟩
      rw [toRat_mul]
      exact mul_ne_zero hr.2 (toRat_ne_zero (hreversible (.inr rfl)))
    | add a => nomatch hstep
    | sub a => nomatch hstep

/-- Steps with a scale convert as the scale does. -/
theorem transform_eq_ofNumeric {steps : List (Step F)} {r : Ratio F} (h : ratio? steps = some r) (hr : r.IsNonzero) :
    transform steps = .ofNumeric r.toBase r.fromBase := by
  have htoBase : (fun x => steps.foldl (fun x step => step.apply x) x) = r.toBase := by
    funext x
    apply toRat_injective
    rw [toRat_foldl_apply h hr, Ratio.toRat_toBase hr]
  have hfromBase : (fun x => steps.reverse.foldl (fun x step => step.undo x) x) = r.fromBase := by
    funext x
    apply toRat_injective
    rw [toRat_foldl_undo h hr, Ratio.toRat_fromBase hr]
  unfold transform
  rw [htoBase, hfromBase]

end Step

/-! ## Units with instructions -/

variable {F : Type} [ExactNumeric F]

namespace Ratio

variable {r : Ratio F}

/-- What one of a unit is in the base unit is the quotient of its scale. -/
theorem toRat_value (h : r.IsNonzero) : toRat r.value = r.amount := toRat_div _ _ h.2

/-- One of a unit whose scale has no zero is not nothing. -/
theorem IsNonzero.value_ne_zero (h : r.IsNonzero) : r.value ≠ 0 := by
  intro hzero
  have hamount := toRat_value h
  rw [hzero, toRat_zero] at hamount
  exact h.amount_ne_zero hamount.symm

/-- A scale multiplies by what one of the unit is. -/
theorem toBase_eq_mul_value (h : r.IsNonzero) (x : F) : r.toBase x = x * r.value := by
  apply toRat_injective
  rw [toRat_toBase h, toRat_mul, toRat_value h]

/-- A scale divides by what one of the unit is on the way back. -/
theorem fromBase_eq_div_value (h : r.IsNonzero) (x : F) : r.fromBase x = x / r.value := by
  have hvalue : toRat r.value ≠ 0 := toRat_ne_zero h.value_ne_zero
  apply toRat_injective
  rw [toRat_fromBase h, toRat_div _ _ hvalue, toRat_value h]

end Ratio

/-- A unit with instructions converts by their steps and has the scale that the steps amount to. -/
theorem UnitOfMeasure.converters_of_instructions {u : UnitOfMeasure F} {i : Instructions} {steps : List (Step F)}
    (hu : u.conversion = .instructions i) (hsteps : i.steps = .ok steps) :
    u.toBase = (Step.transform steps).toBase ∧ u.fromBase = (Step.transform steps).fromBase ∧ u.ratio? = Step.ratio? steps := by
  refine ⟨?_, ?_, ?_⟩
  · funext x dep
    unfold UnitOfMeasure.toBase
    simp only [hu, hsteps]
    rfl
  · funext x dep
    unfold UnitOfMeasure.fromBase
    simp only [hu, hsteps]
    rfl
  · unfold UnitOfMeasure.ratio?
    simp only [hu, hsteps]
    rfl

namespace Instructions

/-- Instructions have a scale if no word of them starts with a plus or a minus. -/
theorem isSome_ratio?_iff {i : Instructions} {steps : List (Step F)} (hsteps : i.steps = .ok steps) :
    (Step.ratio? steps).isSome = true ↔ ∀ word ∈ Text.words i.source.toList, word.head? ≠ some '+' ∧ word.head? ≠ some '-' := by
  unfold Step.ratio?
  rw [Step.isSome_foldlM_scale?_iff]
  -- A word starts with the sign of its step, so what is said of all words is said of all steps.
  have hwords := forall₂_of_readSteps hsteps
  generalize Text.words i.source.toList = words at hwords
  clear hsteps
  induction hwords with
  | nil => simp
  | cons hword hwords ih =>
    obtain ⟨numeral, rfl, -⟩ := Step.read?_eq_some hword
    rw [List.forall_mem_cons, List.forall_mem_cons]
    refine and_congr ?_ ih
    simp

/-- Instructions that do not multiply or divide by zero convert both ways without a loss, and as the scale says that they report. They
report one exactly when no word of them starts with a plus or a minus. -/
theorem inverse_and_as_reported {i : Instructions} {steps : List (Step F)} (hsteps : i.steps = .ok steps)
    (hreversible : ∀ step ∈ steps, step.IsReversible) {u : UnitOfMeasure F} (hu : u.conversion = .instructions i) :
    (∀ x dep, ∃ y, u.toBase (.number x) dep = .ok (.number y) ∧ u.fromBase (.number y) dep = .ok (.number x)) ∧
    (∀ y dep, ∃ x, u.fromBase (.number y) dep = .ok (.number x) ∧ u.toBase (.number x) dep = .ok (.number y)) ∧
    (u.ratio?.isSome = true ↔ ∀ word ∈ Text.words i.source.toList, word.head? ≠ some '+' ∧ word.head? ≠ some '-') ∧
    ∀ r, u.ratio? = some r → r.value ≠ 0 ∧
      (∀ x dep, u.toBase (.number x) dep = .ok (.number (x * r.value)) ∧
        u.fromBase (.number x) dep = .ok (.number (x / r.value))) ∧
      u.toBase = (u.withConversion (.ratio r)).toBase ∧ u.fromBase = (u.withConversion (.ratio r)).fromBase := by
  obtain ⟨htoBase, hfromBase, hratio⟩ := UnitOfMeasure.converters_of_instructions hu hsteps
  rw [htoBase, hfromBase, hratio]
  refine ⟨fun x dep => ⟨_, rfl, ?_⟩, fun y dep => ⟨_, rfl, ?_⟩, isSome_ratio?_iff hsteps, fun r hr => ?_⟩
  · exact congrArg (Except.ok ∘ Scalar.number) (Step.undo_run hreversible x)
  · exact congrArg (Except.ok ∘ Scalar.number) (Step.run_undo hreversible y)
  · have hnonzero : r.IsNonzero := Step.isNonzero_of_foldlM hreversible Ratio.isNonzero_one hr
    rw [Step.transform_eq_ofNumeric hr hnonzero]
    refine ⟨hnonzero.value_ne_zero, fun x dep => ⟨?_, ?_⟩, rfl, rfl⟩
    · exact congrArg (Except.ok ∘ Scalar.number) (Ratio.toBase_eq_mul_value hnonzero x)
    · exact congrArg (Except.ok ∘ Scalar.number) (Ratio.fromBase_eq_div_value hnonzero x)

/-- Degrees Fahrenheit convert both ways and have no scale, and degrees Rankine are five ninths of a kelvin. -/
theorem fahrenheit_and_rankine :
    let fahrenheit : UnitOfMeasure ℚ :=
      Catalog.Standard.temperature "°F" "degree Fahrenheit" "degrees Fahrenheit" "-32 *5 /9 +273.15"
    let rankine : UnitOfMeasure ℚ := Catalog.Standard.temperature "°R" "degree Rankine" "degrees Rankine" "*5 /9"
    (fahrenheit.ratio?.isSome = false ∧
      ∀ x dep, ∃ y, fahrenheit.toBase (.number x) dep = .ok (.number y) ∧ fahrenheit.fromBase (.number y) dep = .ok (.number x)) ∧
      ∀ x dep, rankine.toBase (.number x) dep = .ok (.number (x * (5 / 9))) ∧
        rankine.fromBase (.number x) dep = .ok (.number (x / (5 / 9))) := by
  intro fahrenheit rankine
  constructor
  · have hsteps : (⟨"-32 *5 /9 +273.15"⟩ : Instructions).steps (F := ℚ) =
        .ok [.sub (32 * 10 ^ (0 : ℤ)), .mul (5 * 10 ^ (0 : ℤ)), .div (9 * 10 ^ (0 : ℤ)), .add (27315 * 10 ^ (-2 : ℤ))] := rfl
    have h := inverse_and_as_reported hsteps (by simp [Step.IsReversible, Step.sign, Step.operand]) (u := fahrenheit) rfl
    exact ⟨rfl, h.1⟩
  · have hsteps : (⟨"*5 /9"⟩ : Instructions).steps (F := ℚ) = .ok [.mul (5 * 10 ^ (0 : ℤ)), .div (9 * 10 ^ (0 : ℤ))] := rfl
    have h := inverse_and_as_reported hsteps (by simp [Step.IsReversible, Step.sign, Step.operand]) (u := rankine) rfl
    have hratio : rankine.ratio? = some ⟨1 * (5 * 10 ^ (0 : ℤ)), 1 * (9 * 10 ^ (0 : ℤ))⟩ := rfl
    have hvalue : (⟨1 * (5 * 10 ^ (0 : ℤ)), 1 * (9 * 10 ^ (0 : ℤ))⟩ : Ratio ℚ).value = 5 / 9 := by simp [Ratio.value]
    rw [← hvalue]
    exact (h.2.2.2 _ hratio).2.1

end Instructions

end QuantityCalculus
