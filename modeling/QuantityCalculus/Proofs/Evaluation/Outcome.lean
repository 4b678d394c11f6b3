import QuantityCalculus.Evaluation.Error

/-!
# Steps that succeed

When a computation that may fail succeeds, in terms of its steps.
-/

namespace QuantityCalculus.Outcome

variable {ε α β : Type}

/-- A step after a success goes on with its result. -/
@[simp] theorem ok_bind (x : α) (f : α → Except ε β) : (Except.ok x >>= f) = f x := rfl

/-- A step that cannot fail is a success. -/
@[simp] theorem pure_eq_ok (x : α) : (pure x : Except ε α) = .ok x := rfl

/-- One step after another succeeds if the first one does, and then the second one. -/
theorem bind_eq_ok_iff {r : Except ε α} {f : α → Except ε β} {y : β} :
    r >>= f = .ok y ↔ ∃ x, r = .ok x ∧ f x = .ok y := by
  cases r <;> simp [bind, Except.bind]

/-- A step that cannot fail succeeds with its result. -/
theorem pure_eq_ok_iff {x y : α} : (pure x : Except ε α) = .ok y ↔ x = y := by
  simp [pure, Except.pure]

/-- A function of a result is there if the result is. -/
theorem map_eq_ok_iff {r : Except ε α} {f : α → β} {y : β} : r.map f = .ok y ↔ ∃ x, r = .ok x ∧ f x = y := by
  cases r <;> simp [Except.map]

/-- A computation fails if it does not succeed. -/
theorem exists_eq_error_iff {r : Except ε α} : (∃ e, r = .error e) ↔ ¬∃ x, r = .ok x := by
  cases r <;> simp

/-- A computation that is found to fail fails with an error. -/
theorem toBool_eq_false_iff {r : Except ε α} : r.toBool = false ↔ ∃ e, r = .error e := by
  cases r <;> simp [Except.toBool]

/-- The value of one step after another is there if both steps have one. -/
theorem toOption_bind (r : Except ε α) (f : α → Except ε β) :
    (r >>= f).toOption = r.toOption.bind fun a => (f a).toOption := by
  cases r <;> rfl

/-- A function of the value is there if the value is. -/
theorem map_toOption_eq_some_iff {r : Except ε α} {f : α → β} {y : β} : r.toOption.map f = some y ↔ ∃ x, r = .ok x ∧ f x = y := by
  cases r <;> simp [Except.toOption]

/-- Another error is no success. -/
theorem mapError_eq_ok_iff {ε' : Type} {f : ε → ε'} {r : Except ε α} {x : α} : r.mapError f = .ok x ↔ r = .ok x := by
  cases r with
  | error e => constructor <;> (intro h; cases h)
  | ok y => constructor <;> (intro h; cases h; rfl)

/-- A composition that is part of an evaluation succeeds with the composition. -/
theorem ofComposition_eq_ok_iff {r : Except CompositionError α} {x : α} : ofComposition r = .ok x ↔ r = .ok x :=
  mapError_eq_ok_iff

/-- A conversion that is part of an evaluation succeeds with the conversion. -/
theorem ofConversion_eq_ok_iff {r : Except ConversionError α} {x : α} : ofConversion r = .ok x ↔ r = .ok x :=
  mapError_eq_ok_iff

end QuantityCalculus.Outcome
