import Mathlib.Data.List.Forall2
import QuantityCalculus.Builtin.Calls
import QuantityCalculus.Proofs.Evaluation.Outcome

/-!
# Arguments of built-in functions

A built-in function that accepts the number of its arguments does what it is for, and arguments that are integers are read as these.
-/

namespace QuantityCalculus.Builtin

variable {F : Type} [Numeric F] {c : Catalog F}

/-- A built-in function is called with as many arguments as it accepts. -/
theorem call_ofBuiltin {b : Builtin} {args : List (Value F)} (h : b.arity.accepts args.length = true) :
    (FunctionValue.ofBuiltin b).call c args = b.apply c args := by
  change ((if b.arity.accepts args.length then .ok () else .error _ : Outcome Unit) >>= fun _ => b.apply c args) = _
  rw [if_pos h]
  rfl

/-- A built-in function of several values is called with one argument or more. -/
theorem call_of_variadic {b : Builtin} (h : b.arity = .variadic) {args : List (Value F)} (hargs : args ≠ []) :
    (FunctionValue.ofBuiltin b).call c args = b.apply c args := by
  obtain ⟨a, args, rfl⟩ := List.exists_cons_of_ne_nil hargs
  exact call_ofBuiltin (by simp [h, Arity.accepts, Arity.variadic])

/-- Numbers that are integers are read as these. -/
theorem mapM_integerArgument {name : String} {xs : List F} {is : List Int}
    (h : List.Forall₂ (fun x i => Algebra.toInteger name x = .ok i) xs is) :
    (xs.map Value.number).mapM (integerArgument c name) = .ok is := by
  induction h with
  | nil => rfl
  | cons hx _ ih =>
    rw [List.map_cons, List.mapM_cons, ih, integerArgument, hx]
    rfl

end QuantityCalculus.Builtin
