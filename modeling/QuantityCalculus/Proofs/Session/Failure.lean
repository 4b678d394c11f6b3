import QuantityCalculus.Numeric.Binary64
import QuantityCalculus.Proofs.Evaluation.Assignments
import QuantityCalculus.Proofs.Evaluation.Outcome
import QuantityCalculus.Session

/-!
# Statements that fail

What a statement that fails leaves behind. If it cannot be read, the session is as it was. If its evaluation fails, the assignments before
the error have been carried out, and they stay (`Session.failed_run_keeps_unassigned`): a statement that fails can assign a variable
(`Session.failed_sum_assigns`).
-/

namespace QuantityCalculus

variable {F : Type}

namespace Expression

/-- The assignments in an expression without the one that the whole expression is. -/
def nestedAssignments : Expression F → List (String × Expression F)
  | .assign _ value => value.assignments
  | t => t.assignments

/-- The nested assignments come first. -/
theorem nestedAssignments_prefix (t : Expression F) : t.nestedAssignments <+: t.assignments := by
  cases t with
  | assign name value => exact List.prefix_append ..
  | _ => exact List.prefix_rfl

end Expression

variable [Numeric F]

namespace Evaluator

variable {e : Evaluator F}

/-- A variable that assignments were carried out for has the value of one of them. -/
theorem Performs.exists_find? {ctx ctx' : Context F} {done : List (String × Expression F)} (h : e.Performs ctx done ctx')
    {x : String} (hx : x ∈ done.map Prod.fst) : ∃ value a ctx₀ ctx₁, (x, value) ∈ done ∧
      (e.evaluate value).run ctx₀ = (.ok a, ctx₁) ∧ ctx'.find? x = some (ctx₁.assigned x a) := by
  induction h with
  | none => nomatch hx
  | @assign done ctx₀ ctx₁ name value a _ hvalue _ _ ih =>
    by_cases hname : x = name
    · subst hname
      exact ⟨value, a, ctx₀, ctx₁, by simp, hvalue, Context.find?_set_self ..⟩
    · have hearlier : x ∈ (done ++ value.assignments).map Prod.fst := by simpa [hname] using hx
      obtain ⟨value', a', ctx₀', ctx₁', hmem, hvalue', hfind⟩ := ih hearlier
      refine ⟨value', a', ctx₀', ctx₁', ?_, hvalue', ?_⟩
      · rw [← List.append_assoc]
        exact List.mem_append_left _ hmem
      · rw [Context.find?_set_of_ne hname]
        exact hfind

/-- An evaluation that fails has carried out the first of its assignments, but never one that is the whole expression. -/
theorem exists_performs_of_error {t : Expression F} {ctx : Context F} {cause : EvaluationError}
    (h : ((e.evaluate t).run ctx).1 = .error cause) : ∃ completed, completed <+: t.nestedAssignments ∧
      e.Performs ctx completed ((e.evaluate t).run ctx).2 := by
  have hnone : e.Performs ctx [] ctx := .none
  have hpart (t : Expression F) : ∃ completed, completed <+: t.assignments ∧ e.Performs ctx completed ((e.evaluate t).run ctx).2 := by
    obtain ⟨completed, hcompleted, hperforms, -⟩ := (confined_evaluate t).performs hnone
    exact ⟨completed, hcompleted, hperforms⟩
  cases t with
  | assign name value =>
    rw [evaluate, Evaluation.run_bind] at h ⊢
    have hvalue := hpart value
    cases hrun : (e.evaluate value).run ctx with
    | mk outcome ctx₁ =>
      rw [hrun] at h hvalue
      cases outcome with
      | error cause => exact hvalue
      | ok a => cases h
  | _ => exact hpart _

end Evaluator

namespace Session

/-- A text that is not read as an expression leaves the session as it is. -/
theorem run_of_not_read {s : Session F} {line : String} {cause : StatementError F} (h : readStatement line = .error cause) :
    s.run line = (.error cause, s) := by
  unfold run
  rw [h]

/-- A text that is read as an expression is evaluated in the variables of the session. -/
theorem run_of_read {s : Session F} {line : String} {t : Expression F} (h : readStatement line = .ok t) :
    s.run line = (((s.evaluator.evaluate t).run s.context).1.mapError .evaluation,
      { s with context := ((s.evaluator.evaluate t).run s.context).2 }) := by
  unfold run
  rw [h]
  rfl

/-- A statement that fails changes no variables but those that it has assigned before the error. A text that is not read changes nothing. Of
an expression, the first nested assignments in the order of evaluation have been carried out: every other variable is as it was, and
each of theirs has the value that one of them gave it. -/
theorem failed_run_keeps_unassigned (s : Session F) (line : String) (cause : StatementError F)
    (h : (s.run line).1 = .error cause) :
    (∀ cause', (readStatement line : Except (StatementError F) (Expression F)) = .error cause' → (s.run line).2 = s) ∧
    ∀ t : Expression F, readStatement line = .ok t → ∃ completed, completed <+: t.nestedAssignments ∧
      s.evaluator.Performs s.context completed (s.run line).2.context ∧
      (∀ x, x ∉ completed.map Prod.fst → (s.run line).2.context.find? x = s.context.find? x) ∧
      ∀ x, x ∈ completed.map Prod.fst → ∃ value a ctx₀ ctx₁, (x, value) ∈ completed ∧
        (s.evaluator.evaluate value).run ctx₀ = (.ok a, ctx₁) ∧
        (s.run line).2.context.find? x = some (ctx₁.assigned x a) := by
  refine ⟨fun cause' hread => ?_, fun t hread => ?_⟩
  · rw [run_of_not_read hread]
  · rw [run_of_read hread] at h ⊢
    obtain ⟨cause', hcause⟩ : ∃ cause', ((s.evaluator.evaluate t).run s.context).1 = .error cause' := by
      cases houtcome : ((s.evaluator.evaluate t).run s.context).1 with
      | error cause' => exact ⟨cause', rfl⟩
      | ok a =>
        rw [houtcome] at h
        nomatch h
    obtain ⟨completed, hcompleted, hperforms⟩ := Evaluator.exists_performs_of_error hcause
    exact ⟨completed, hcompleted, hperforms, fun x hx => hperforms.find?_eq hx, fun x hx => hperforms.exists_find? hx⟩

/-- A sum whose second operand has no meaning fails after its first one has assigned a variable, which stays assigned. -/
theorem failed_sum_assigns :
    let s : Session Float := .start .empty ⟨"en", false, []⟩
    (∃ cause, (s.run "(x = 5) + nosuch").1 = .error cause) ∧ s.context.find? "x" = none ∧
      ((s.run "(x = 5) + nosuch").2.context.get? "x").bind Value.number? = some 5 := by
  intro s
  exact ⟨Outcome.toBool_eq_false_iff.1 (by decide +kernel), rfl, by decide +kernel⟩

/-- A sum that fails after it has assigned one variable leaves another one. -/
theorem failed_sum_keeps_other :
    let s : Session Float := ⟨⟨.empty, []⟩, ⟨[("y", ⟨.boolean true, 0⟩)]⟩⟩
    (∃ cause, (s.run "(x = 5) + nosuch").1 = .error cause) ∧
      (s.run "(x = 5) + nosuch").2.context.find? "y" = some ⟨.boolean true, 0⟩ := by
  intro s
  have htargets : (readStatement "(x = 5) + nosuch" : Except (StatementError Float) (Expression Float)).toOption.map
      Expression.targets = some ["x"] := by decide +kernel
  obtain ⟨cause, hcause⟩ : ∃ cause, (s.run "(x = 5) + nosuch").1 = .error cause :=
    Outcome.toBool_eq_false_iff.1 (by decide +kernel)
  have hkeeps := failed_run_keeps_unassigned s "(x = 5) + nosuch" cause hcause
  refine ⟨⟨cause, hcause⟩, ?_⟩
  cases hread : (readStatement "(x = 5) + nosuch" : Except (StatementError Float) (Expression Float)) with
  | error cause' =>
    rw [hread] at htargets
    nomatch htargets
  | ok t =>
    rw [hread] at htargets
    obtain ⟨completed, hcompleted, -, hothers, -⟩ := hkeeps.2 t hread
    refine hothers "y" fun hmem => ?_
    have htarget : "y" ∈ t.targets := List.map_subset Prod.fst (hcompleted.trans t.nestedAssignments_prefix).subset hmem
    rw [Option.some.inj htargets] at htarget
    exact absurd htarget (by decide)

end Session

end QuantityCalculus
