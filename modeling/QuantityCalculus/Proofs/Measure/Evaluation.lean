import QuantityCalculus.Evaluation
import QuantityCalculus.Proofs.Measure.Arithmetic

/-!
# Calculations with units

An expression of numbers and names of operands, with negatives, sums, products, quotients, powers and scales, evaluates to a value
that measures what the expression comes to with base values alone.
-/

namespace QuantityCalculus

open ExactNumeric

/-- Where one step of an evaluation after another succeeds, the first one does, and then the second one. -/
theorem Evaluation.bind_eq_ok {F α β : Type} {x : Evaluation F α} {f : α → Evaluation F β} {ctx ctx' : Context F} {y : β}
    (h : (x >>= f).run ctx = (.ok y, ctx')) :
    ∃ a ctx₁, x.run ctx = (.ok a, ctx₁) ∧ (f a).run ctx₁ = (.ok y, ctx') := by
  have hrun : (ExceptT.bindCont f (x.run ctx).1) (x.run ctx).2 = (.ok y, ctx') := h
  cases hx : x.run ctx with
  | mk outcome ctx₁ =>
    rw [hx] at hrun
    cases outcome with
    | error e => nomatch congrArg Prod.fst hrun
    | ok a => exact ⟨a, ctx₁, rfl, hrun⟩

/-- An outcome that is part of an evaluation leaves the variables as they are. -/
theorem Evaluation.ofOutcome_eq_ok {F α : Type} {r : Outcome α} {ctx ctx' : Context F} {y : α}
    (h : (liftM r : Evaluation F α).run ctx = (.ok y, ctx')) : r = .ok y ∧ ctx' = ctx := by
  cases r with
  | error e => nomatch congrArg Prod.fst h
  | ok x =>
    obtain rfl := Except.ok.inj (congrArg Prod.fst h)
    exact ⟨rfl, (congrArg Prod.snd h).symm⟩

variable {F : Type} [ExactNumeric F]

namespace Expression

/-- What an expression comes to with base values alone. -/
def measure? (e : Evaluator F) (ctx : Context F) : Expression F → Option Measure
  | .number x => some ⟨toRat x, 1⟩
  | .identifier name => (e.resolve ctx name).toOption.bind Value.measure?
  | .unary .neg operand => (measure? e ctx operand).map Measure.neg
  | .binary op left right =>
    (measure? e ctx left).bind fun μ => (measure? e ctx right).bind fun ν => Measure.binary? op μ ν
  | _ => none

/-- An expression of numbers and names of operands whose operations are those of measures and admit their operands. -/
def IsCalculation (e : Evaluator F) (ctx : Context F) : Expression F → Prop
  | .number _ => True
  | .identifier name => ∀ a, e.resolve ctx name = .ok a → a.IsOperand e.catalog
  | .unary .neg operand => IsCalculation e ctx operand
  | .binary op left right =>
    op.isArithmetic = true ∧ IsCalculation e ctx left ∧ IsCalculation e ctx right ∧
      ∀ μ ν, measure? e ctx left = some μ → measure? e ctx right = some ν → Measure.Admits op μ ν
  | _ => False

end Expression

namespace Evaluator

variable {e : Evaluator F} {ctx ctx' : Context F}

open Value (Measures)

/-- The evaluation of a calculation measures what the calculation comes to, and leaves the variables as they are. -/
theorem measures_evaluate {t : Expression F} (ht : t.IsCalculation e ctx) {v : Value F}
    (h : (e.evaluate t).run ctx = (.ok v, ctx')) :
    ctx' = ctx ∧ ∃ μ, t.measure? e ctx = some μ ∧ Measures e.catalog v μ := by
  induction t using Expression.measure?.induct generalizing v ctx' with
  | case1 x =>
    obtain rfl := Except.ok.inj (congrArg Prod.fst h)
    exact ⟨(congrArg Prod.snd h).symm, _, rfl, .number x⟩
  | case2 name =>
    obtain ⟨hresolve, rfl⟩ := Evaluation.ofOutcome_eq_ok (r := e.resolve ctx name) h
    obtain ⟨μ, hμ⟩ := (ht v hresolve).exists_measure?
    refine ⟨rfl, μ, ?_, Value.measures_iff.2 ⟨ht v hresolve, hμ⟩⟩
    rw [Expression.measure?, hresolve]
    exact hμ
  | case3 operand ih =>
    obtain ⟨a, ctx₁, ha, hrest⟩ := Evaluation.bind_eq_ok h
    obtain ⟨rfl, μ, hμ, hmeasures⟩ := ih ht ha
    obtain ⟨hneg, rfl⟩ := Evaluation.ofOutcome_eq_ok hrest
    refine ⟨rfl, μ.neg, ?_, Algebra.measures_neg hmeasures hneg⟩
    rw [Expression.measure?, hμ]
    rfl
  | case4 op left right ihleft ihright =>
    obtain ⟨hop, hleft, hright, hadmits⟩ := ht
    have hconvert : op ≠ .convert := by
      rintro rfl
      nomatch hop
    rw [evaluate] at h
    · obtain ⟨a, ctx₁, ha, hrest⟩ := Evaluation.bind_eq_ok h
      obtain ⟨rfl, μ, hμ, hameasures⟩ := ihleft hleft ha
      obtain ⟨b, ctx₂, hb, hrun⟩ := Evaluation.bind_eq_ok hrest
      obtain ⟨rfl, ν, hν, hbmeasures⟩ := ihright hright hb
      obtain ⟨hbinary, rfl⟩ := Evaluation.ofOutcome_eq_ok hrun
      obtain ⟨ρ, hρ, hv⟩ := Algebra.measures_binary hop hameasures hbmeasures (hadmits μ ν hμ hν) hbinary
      refine ⟨rfl, ρ, ?_, hv⟩
      rw [Expression.measure?, hμ, Option.bind_some, hν, Option.bind_some, hρ]
    · intro target binding heq
      exact absurd heq hconvert
  | case5 t hnumber hidentifier hneg hbinary =>
    cases t with
    | number x => exact absurd rfl (hnumber x)
    | identifier name => exact absurd rfl (hidentifier name)
    | unary op operand =>
      cases op with
      | neg => exact absurd rfl (hneg operand)
      | _ => exact ht.elim
    | binary op left right => exact absurd rfl (hbinary op left right)
    | _ => exact ht.elim

/-- Variables for a walk: two kilometers, five hundred meters, and an hour of seconds, whose unit is given by instructions. -/
def walk : Context ℚ where
  assignments :=
    [("distance", ⟨.quantity ⟨.number 2, (UnitOfMeasure.base (.single "length")).withConversion (.ratio ⟨1000, 1⟩), none⟩, 0⟩),
      ("hour", ⟨.unit ((UnitOfMeasure.base (.single "time")).withConversion (.instructions ⟨"*3600"⟩)), 0⟩),
      ("step", ⟨.quantity ⟨.number 500, .base (.single "length"), none⟩, 0⟩)]

/-- The speed of the walk. -/
def speed : Expression ℚ :=
  .binary .div (.binary .add (.identifier "distance") (.identifier "step")) (.identifier "hour")

end Evaluator

end QuantityCalculus
