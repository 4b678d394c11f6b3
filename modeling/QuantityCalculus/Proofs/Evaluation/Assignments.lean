import QuantityCalculus.Evaluation

/-!
# Assignments of an expression

What evaluating an expression does to variables. The assignments in the expression are carried out one after another, in an order that
the expression alone decides, until all of them are done or an error ends the evaluation (`Evaluation.Confined.performs`). What happens
depends on the variables that the expression names and on no others (`Evaluation.Confined.depends`). Both are kept by every way of
putting evaluations together, and so they hold of every expression (`Evaluator.confined_evaluate`).
-/

namespace QuantityCalculus

variable {F : Type}

namespace Expression

mutual

/-- The assignments in an expression, each a variable with what it is assigned, in the order in which they are carried out: those in an
operand before those in the operands to its right, and those in an assigned expression before its own. -/
def assignments : Expression F → List (String × Expression F)
  | .list rows => assignmentsOfRows rows
  | .sequence elems => assignmentsOfElems elems
  | .unary _ operand => operand.assignments
  | .binary _ left right => left.assignments ++ right.assignments
  | .juxtapose left right => left.assignments ++ right.assignments
  | .assign name value => value.assignments ++ [(name, value)]
  | _ => []

/-- The assignments in several expressions. -/
def assignmentsOfElems : List (Expression F) → List (String × Expression F)
  | [] => []
  | t :: ts => t.assignments ++ assignmentsOfElems ts

/-- The assignments in rows of expressions. -/
def assignmentsOfRows : List (List (Expression F)) → List (String × Expression F)
  | [] => []
  | row :: rows => assignmentsOfElems row ++ assignmentsOfRows rows

end

mutual

/-- The names that an expression uses as terms. -/
def terms : Expression F → List String
  | .identifier name => [name]
  | .list rows => termsOfRows rows
  | .sequence elems => termsOfElems elems
  | .unary _ operand => operand.terms
  | .binary _ left right => left.terms ++ right.terms
  | .juxtapose left right => left.terms ++ right.terms
  | .assign _ value => value.terms
  | _ => []

/-- The names that several expressions use as terms. -/
def termsOfElems : List (Expression F) → List String
  | [] => []
  | t :: ts => t.terms ++ termsOfElems ts

/-- The names that rows of expressions use as terms. -/
def termsOfRows : List (List (Expression F)) → List String
  | [] => []
  | row :: rows => termsOfElems row ++ termsOfRows rows

end

/-- The variables that an expression assigns. -/
def targets (t : Expression F) : List String := t.assignments.map Prod.fst

end Expression

namespace Context

/-- A variable that is set is there. -/
theorem find?_set_self (ctx : Context F) (name : String) (v : Variable F) : (ctx.set name v).find? name = some v :=
  SortedList.get?_insert_self SortedList.eq_of_not_textLT ..

/-- Setting a variable leaves the others. -/
theorem find?_set_of_ne {name x : String} (h : x ≠ name) (ctx : Context F) (v : Variable F) :
    (ctx.set name v).find? x = ctx.find? x :=
  SortedList.get?_insertWith_of_ne SortedList.eq_of_not_textLT h ..

/-- Two contexts agree on some names as terms, if these have the same values, and on some names as targets, if they have been assigned
equally often besides: a target that is assigned a function owns it under the number of that assignment. -/
structure Agree (terms targets : List String) (ctx ctx' : Context F) : Prop where
  get? : ∀ x ∈ terms, ctx.get? x = ctx'.get? x
  find? : ∀ x ∈ targets, ctx.find? x = ctx'.find? x

/-- Contexts that agree on some names agree on fewer of them. -/
theorem Agree.mono {terms terms' targets targets' : List String} {ctx ctx' : Context F} (h : Agree terms' targets' ctx ctx')
    (hterms : terms ⊆ terms') (htargets : targets ⊆ targets') : Agree terms targets ctx ctx' :=
  ⟨fun x hx => h.get? x (hterms hx), fun x hx => h.find? x (htargets hx)⟩

/-- The same assignment in two contexts that agree on its target keeps whatever they agree on. -/
theorem Agree.assign {terms targets : List String} {ctx ctx' : Context F} {name : String}
    (h : Agree terms targets ctx ctx') (hname : ctx.find? name = ctx'.find? name) (a : Value F) :
    ctx.assigned name a = ctx'.assigned name a ∧
      Agree terms targets (ctx.set name (ctx.assigned name a)) (ctx'.set name (ctx'.assigned name a)) := by
  have hassigned : ctx.assigned name a = ctx'.assigned name a := by
    unfold assigned
    rw [hname]
  refine ⟨hassigned, fun x hx => ?_, fun x hx => ?_⟩
  · unfold Context.get?
    by_cases hne : x = name
    · rw [hne, find?_set_self, find?_set_self, hassigned]
    · rw [find?_set_of_ne hne, find?_set_of_ne hne]
      exact h.get? x hx
  · by_cases hne : x = name
    · rw [hne, find?_set_self, find?_set_self, hassigned]
    · rw [find?_set_of_ne hne, find?_set_of_ne hne]
      exact h.find? x hx

end Context

/-! ### Steps of an evaluation -/

namespace Evaluation

variable {α β : Type}

/-- One step after another goes on with the value and the variables of the first, unless that fails. -/
theorem run_bind (m : Evaluation F α) (f : α → Evaluation F β) (ctx : Context F) :
    (m >>= f).run ctx = match m.run ctx with
      | (.ok a, ctx₁) => (f a).run ctx₁
      | (.error cause, ctx₁) => (.error cause, ctx₁) := by
  show ExceptT.bindCont f (m.run ctx).1 (m.run ctx).2 = _
  cases h : m.run ctx with
  | mk outcome ctx₁ => cases outcome <;> rfl

end Evaluation

variable [Numeric F]

/-- Assignments that are carried out one after another from a context lead to a context. What a variable is assigned is the value of an
expression in some context on the way, in which the assignments inside the expression are carried out first. -/
inductive Evaluator.Performs (e : Evaluator F) (ctx : Context F) : List (String × Expression F) → Context F → Prop where
  | none : Performs e ctx [] ctx
  | assign {done : List (String × Expression F)} {ctx₀ ctx₁ : Context F} {name : String} {value : Expression F} {a : Value F} :
      Performs e ctx done ctx₀ → (e.evaluate value).run ctx₀ = (.ok a, ctx₁) →
      Performs e ctx (done ++ value.assignments) ctx₁ →
      Performs e ctx (done ++ (value.assignments ++ [(name, value)])) (ctx₁.set name (ctx₁.assigned name a))

/-- Assignments leave the variables that they do not assign. -/
theorem Evaluator.Performs.find?_eq {e : Evaluator F} {ctx ctx' : Context F} {done : List (String × Expression F)}
    (h : e.Performs ctx done ctx') {x : String} (hx : x ∉ done.map Prod.fst) : ctx'.find? x = ctx.find? x := by
  induction h with
  | none => rfl
  | assign _ _ _ _ ih =>
    simp only [List.map_append, List.map_cons, List.map_nil, List.mem_append, List.mem_singleton, not_or] at hx ih
    rw [Context.find?_set_of_ne hx.2.2]
    exact ih ⟨hx.1, hx.2.1⟩

/-- An evaluation that does to variables what an expression with these terms and these assignments may do. It carries out the assignments
in their order, all of them if it succeeds; and in contexts that agree on the terms and the targets it has the same outcome, and
they still agree. -/
structure Evaluation.Confined {α : Type} (e : Evaluator F) (terms : List String) (assignments : List (String × Expression F))
    (m : Evaluation F α) : Prop where
  performs : ∀ {ctx done ctx₀}, e.Performs ctx done ctx₀ → ∃ more, more <+: assignments ∧
    e.Performs ctx (done ++ more) (m.run ctx₀).2 ∧ ∀ a, (m.run ctx₀).1 = .ok a → more = assignments
  depends : ∀ {ctx ctx' : Context F}, ctx.Agree terms (assignments.map Prod.fst) ctx' →
    (m.run ctx).1 = (m.run ctx').1 ∧ (m.run ctx).2.Agree terms (assignments.map Prod.fst) (m.run ctx').2

namespace Evaluation

variable {α β : Type} {e : Evaluator F} {terms terms' : List String} {assignments assignments' : List (String × Expression F)}
  {m : Evaluation F α}

/-- A confined evaluation leaves the variables that it does not assign. -/
theorem Confined.find?_eq (h : Confined e terms assignments m) {x : String} (hx : x ∉ assignments.map Prod.fst)
    (ctx : Context F) : (m.run ctx).2.find? x = ctx.find? x := by
  have hnone : e.Performs ctx [] ctx := .none
  obtain ⟨more, hmore, hperforms, -⟩ := h.performs hnone
  exact hperforms.find?_eq fun hmem => hx (List.map_subset Prod.fst hmore.subset hmem)

/-- A confined evaluation also keeps what contexts agree on besides its own names. -/
theorem Confined.depends_of_subset (h : Confined e terms assignments m) {targets : List String} (hterms : terms ⊆ terms')
    (htargets : assignments.map Prod.fst ⊆ targets) {ctx ctx' : Context F} (hagree : ctx.Agree terms' targets ctx') :
    (m.run ctx).1 = (m.run ctx').1 ∧ (m.run ctx).2.Agree terms' targets (m.run ctx').2 := by
  obtain ⟨houtcome, hafter⟩ := h.depends (hagree.mono hterms htargets)
  refine ⟨houtcome, fun x hx => ?_, fun x hx => ?_⟩
  · by_cases hassigned : x ∈ assignments.map Prod.fst
    · exact congrArg (Option.map (·.value)) (hafter.find? x hassigned)
    · have hkept := hagree.get? x hx
      unfold Context.get? at hkept ⊢
      rw [h.find?_eq hassigned, h.find?_eq hassigned]
      exact hkept
  · by_cases hassigned : x ∈ assignments.map Prod.fst
    · exact hafter.find? x hassigned
    · rw [h.find?_eq hassigned, h.find?_eq hassigned]
      exact hagree.find? x hx

/-- An outcome that no variable decides is confined. -/
theorem confined_ofOutcome (r : Outcome α) : Confined e [] [] (liftM r : Evaluation F α) where
  performs {ctx done ctx₀} h := ⟨[], List.prefix_rfl, by rw [List.append_nil]; exact h, fun _ _ => rfl⟩
  depends h := ⟨rfl, h⟩

/-- Looking up a term is confined to it. -/
theorem confined_resolve (name : String) : Confined e [name] [] (do e.resolve (← get) name) where
  performs {ctx done ctx₀} h := ⟨[], List.prefix_rfl, by rw [List.append_nil]; exact h, fun _ _ => rfl⟩
  depends {ctx ctx'} h := by
    refine ⟨?_, h⟩
    show e.resolve ctx name = e.resolve ctx' name
    unfold Evaluator.resolve
    rw [h.get? name List.mem_cons_self]

/-- One confined evaluation after another is confined to the names of both, and the assignments of the first come first. -/
theorem Confined.bind (h : Confined e terms assignments m) {f : α → Evaluation F β}
    (hf : ∀ a, Confined e terms' assignments' (f a)) : Confined e (terms ++ terms') (assignments ++ assignments') (m >>= f) where
  performs {ctx done ctx₀} hdone := by
    obtain ⟨more, hmore, hperforms, hall⟩ := h.performs hdone
    rw [run_bind]
    cases hrun : m.run ctx₀ with
    | mk outcome ctx₁ =>
      rw [hrun] at hperforms hall
      cases outcome with
      | error cause => exact ⟨more, hmore.trans (List.prefix_append ..), hperforms, nofun⟩
      | ok a =>
        obtain rfl := hall a rfl
        obtain ⟨more', hmore', hperforms', hall'⟩ := (hf a).performs hperforms
        refine ⟨more ++ more', (List.prefix_append_right_inj more).2 hmore', ?_, fun b hb => ?_⟩
        · rw [← List.append_assoc]
          exact hperforms'
        · rw [hall' b hb]
  depends {ctx ctx'} hagree := by
    rw [List.map_append] at hagree ⊢
    obtain ⟨houtcome, hafter⟩ :=
      h.depends_of_subset (List.subset_append_left ..) (List.subset_append_left ..) hagree
    rw [run_bind, run_bind]
    cases hrun : m.run ctx with
    | mk outcome ctx₁ =>
      cases hrun' : m.run ctx' with
      | mk outcome' ctx₁' =>
        rw [hrun, hrun'] at houtcome hafter
        dsimp only at houtcome hafter
        subst houtcome
        cases outcome with
        | error cause => exact ⟨rfl, hafter⟩
        | ok a =>
          exact (hf a).depends_of_subset (List.subset_append_right ..) (List.subset_append_right ..) hafter

/-- A confined evaluation whose value goes through a function that may fail is confined alike. -/
theorem Confined.bindOutcome (h : Confined e terms assignments m) (r : α → Outcome β) :
    Confined e terms assignments (m >>= fun a => liftM (r a)) := by
  have hbind := h.bind (f := fun a => liftM (r a)) fun a => confined_ofOutcome (r a)
  rwa [List.append_nil, List.append_nil] at hbind

end Evaluation

namespace Evaluator

open Evaluation

variable {e : Evaluator F}

/-- The assignment of what a confined evaluation gives comes after the assignments of the evaluation. -/
theorem confined_assign {name : String} {value : Expression F} (h : Confined e value.terms value.assignments (e.evaluate value)) :
    Confined e value.terms (value.assignments ++ [(name, value)]) (e.evaluate (.assign name value)) where
  performs {ctx done ctx₀} hdone := by
    obtain ⟨more, hmore, hperforms, hall⟩ := h.performs hdone
    rw [evaluate, run_bind]
    cases hrun : (e.evaluate value).run ctx₀ with
    | mk outcome ctx₁ =>
      rw [hrun] at hperforms hall
      cases outcome with
      | error cause => exact ⟨more, hmore.trans (List.prefix_append ..), hperforms, nofun⟩
      | ok a =>
        obtain rfl := hall a rfl
        exact ⟨_, List.prefix_rfl, .assign hdone hrun hperforms, fun _ _ => rfl⟩
  depends {ctx ctx'} hagree := by
    rw [List.map_append] at hagree ⊢
    obtain ⟨houtcome, hafter⟩ := h.depends_of_subset (List.Subset.refl _) (List.subset_append_left ..) hagree
    rw [evaluate, run_bind, run_bind]
    cases hrun : (e.evaluate value).run ctx with
    | mk outcome ctx₁ =>
      cases hrun' : (e.evaluate value).run ctx' with
      | mk outcome' ctx₁' =>
        rw [hrun, hrun'] at houtcome hafter
        dsimp only at houtcome hafter
        subst houtcome
        cases outcome with
        | error cause => exact ⟨rfl, hafter⟩
        | ok a =>
          have hname := hafter.find? name (List.mem_append_right _ List.mem_cons_self)
          obtain ⟨hassigned, hagree'⟩ := hafter.assign hname a
          exact ⟨congrArg (fun v : Variable F => Except.ok v.value) hassigned, hagree'⟩

/-- The evaluation of an expression is confined to its terms and its assignments, by induction along the evaluation. -/
theorem confined_evaluate (t : Expression F) : Confined e t.terms t.assignments (e.evaluate t) := by
  refine (Evaluator.evaluate.mutual_induct
    (fun t => Confined e t.terms t.assignments (e.evaluate t))
    (fun rows => Confined e (Expression.termsOfRows rows) (Expression.assignmentsOfRows rows) (e.evaluateRows rows))
    (fun ts => Confined e (Expression.termsOfElems ts) (Expression.assignmentsOfElems ts) (e.evaluateAll ts))
    ?number ?string ?boolean ?identifier ?empty ?row ?matrix ?sequence ?unary ?conversion ?binary ?call ?juxtapose ?assign
    ?noRows ?rows ?noElems ?elems).1 t
  case number => exact fun x => confined_ofOutcome (.ok _)
  case string => exact fun s => confined_ofOutcome (.ok _)
  case boolean => exact fun b => confined_ofOutcome (.ok _)
  case identifier => exact fun name => confined_resolve name
  case empty => exact confined_ofOutcome (.ok _)
  case row => exact fun row hrow => hrow.bind fun as => confined_ofOutcome (.ok (Value.array as))
  case matrix =>
    intro rows hnil hsingle hrows
    rw [evaluate]
    · exact hrows.bindOutcome fun as => .ok (Value.array as)
    · exact hnil
    · exact hsingle
  case sequence => exact fun elems helems => helems.bindOutcome fun as => .ok (Value.array as)
  case unary => exact fun op operand hoperand => hoperand.bindOutcome fun a => Algebra.unary e.catalog op a
  case conversion =>
    intro left target binding hleft htarget hbinding
    exact hleft.bind fun a => htarget.bind fun u => hbinding.bindOutcome fun b => e.convertWith a u b
  case binary =>
    intro op left right hop hleft hright
    rw [evaluate]
    · exact hleft.bind fun a => hright.bindOutcome fun b => Algebra.binary e.catalog op a b
    · exact hop
  case call =>
    intro left elems hleft helems
    refine hleft.bind fun a => ?_
    cases a with
    | function f => exact helems.bindOutcome fun args => f.call e.catalog args
    | _ => exact helems.bindOutcome fun args => Algebra.mul e.catalog _ (.array args)
  case juxtapose =>
    intro left right hright' hleft hright
    rw [evaluate]
    · refine hleft.bind fun a => ?_
      cases a with
      | function f => exact hright.bindOutcome fun b => e.applyTo f b
      | _ => exact hright.bindOutcome fun b => Algebra.mul e.catalog _ b
    · exact hright'
  case assign => exact fun name value hvalue => confined_assign hvalue
  case noRows => exact confined_ofOutcome (.ok _)
  case rows =>
    exact fun row rows hrow hrows => hrow.bind fun as => hrows.bindOutcome fun bs => .ok (Value.array as :: bs)
  case noElems => exact confined_ofOutcome (.ok _)
  case elems =>
    exact fun t ts ht hts => ht.bind fun a => hts.bindOutcome fun as => .ok (a :: as)

end Evaluator

end QuantityCalculus
