import QuantityCalculus.Proofs.Measure.Composition
import QuantityCalculus.Proofs.Numeric.Exact
import QuantityCalculus.Proofs.UnitExpression.Grammar

/-!
# Composing units that have a scale

A unit is rationalizable if it is numeric, of a composable dimension, and has a scale. Products, quotients, powers and prefixed forms
of rationalizable units are rationalizable again, whatever the number type: no base of a composed dimension is a new one
(`Dimension.pow_mem_composable`, and the group laws for products and quotients), and what is composed is numeric and has a scale.
So in a tree of such compositions no operand is ever refused (`Tree.evaluate_rationalizable`); it can only lack operands, a degree, a
prefix, or a value of a power.
-/

namespace QuantityCalculus

/-- A rational power has the bases of the dimension at most. -/
theorem Dimension.pow_mem_composable {F : Type} {c : Catalog F} {d : Dimension} (h : d ∈ c.composable) (exponent : Rat) :
    d.pow exponent ∈ c.composable := by
  intro base hbase
  rw [get_pow] at hbase
  exact h base (left_ne_zero_of_mul hbase)

/-- The errors of compositions whose operands are not refused. -/
def CompositionError.SparesOperands : CompositionError → Prop
  | .noOperands | .unknownDegree _ | .unknownPrefix _ _ | .undefinedPower _ _ => True
  | .notNumeric _ _ | .notComposable _ _ | .notRationalizable _ | .dimensionsDiffer _ _ => False

variable {F : Type} [Numeric F]

/-- A unit that is numeric and composable and has a scale. -/
structure UnitOfMeasure.IsRationalizable (c : Catalog F) (u : UnitOfMeasure F) : Prop where
  check : Composition.check c u = .ok ()
  ratio : ∃ r, u.ratio? = some r

namespace Composition

variable {c : Catalog F}

/-- A unit made of a scale is rationalizable. -/
theorem isRationalizable_scaledUnit {d : Dimension} (hd : d ∈ c.composable) (r : Ratio F) (symbol : Option String)
    (name : Option LanguageString) : (scaledUnit d r symbol name).IsRationalizable c :=
  ⟨check_eq_ok_iff.2 ⟨rfl, hd⟩, r, rfl⟩

/-- The outcome of a composition is a new rationalizable unit of the dimension that the operands compose to, or an error in which no
operand is refused. -/
def ComposesTo (c : Catalog F) (d : Option Dimension) : Except CompositionError (UnitOfMeasure F) → Prop
  | .ok w => w.IsRationalizable c ∧ w.id = none ∧ d = some w.dimension
  | .error e => e.SparesOperands

/-- The scales of rationalizable units are combined. -/
theorem exists_foldScales_eq_ok (combine : Ratio F → Ratio F → Ratio F) {us : List (UnitOfMeasure F)}
    (h : ∀ u ∈ us, u.IsRationalizable c) (r : Ratio F) : ∃ s, foldScales c combine r us = .ok s := by
  induction us generalizing r with
  | nil => exact ⟨r, rfl⟩
  | cons u us ih =>
    have hu := h u (List.mem_cons_self ..)
    obtain ⟨s, hratio⟩ := hu.ratio
    simp only [foldScales, scaleOf_eq_ok hu.check hratio]
    exact ih (fun v hv => h v (List.mem_cons_of_mem _ hv)) (combine r s)

/-- Rationalizable units have a product, with their joined symbol and name. -/
theorem exists_multiply_eq_ok {us : List (UnitOfMeasure F)} (hne : us ≠ []) (h : ∀ u ∈ us, u.IsRationalizable c) :
    ∃ r, multiply c us = .ok (scaledUnit (us.map (·.dimension)).prod r (joinedSymbol c c.joiners.product us)
      ((us.mapM UnitOfMeasure.name).map (joinedName c.joiners.product))) := by
  obtain ⟨r, hfold⟩ := exists_foldScales_eq_ok productScale h Ratio.one
  rw [multiply_eq c hne, hfold]
  exact ⟨r, rfl⟩

/-- Rationalizable units have a quotient, with their joined symbol and name. -/
theorem exists_divide_eq_ok {u : UnitOfMeasure F} {us : List (UnitOfMeasure F)} (hu : u.IsRationalizable c)
    (hus : ∀ v ∈ us, v.IsRationalizable c) :
    ∃ r, divide c (u :: us) = .ok (scaledUnit (u.dimension / (us.map (·.dimension)).prod) r (joinedSymbol c c.joiners.quotient (u :: us))
      (((u :: us).mapM UnitOfMeasure.name).map fun names => joinedName c.joiners.quotient (quotientNames names))) := by
  obtain ⟨s, hratio⟩ := hu.ratio
  obtain ⟨r, hfold⟩ := exists_foldScales_eq_ok quotientScale hus s
  rw [divide_eq, scaleOf_eq_ok hu.check hratio]
  dsimp only [Except.bind]
  rw [hfold]
  exact ⟨r, rfl⟩

/-- The product of rationalizable units. -/
theorem composesTo_multiply {us : List (UnitOfMeasure F)} (h : ∀ u ∈ us, u.IsRationalizable c) :
    ComposesTo c (some (us.map (·.dimension)).prod) (multiply c us) := by
  by_cases hempty : us = []
  · subst hempty
    trivial
  · obtain ⟨r, hproduct⟩ := exists_multiply_eq_ok hempty h
    rw [hproduct]
    have hdimension : (us.map (·.dimension)).prod ∈ c.composable := prod_mem_composable fun u hu => (h u hu).check
    exact ⟨isRationalizable_scaledUnit hdimension r _ _, rfl, rfl⟩

/-- The quotient of rationalizable units. -/
theorem composesTo_divide {u : UnitOfMeasure F} {us : List (UnitOfMeasure F)} (hu : u.IsRationalizable c)
    (hus : ∀ v ∈ us, v.IsRationalizable c) :
    ComposesTo c (some (u.dimension / (us.map (·.dimension)).prod)) (divide c (u :: us)) := by
  obtain ⟨r, hquotient⟩ := exists_divide_eq_ok hu hus
  rw [hquotient]
  have hdimension : u.dimension / (us.map (·.dimension)).prod ∈ c.composable :=
    Subgroup.div_mem _ (composable_of_check hu.check) (prod_mem_composable fun v hv => (hus v hv).check)
  exact ⟨isRationalizable_scaledUnit hdimension r _ _, rfl, rfl⟩

/-- The power of a rationalizable unit. -/
theorem composesTo_power {u : UnitOfMeasure F} (h : u.IsRationalizable c) (exponent : F) :
    ComposesTo c ((rationalExponent? exponent).map u.dimension.pow) (power c u exponent) := by
  obtain ⟨r, hratio⟩ := h.ratio
  simp only [power, h.check, hratio]
  cases hexponent : rationalExponent? exponent with
  | none => trivial
  | some e =>
    simp only [Option.bind_some]
    cases c.findDegree? e with
    | none => trivial
    | some degree =>
      simp only [Option.map_some]
      split
      · trivial
      · have hdimension := Dimension.pow_mem_composable (composable_of_check h.check) e
        exact ⟨isRationalizable_scaledUnit hdimension _ _ _, rfl, rfl⟩

/-- The prefixed form of a rationalizable unit. -/
theorem composesTo_withPrefix {u : UnitOfMeasure F} (h : u.IsRationalizable c) (base : Nat) (exponent : Int) :
    ComposesTo c (some u.dimension) (withPrefix c u base exponent) := by
  obtain ⟨r, hratio⟩ := h.ratio
  simp only [withPrefix, h.check, hratio]
  cases c.findPrefix? base exponent with
  | none => trivial
  | some affix => exact ⟨isRationalizable_scaledUnit (composable_of_check h.check) _ _ _, rfl, rfl⟩

end Composition

namespace UnitExpression

/-- The dimension of a chain of units of some dimensions. -/
def Chain.dimension? : Chain → List Dimension → Option Dimension
  | .product, ds => some ds.prod
  | .quotient, d :: ds => some (d / ds.prod)
  | .quotient, [] => none
  | .hierarchy, ds => ds.head?

namespace Tree

mutual

/-- The dimension of a tree, from those of its leaves. -/
def dimension? : Tree F → Option Dimension
  | .unit u => some u.dimension
  | .prefixed operand _ _ => operand.dimension?
  | .power operand exponent =>
    operand.dimension?.bind fun d => (Composition.rationalExponent? exponent).map d.pow
  | .fraction operand _ => operand.dimension?
  | .chain k members => (dimensions? members).bind k.dimension?

/-- The dimensions of several trees. -/
def dimensions? : List (Tree F) → Option (List Dimension)
  | [] => some []
  | t :: ts => t.dimension?.bind fun d => (dimensions? ts).map (d :: ·)

end

mutual

/-- A tree of products, quotients, powers and prefixes whose leaves are rationalizable. -/
def IsRationalizable (c : Catalog F) : Tree F → Prop
  | .unit u => u.IsRationalizable c
  | .prefixed operand _ _ => operand.IsRationalizable c
  | .power operand _ => operand.IsRationalizable c
  | .fraction _ _ => False
  | .chain k members => k ≠ .hierarchy ∧ AreRationalizable c members

/-- Several such trees. -/
def AreRationalizable (c : Catalog F) : List (Tree F) → Prop
  | [] => True
  | t :: ts => t.IsRationalizable c ∧ AreRationalizable c ts

end

variable {c : Catalog F}

/-- A tree evaluates to a rationalizable unit of its dimension, which has no key unless the tree is that unit, or to an error in which no
operand is refused. -/
def Closed (c : Catalog F) (t : Tree F) : Prop :=
  (∃ w, t.evaluate c = .ok w ∧ w.IsRationalizable c ∧ ((∀ u, t ≠ .unit u) → w.id = none) ∧
    t.dimension? = some w.dimension) ∨
  ∃ units cause, t.evaluate c = .error (.composition units cause) ∧ cause.SparesOperands

/-- Several trees evaluate to rationalizable units of their dimensions, or to an error in which no operand is refused. -/
def AllClosed (c : Catalog F) (ts : List (Tree F)) : Prop :=
  (∃ ws, evaluateAll c ts = .ok ws ∧ (∀ w ∈ ws, w.IsRationalizable c) ∧ dimensions? ts = some (ws.map (·.dimension))) ∨
  ∃ units cause, evaluateAll c ts = .error (.composition units cause) ∧ cause.SparesOperands

/-- A tree whose operands have been composed is closed. -/
theorem closed_of_composesTo {t : Tree F} {d : Option Dimension} {us : List (UnitOfMeasure F)}
    {outcome : Except CompositionError (UnitOfMeasure F)} (h : Composition.ComposesTo c d outcome)
    (hevaluate : t.evaluate c = composed c us outcome) (hdimension : t.dimension? = d) : t.Closed c := by
  cases outcome with
  | error cause => exact .inr ⟨_, cause, hevaluate, h⟩
  | ok w =>
    obtain ⟨hw, hid, hd⟩ := h
    exact .inl ⟨w, hevaluate, hw, fun _ => hid, hdimension.trans hd⟩

/-- A composition of one operand is closed if the operand is. -/
theorem Closed.suffixed {t operand : Tree F} {compose : UnitOfMeasure F → Except CompositionError (UnitOfMeasure F)}
    (h : operand.Closed c)
    (hevaluate : t.evaluate c = (operand.evaluate c).bind fun u => composed c [u] (compose u))
    (hcompose : ∀ u, u.IsRationalizable c → operand.dimension? = some u.dimension →
      Composition.ComposesTo c t.dimension? (compose u)) : t.Closed c := by
  rcases h with ⟨u, hoperand, hu, -, hdimension⟩ | ⟨units, cause, hoperand, hspares⟩
  · rw [hoperand] at hevaluate
    exact closed_of_composesTo (hcompose u hu hdimension) hevaluate rfl
  · rw [hoperand] at hevaluate
    exact .inr ⟨units, cause, hevaluate, hspares⟩

/-- A chain of products or quotients is closed if its members are. -/
theorem AllClosed.chain {k : Chain} (hk : k ≠ .hierarchy) {members : List (Tree F)} (h : AllClosed c members) :
    (Tree.chain k members).Closed c := by
  have hevaluate : (Tree.chain k members).evaluate c =
      (evaluateAll c members).bind fun us => composed c us (k.compose c us) := by
    rw [evaluate]
    rfl
  rcases h with ⟨us, hmembers, hus, hdimensions⟩ | ⟨units, cause, hmembers, hspares⟩
  · rw [hmembers] at hevaluate
    have hdimension : (Tree.chain k members).dimension? = k.dimension? (us.map (·.dimension)) := by
      rw [dimension?, hdimensions, Option.bind_some]
    refine closed_of_composesTo ?_ hevaluate hdimension
    cases k with
    | hierarchy => exact absurd rfl hk
    | product => exact Composition.composesTo_multiply hus
    | quotient =>
      cases us with
      | nil => trivial
      | cons u us =>
        exact Composition.composesTo_divide (hus u (List.mem_cons_self ..)) fun v hv => hus v (List.mem_cons_of_mem _ hv)
  · rw [hmembers] at hevaluate
    exact .inr ⟨units, cause, hevaluate, hspares⟩

mutual

/-- Trees of rationalizable units are closed, by induction on the tree. -/
theorem closed_of_isRationalizable (t : Tree F) (h : t.IsRationalizable c) : t.Closed c := by
  cases t with
  | unit u => exact .inl ⟨u, rfl, h, fun hunit => absurd rfl (hunit u), rfl⟩
  | prefixed operand base exponent =>
    refine (closed_of_isRationalizable operand h).suffixed (by rw [evaluate]; rfl) fun u hu hdimension => ?_
    rw [dimension?, hdimension]
    exact Composition.composesTo_withPrefix hu base exponent
  | power operand exponent =>
    refine (closed_of_isRationalizable operand h).suffixed (by rw [evaluate]; rfl) fun u hu hdimension => ?_
    rw [dimension?, hdimension, Option.bind_some]
    exact Composition.composesTo_power hu exponent
  | fraction operand bounds => exact h.elim
  | chain k members => exact (allClosed_of_areRationalizable members h.2).chain h.1

/-- Lists of such trees are closed. -/
theorem allClosed_of_areRationalizable (ts : List (Tree F)) (h : AreRationalizable c ts) : AllClosed c ts := by
  cases ts with
  | nil => exact .inl ⟨[], rfl, fun _ hw => absurd hw List.not_mem_nil, rfl⟩
  | cons t ts =>
    obtain ⟨ht, hts⟩ := h
    have hevaluate : evaluateAll c (t :: ts) =
        (t.evaluate c).bind fun u => (evaluateAll c ts).bind fun us => .ok (u :: us) := by
      rw [evaluateAll]
      rfl
    rcases closed_of_isRationalizable t ht with ⟨u, hfirst, hu, -, hd⟩ | ⟨units, cause, hfirst, hspares⟩
    · rcases allClosed_of_areRationalizable ts hts with ⟨us, hrest, hus, hds⟩ | ⟨units, cause, hrest, hspares⟩
      · rw [hfirst, hrest] at hevaluate
        refine .inl ⟨u :: us, hevaluate, ?_, ?_⟩
        · intro w hw
          rcases List.mem_cons.1 hw with rfl | hw
          · exact hu
          · exact hus w hw
        · simp only [dimensions?, hd, hds, Option.bind_some, Option.map_some, List.map_cons]
      · rw [hfirst, hrest] at hevaluate
        exact .inr ⟨units, cause, hevaluate, hspares⟩
    · rw [hfirst] at hevaluate
      exact .inr ⟨units, cause, hevaluate, hspares⟩

end

/-- A catalog with money, which is not composable, a prefix and a degree. -/
def squares : Catalog ℚ :=
  ((Catalog.empty.addDimension "currency" false).addPrefix 10 3 ⟨"k", .plain "kilo\x7b0\x7d"⟩).addDegree 2
    ⟨"²", .plain "square \x7b0\x7d"⟩

/-- Kilometers per square second. -/
def acceleration : Tree ℚ :=
  .chain .quotient [.prefixed (.unit (.base (.single "length"))) 10 3, .power (.unit (.base (.single "time"))) 2]

end Tree

end UnitExpression

end QuantityCalculus
