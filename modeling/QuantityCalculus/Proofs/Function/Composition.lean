import QuantityCalculus.Builtin.Calls
import QuantityCalculus.Proofs.Evaluation.Outcome
import QuantityCalculus.Proofs.Numeric.Exact
import QuantityCalculus.Proofs.RepeatedSquaring

/-!
# The algebra of functions

To calls, which see the value at arguments or that there is none, functions form an algebra (`FunctionValue.composition_algebra`):
composition is associative, the identity is neutral, powers are successive calls, and inverting turns compositions around. The texts of
errors name the functions that are called, and so tell apart what the algebra identifies.
-/

namespace QuantityCalculus

/-- A check of the number of arguments leaves what follows it or takes it away. -/
theorem Signature.toOption_check_bind {α : Type} (s : Signature) (count : Nat) (r : Outcome α) :
    (s.check count >>= fun _ => r).toOption = if s.arity.accepts count then r.toOption else none := by
  unfold Signature.check
  split
  · rfl
  · rfl

namespace FunctionValue

section Inverses

variable {F : Type} {f g : FunctionValue F}

/-- A function is invertible if inverting it gives a function. -/
theorem isInvertible_iff : f.isInvertible = true ↔ ∃ f', f.invert = .ok f' := by
  unfold isInvertible invert
  cases f.inverse <;> simp

/-- A composition is invertible if both functions are. -/
theorem isInvertible_compose (f g : FunctionValue F) :
    (f.compose g).isInvertible = true ↔ f.isInvertible = true ∧ g.isInvertible = true := by
  unfold isInvertible compose chainInverse
  cases f.inverse <;> cases g.inverse <;> simp

/-- Inverting gives the function of one argument that follows the inverse rule. -/
theorem invert_eq_ok {f' : FunctionValue F} (h : f.invert = .ok f') :
    f.inverse = some f'.forward ∧ f'.signature.arity = .unary := by
  unfold invert at h
  split at h
  · nomatch h
  · rename_i rule hrule
    obtain rfl := Except.ok.inj h
    exact ⟨hrule, rfl⟩

end Inverses

variable {F : Type} [Numeric F] {c : Catalog F} {f f' g g' : FunctionValue F}

/-- The value of a function at arguments, if it has one. -/
def value? (c : Catalog F) (f : FunctionValue F) (args : List (Value F)) : Option (Value F) :=
  (f.call c args).toOption

/-- The value after successive calls, the first of them at arguments and each further one at the value of the call before. Without any
call, a single argument is its own value. -/
def valueAfter? (c : Catalog F) (f : FunctionValue F) : Nat → List (Value F) → Option (Value F)
  | 0, [a] => some a
  | 0, _ => none
  | n + 1, args => (f.value? c args).bind fun a => valueAfter? c f n [a]

/-! ### One call -/

/-- The value of a function is what its rule gives, where the arity accepts the arguments. -/
theorem value?_eq (f : FunctionValue F) (args : List (Value F)) :
    f.value? c args = if f.signature.arity.accepts args.length then (f.forward.apply c args).toOption else none :=
  f.signature.toOption_check_bind ..

/-- A composition calls the inner function at the arguments, and the outer one at its value. -/
theorem value?_compose (f g : FunctionValue F) (args : List (Value F)) :
    (f.compose g).value? c args = (g.value? c args).bind fun a => f.value? c [a] := by
  have hrule : ((f.compose g).forward.apply c args).toOption = (g.value? c args).bind fun a => f.value? c [a] := by
    show (Rule.apply c (.compose ..) args).toOption = _
    rw [Rule.apply, Signature.toOption_check_bind, Outcome.toOption_bind, value?_eq]
    split
    · simp only [Signature.toOption_check_bind, value?_eq, List.length_singleton]
    · rfl
  rw [value?_eq, hrule]
  split
  · rfl
  · rename_i hrefused
    have hinner : g.value? c args = none := by
      rw [value?_eq]
      exact if_neg hrefused
    rw [hinner, Option.bind_none]

/-- The identity gives a single argument back. -/
theorem value?_identity (args : List (Value F)) : identity.value? c args = f.valueAfter? c 0 args := by
  match args with
  | [] => rfl
  | [a] => rfl
  | a :: b :: rest =>
    rw [value?_eq, if_neg]
    · rfl
    · simp [identity, Arity.unary, Arity.exactly, Arity.accepts]

/-- The inverse of a composition follows the inverse of the outer function and then that of the inner one, without a look at the arity of
the second, which takes one argument as every inverse does. -/
theorem exists_invert_compose (hf : f.invert = .ok f') (hg : g.invert = .ok g') :
    ∃ h, (f.compose g).invert = .ok h ∧ ∀ args, h.value? c args = (g'.compose f').value? c args := by
  obtain ⟨hfrule, hfarity⟩ := invert_eq_ok hf
  obtain ⟨hgrule, hgarity⟩ := invert_eq_ok hg
  obtain ⟨h, hinvert⟩ := isInvertible_iff.1 ((isInvertible_compose f g).2
    ⟨isInvertible_iff.2 ⟨f', hf⟩, isInvertible_iff.2 ⟨g', hg⟩⟩)
  obtain ⟨hrule, harity⟩ := invert_eq_ok hinvert
  have hchain : h.forward = .chain f'.forward g'.forward := by
    have hinverse : (f.compose g).inverse = some (.chain f'.forward g'.forward) := by
      simp only [compose, chainInverse, hfrule, hgrule]
    exact Option.some.inj (hrule.symm.trans hinverse)
  have hone : Arity.unary.accepts 1 = true := rfl
  refine ⟨h, hinvert, fun args => ?_⟩
  rw [value?_compose, value?_eq, value?_eq, harity, hfarity, hchain, Rule.apply, Outcome.toOption_bind]
  split
  · simp only [value?_eq, hgarity, List.length_singleton, hone, if_true]
  · rfl

/-! ### Successive calls -/

/-- Some calls and then others are as many calls as both together, if there is a first one. -/
theorem valueAfter?_add {m : Nat} (hm : 0 < m) (n : Nat) (args : List (Value F)) :
    f.valueAfter? c (n + m) args = (f.valueAfter? c m args).bind fun a => f.valueAfter? c n [a] := by
  induction m generalizing args with
  | zero => exact absurd hm (Nat.lt_irrefl 0)
  | succ m ih =>
    rw [← Nat.add_assoc, valueAfter?, valueAfter?, Option.bind_assoc]
    congr 1
    funext a
    cases m with
    | zero => rfl
    | succ m => exact ih (Nat.succ_pos m) [a]

/-- The calls of one function are successive calls of another. -/
def MakesCalls (c : Catalog F) (f : FunctionValue F) (n : Nat) (g : FunctionValue F) : Prop :=
  ∀ args, g.value? c args = f.valueAfter? c n args

/-- A function makes one call of itself. -/
theorem makesCalls_one (f : FunctionValue F) : MakesCalls c f 1 f := by
  intro args
  simp only [valueAfter?, Option.bind_fun_some]

/-- A composition makes the calls of both functions, of which the inner one makes the first. -/
theorem MakesCalls.compose {i j : Nat} (hg : MakesCalls c f i g) (hg' : MakesCalls c f j g') (hj : 0 < j) :
    MakesCalls c f (i + j) (g.compose g') := by
  intro args
  rw [value?_compose, hg' args, valueAfter?_add hj]
  congr 1
  funext a
  exact hg [a]

/-- Repeated squaring makes as many calls as the exponent says. -/
theorem exists_pow_natCast (f : FunctionValue F) (n : Nat) : ∃ g, f.pow n = .ok g ∧ MakesCalls c f n g := by
  -- Squares make at least one call, so that only the result so far can be the identity.
  have hmul {i j x y} (hx : MakesCalls c f i x) (hy : 0 < j ∧ MakesCalls c f j y) : MakesCalls c f (i + j) (x.compose y) :=
    hx.compose hy.2 hy.1
  have hsquare {j y} (hy : 0 < j ∧ MakesCalls c f j y) : 0 < j + j ∧ MakesCalls c f (j + j) (y.compose y) :=
    ⟨Nat.add_pos_left hy.1 j, hy.2.compose hy.2 hy.1⟩
  obtain ⟨g, hpow, hg⟩ := powFrom_induction (m := Outcome) (R := MakesCalls c f) (S := fun j y => 0 < j ∧ MakesCalls c f j y)
    hmul hsquare value?_identity ⟨Nat.one_pos, makesCalls_one f⟩ n
  rw [Nat.zero_add, Nat.one_mul] at hg
  refine ⟨g, ?_, hg⟩
  rw [pow, if_neg (Int.natCast_nonneg n).not_gt]
  exact hpow

/-- A negative power makes calls of the inverse. -/
theorem exists_pow_neg {n : Int} (hn : n < 0) (h : f.invert = .ok f') :
    ∃ g, f.pow n = .ok g ∧ MakesCalls c f' n.natAbs g := by
  obtain ⟨g, hpow, hg⟩ := exists_pow_natCast (c := c) f' n.natAbs
  refine ⟨g, ?_, hg⟩
  rw [pow, if_neg (Int.natCast_nonneg _).not_gt] at hpow
  rw [pow, if_pos hn, h]
  exact hpow

/-- Functions form an algebra of composition, as far as calls can tell. Composition is associative; the identity is neutral on the
outside, and on the inside at single arguments; a power is as many successive calls as its exponent says, of the inverse if the
exponent is negative, and the power with the exponent zero is the identity; a composition is invertible exactly when both functions
are, and its inverse is the composition of their inverses the other way round. -/
theorem composition_algebra (c : Catalog F) (f g h : FunctionValue F) :
    (∀ args, ((f.compose g).compose h).value? c args = (f.compose (g.compose h)).value? c args) ∧
    (∀ args, (identity.compose f).value? c args = f.value? c args) ∧
    (∀ a, (f.compose identity).value? c [a] = f.value? c [a]) ∧
    (∀ n : Int, 0 < n → ∃ p, f.pow n = .ok p ∧ ∀ args, p.value? c args = f.valueAfter? c n.natAbs args) ∧
    (∃ p, f.pow 0 = .ok p ∧ ∀ a, p.value? c [a] = some a) ∧
    (∀ n : Int, n < 0 → f.isInvertible = true → ∃ f' p, f.invert = .ok f' ∧ f.pow n = .ok p ∧
      ∀ args, p.value? c args = f'.valueAfter? c n.natAbs args) ∧
    ((f.compose g).isInvertible = true ↔ f.isInvertible = true ∧ g.isInvertible = true) ∧
    (f.isInvertible = true → g.isInvertible = true → ∃ f' g' p, f.invert = .ok f' ∧ g.invert = .ok g' ∧
      (f.compose g).invert = .ok p ∧ ∀ args, p.value? c args = (g'.compose f').value? c args) := by
  refine ⟨fun args => ?_, fun args => ?_, fun a => ?_, fun n hn => ?_, ?_, fun n hn hf => ?_, isInvertible_compose f g,
    fun hf hg => ?_⟩
  · simp only [value?_compose, Option.bind_assoc]
  · rw [value?_compose]
    simp only [value?_identity (f := f), valueAfter?, Option.bind_fun_some]
  · rw [value?_compose, value?_identity (f := f), valueAfter?, Option.bind_some]
  · have hpow := exists_pow_natCast (c := c) f n.natAbs
    rw [Int.natAbs_of_nonneg hn.le] at hpow
    exact hpow
  · obtain ⟨p, hpow, hp⟩ := exists_pow_natCast (c := c) f 0
    exact ⟨p, hpow, fun a => hp [a]⟩
  · obtain ⟨f', hinvert⟩ := isInvertible_iff.1 hf
    obtain ⟨p, hpow, hp⟩ := exists_pow_neg hn hinvert
    exact ⟨f', p, hinvert, hpow, hp⟩
  · obtain ⟨f', hinvert⟩ := isInvertible_iff.1 hf
    obtain ⟨g', hinvert'⟩ := isInvertible_iff.1 hg
    obtain ⟨p, hcompose, hp⟩ := exists_invert_compose hinvert hinvert'
    exact ⟨f', g', p, hinvert, hinvert', hcompose, hp⟩

/-- From kilometers to meters, to the power minus two: a number is divided by a thousand twice. -/
theorem pow_neg_two_of_kilometers :
    let meters : UnitOfMeasure ℚ := .base (.single "length")
    let kilometers := meters.withConversion (.ratio ⟨1000, 1⟩)
    let f := conversion "kilometer to meter" kilometers meters none
    f.isInvertible = true ∧
      ∃ p, f.pow (-2) = .ok p ∧ (p.value? .empty [.number 3000000]).bind Value.number? = some 3 := by
  intro meters kilometers f
  have hinvertible : f.isInvertible = true := rfl
  obtain ⟨f', p, hinvert, hpow, hp⟩ := (composition_algebra .empty f f f).2.2.2.2.2.1 (-2) (by decide) hinvertible
  obtain rfl := Except.ok.inj hinvert
  refine ⟨hinvertible, p, hpow, ?_⟩
  rw [hp]
  decide +kernel

end FunctionValue

end QuantityCalculus
