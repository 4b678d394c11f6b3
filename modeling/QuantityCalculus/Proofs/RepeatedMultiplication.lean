import QuantityCalculus.Proofs.RepeatedSquaring

/-!
# Repeated squaring as repeated multiplication

The power by repeated squaring is the base multiplied by itself with as many factors as the exponent says, for any associative
multiplication; factors need not commute (`powBySquaring_eq_selfProduct`). Where a multiplication fails, the power is given up at once:
its error is that of the last product it asked for (`observes_powFrom`).
-/

namespace QuantityCalculus

/-! ## Products of one factor -/

section Products

variable {α : Type} {mul : α → α → α} {one base : α}

/-- The base multiplied by itself: as many factors as the exponent says, and the neutral element for none. -/
def selfProduct (mul : α → α → α) (one base : α) : Nat → α
  | 0 => one
  | 1 => base
  | n + 2 => mul (selfProduct mul one base (n + 1)) base

/-- A product with one more factor. -/
theorem selfProduct_succ (hone : ∀ x, mul one x = x) (n : Nat) :
    selfProduct mul one base (n + 1) = mul (selfProduct mul one base n) base := by
  cases n with
  | zero => exact (hone base).symm
  | succ n => rfl

/-- Products of one factor are multiplied by adding the numbers of their factors. -/
theorem mul_selfProduct (hassoc : ∀ x y z, mul (mul x y) z = mul x (mul y z)) (hone : ∀ x, mul one x = x) (i j : Nat) :
    mul (selfProduct mul one base i) (selfProduct mul one base (j + 1)) = selfProduct mul one base (i + (j + 1)) := by
  induction j with
  | zero => exact (selfProduct_succ hone i).symm
  | succ j ih =>
    calc mul (selfProduct mul one base i) (mul (selfProduct mul one base (j + 1)) base)
      _ = mul (mul (selfProduct mul one base i) (selfProduct mul one base (j + 1))) base := (hassoc ..).symm
      _ = mul (selfProduct mul one base (i + (j + 1))) base := by rw [ih]
      _ = selfProduct mul one base (i + (j + 1) + 1) := (selfProduct_succ hone _).symm

/-- The power by repeated squaring is the product of the base with itself. -/
theorem powBySquaring_eq_selfProduct {m : Type → Type} [Monad m] [LawfulMonad m]
    (hassoc : ∀ x y z, mul (mul x y) z = mul x (mul y z)) (hone : ∀ x, mul one x = x) (n : Nat) :
    powBySquaring (m := m) (fun x y => pure (mul x y)) one base n = pure (selfProduct mul one base n) := by
  have hmul {i j : Nat} {x y : α} (hx : x = selfProduct mul one base i)
      (hy : 0 < j ∧ y = selfProduct mul one base j) : mul x y = selfProduct mul one base (i + j) := by
    obtain ⟨hj, rfl⟩ := hy
    obtain ⟨j, rfl⟩ := Nat.exists_eq_succ_of_ne_zero (Nat.ne_of_gt hj)
    rw [hx, mul_selfProduct hassoc hone]
  obtain ⟨x, hpower, hx⟩ := powFrom_induction (m := m) (R := fun i x => x = selfProduct mul one base i)
    (S := fun j y => 0 < j ∧ y = selfProduct mul one base j) hmul (fun hy => ⟨Nat.add_pos_left hy.1 _, hmul hy.2 hy⟩)
    (i := 0) (j := 1) (show one = selfProduct mul one base 0 from rfl) ⟨Nat.one_pos, show base = selfProduct mul one base 1 from rfl⟩ n
  rw [powBySquaring, hpower, hx, Nat.zero_add, Nat.one_mul]

end Products

/-! ## Products that may fail -/

section Failures

variable {ε σ α : Type}

/-- A multiplication that may fail and has a state of its own, as one that also records what every product came to. -/
def observed (mul : α → α → ExceptT ε (StateM σ) α) (x y : α) : ExceptT ε (StateM (σ × List (Except ε α))) α :=
  ExceptT.mk fun (s, outcomes) =>
    let product := (mul x y).run.run s
    (product.1, product.2, outcomes ++ [product.1])

/-- What the products before the end came to, given how a computation ended: none of them failed but the last one, and that one with the
error of the computation. -/
def EndsAtFailure : Except ε α → List (Except ε α) → Prop
  | .ok _, outcomes => ∃ products : List α, outcomes = products.map .ok
  | .error e, outcomes => ∃ products : List α, outcomes = products.map .ok ++ [.error e]

/-- One computation is the other one with a record of its products, and it ends at the first failure. -/
def Observes (p : ExceptT ε (StateM (σ × List (Except ε α))) α) (q : ExceptT ε (StateM σ) α) : Prop :=
  ∀ s before, ∃ outcome s' outcomes,
    p.run.run (s, before) = (outcome, s', before ++ outcomes) ∧ q.run.run s = (outcome, s') ∧ EndsAtFailure outcome outcomes

/-- No product is asked for. -/
theorem observes_pure (x : α) :
    Observes (pure x : ExceptT ε (StateM (σ × List (Except ε α))) α) (pure x : ExceptT ε (StateM σ) α) := by
  intro s before
  refine ⟨.ok x, s, [], ?_, rfl, [], rfl⟩
  rw [List.append_nil]
  rfl

/-- A single product is recorded. -/
theorem observes_observed (mul : α → α → ExceptT ε (StateM σ) α) (x y : α) : Observes (observed mul x y) (mul x y) := by
  intro s before
  refine ⟨_, _, [((mul x y).run.run s).1], rfl, rfl, ?_⟩
  cases ((mul x y).run.run s).1 with
  | error e => exact ⟨[], rfl⟩
  | ok z => exact ⟨[z], rfl⟩

/-- A computation goes on from the state that the one before left, unless that failed. -/
theorem run_exceptState_bind {τ : Type} (p : ExceptT ε (StateM τ) α) (f : α → ExceptT ε (StateM τ) α) (t : τ) :
    (p >>= f).run.run t = match p.run.run t with
      | (.error e, t') => (.error e, t')
      | (.ok x, t') => (f x).run.run t' := by
  rw [ExceptT.run_bind, StateT.run_bind]
  obtain ⟨outcome, t'⟩ := p.run.run t
  cases outcome <;> rfl

/-- What is asked for after a computation is recorded after it, unless that failed. -/
theorem Observes.bind {p : ExceptT ε (StateM (σ × List (Except ε α))) α} {q : ExceptT ε (StateM σ) α} (h : Observes p q)
    {f : α → ExceptT ε (StateM (σ × List (Except ε α))) α} {g : α → ExceptT ε (StateM σ) α} (hf : ∀ x, Observes (f x) (g x)) :
    Observes (p >>= f) (q >>= g) := by
  intro s before
  obtain ⟨outcome, s', outcomes, hp, hq, hends⟩ := h s before
  rw [run_exceptState_bind, hp, run_exceptState_bind, hq]
  cases outcome with
  | error e => exact ⟨.error e, s', outcomes, rfl, rfl, hends⟩
  | ok x =>
    obtain ⟨outcome, s'', later, hp, hq, hlater⟩ := hf x s' (before ++ outcomes)
    obtain ⟨products, rfl⟩ := hends
    refine ⟨outcome, s'', products.map .ok ++ later, by rw [← List.append_assoc]; exact hp, hq, ?_⟩
    cases outcome with
    | error e =>
      obtain ⟨more, rfl⟩ := hlater
      exact ⟨products ++ more, by rw [List.map_append, List.append_assoc]⟩
    | ok y =>
      obtain ⟨more, rfl⟩ := hlater
      exact ⟨products ++ more, by rw [List.map_append]⟩

/-- The power asks for its products one after another, and for none after one that failed. -/
theorem observes_powFrom (mul : α → α → ExceptT ε (StateM σ) α) (result square : α) (n : Nat) :
    Observes (powFrom (observed mul) result square n) (powFrom mul result square n) := by
  induction n using Nat.strongRecOn generalizing result square with
  | _ n ih =>
    rw [powFrom, powFrom]
    by_cases hzero : n = 0
    · rw [if_pos hzero, if_pos hzero]
      exact observes_pure result
    rw [if_neg hzero, if_neg hzero]
    -- What is left after the lowest digit, whether or not that digit was multiplied into the result.
    have hrest (result : α) : Observes
        (if _h : n / 2 = 0 then pure result
          else observed mul square square >>= fun square => powFrom (observed mul) result square (n / 2))
        (if _h : n / 2 = 0 then pure result else mul square square >>= fun square => powFrom mul result square (n / 2)) := by
      split
      · exact observes_pure result
      · exact (observes_observed mul square square).bind fun next => ih (n / 2) (by omega) result next
    dsimp only
    by_cases hodd : n % 2 = 1
    · rw [if_pos hodd, if_pos hodd]
      exact (observes_observed mul result square).bind hrest
    · rw [if_neg hodd, if_neg hodd, pure_bind, pure_bind]
      exact hrest result

/-- Repeated squaring is repeated multiplication. If the multiplication is associative, never fails and has the neutral element on the
left, the power is the base multiplied by itself as often as the exponent says. Whatever the multiplication is, the power makes no product
for the exponent zero, and it ends at the first product that fails, with the error of that product; what it comes to is what it comes to
when its products are recorded. -/
theorem powBySquaring_multiplies (one base : α) (n : Nat) :
    (∀ mul : α → α → α, (∀ x y z, mul (mul x y) z = mul x (mul y z)) → (∀ x, mul one x = x) →
      powBySquaring (fun x y => (.ok (mul x y) : Except ε α)) one base n = .ok (selfProduct mul one base n)) ∧
    ∀ (mul : α → α → ExceptT ε (StateM σ) α) (s : σ),
      (powBySquaring (observed mul) one base 0).run.run (s, []) = (.ok one, s, []) ∧
      ∃ outcome s' outcomes,
        (powBySquaring (observed mul) one base n).run.run (s, []) = (outcome, s', outcomes) ∧
        (powBySquaring mul one base n).run.run s = (outcome, s') ∧ EndsAtFailure outcome outcomes := by
  refine ⟨fun mul hassoc hone => powBySquaring_eq_selfProduct (m := Except ε) hassoc hone n, fun mul s => ⟨?_, ?_⟩⟩
  · rw [powBySquaring, powFrom, if_pos rfl]
    rfl
  · exact observes_powFrom mul one base n s []

/-- A concatenation that works as often as its state says. -/
def limitedAppend (x y : List Nat) : ExceptT String (StateM Nat) (List Nat) :=
  ExceptT.mk fun
    | 0 => (.error "exhausted", 0)
    | n + 1 => (.ok (x ++ y), n)

/-- Five copies of a list take four concatenations, and with three of them the fourth one fails. -/
theorem five_copies_of_list :
    ((∀ x y z : List Nat, x ++ y ++ z = x ++ (y ++ z)) ∧ ∀ x : List Nat, [] ++ x = x) ∧
      powBySquaring (fun x y => (.ok (x ++ y) : Except String (List Nat))) [] [1, 2] 5 = .ok [1, 2, 1, 2, 1, 2, 1, 2, 1, 2] ∧
      (powBySquaring limitedAppend [] [1, 2] 5).run.run 3 = (.error "exhausted", 0) ∧
      ∃ products : List (List Nat), ((powBySquaring (observed limitedAppend) [] [1, 2] 5).run.run (3, [])).2.2 =
        products.map .ok ++ [.error "exhausted"] := by
  obtain ⟨hpower, hfails⟩ := powBySquaring_multiplies (ε := String) (σ := Nat) ([] : List Nat) [1, 2] 5
  obtain ⟨-, outcome, s', outcomes, hobserved, hplain, hends⟩ := hfails limitedAppend 3
  have hexhausted : (powBySquaring limitedAppend [] [1, 2] 5).run.run 3 = (.error "exhausted", 0) := by with_unfolding_all rfl
  obtain ⟨rfl, rfl⟩ := Prod.mk.inj (hplain.symm.trans hexhausted)
  exact ⟨⟨List.append_assoc, List.nil_append⟩, hpower _ List.append_assoc List.nil_append, hexhausted, by rw [hobserved]; exact hends⟩

end Failures

end QuantityCalculus
