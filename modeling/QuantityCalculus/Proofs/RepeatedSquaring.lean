import QuantityCalculus.RepeatedSquaring

/-!
# Repeated squaring as induction

What the loop of repeated squaring keeps. The result so far and the square that is multiplied into it next have exponents of their own, and
a property of exponents that every product hands on holds of the power in the end.
-/

namespace QuantityCalculus

variable {m : Type → Type} [Monad m] [LawfulMonad m] {α : Type} {R S : Nat → α → Prop}

/-- Induction over repeated squaring: `R` holds of results and `S` of squares, each with its exponent, and their products do not
fail. -/
theorem powFrom_invariant (mul : α → α → m α) (hmul : ∀ {i j x y}, R i x → S j y → ∃ z, mul x y = pure z ∧ R (i + j) z)
    (hsquare : ∀ {j y}, S j y → ∃ z, mul y y = pure z ∧ S (j + j) z) {i j : Nat} {result square : α} (hR : R i result)
    (hS : S j square) (n : Nat) : ∃ x, powFrom mul result square n = pure x ∧ R (i + j * n) x := by
  induction n using Nat.strongRecOn generalizing i j result square with
  | _ n ih =>
    rw [powFrom]
    by_cases hzero : n = 0
    · rw [if_pos hzero, hzero]
      exact ⟨result, rfl, hR⟩
    rw [if_neg hzero]
    have hsplit : n % 2 + 2 * (n / 2) = n := Nat.mod_add_div n 2
    -- What is left after the lowest digit, whether or not that digit was multiplied into the result.
    have hrest {i : Nat} {result : α} (hR : R i result) : ∃ x,
        (if _h : n / 2 = 0 then pure result
          else mul square square >>= fun square => powFrom mul result square (n / 2)) = pure x ∧
        R (i + j * (2 * (n / 2))) x := by
      split
      · rename_i hhalf
        rw [hhalf]
        exact ⟨result, rfl, hR⟩
      · obtain ⟨next, hnext, hS⟩ := hsquare hS
        have hdouble : j * (2 * (n / 2)) = (j + j) * (n / 2) := by rw [← Nat.two_mul, Nat.mul_left_comm, Nat.mul_assoc]
        rw [hdouble, hnext, pure_bind]
        exact ih (n / 2) (by omega) hR hS
    dsimp only
    by_cases hodd : n % 2 = 1
    · rw [if_pos hodd]
      obtain ⟨next, hnext, hR⟩ := hmul hR hS
      have hexponent : i + j * n = i + j + j * (2 * (n / 2)) :=
        calc i + j * n
          _ = i + j * (1 + 2 * (n / 2)) := by rw [← hodd, hsplit]
          _ = i + j + j * (2 * (n / 2)) := by rw [Nat.mul_add, Nat.mul_one, Nat.add_assoc]
      rw [hexponent, hnext, pure_bind]
      exact hrest hR
    · rw [if_neg hodd]
      have hexponent : i + j * n = i + j * (2 * (n / 2)) := by
        rw [← Nat.zero_add (2 * (n / 2)), ← Nat.mod_two_ne_one.1 hodd, hsplit]
      rw [hexponent, pure_bind]
      exact hrest hR

/-- Induction over repeated squaring by products that cannot fail. -/
theorem powFrom_induction {mul : α → α → α} (hmul : ∀ {i j x y}, R i x → S j y → R (i + j) (mul x y))
    (hsquare : ∀ {j y}, S j y → S (j + j) (mul y y)) {i j : Nat} {result square : α} (hR : R i result) (hS : S j square)
    (n : Nat) :
    ∃ x, powFrom (m := m) (fun x y => pure (mul x y)) result square n = pure x ∧ R (i + j * n) x :=
  powFrom_invariant (fun x y => pure (mul x y)) (fun hx hy => ⟨_, rfl, hmul hx hy⟩) (fun hy => ⟨_, rfl, hsquare hy⟩) hR hS n

end QuantityCalculus
