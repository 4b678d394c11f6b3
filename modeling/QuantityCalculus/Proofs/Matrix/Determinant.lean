import Mathlib.LinearAlgebra.Matrix.NonsingularInverse
import QuantityCalculus.Builtin.Matrices
import QuantityCalculus.Proofs.Evaluation.Outcome
import QuantityCalculus.Proofs.Matrix.Entries
import QuantityCalculus.Proofs.Numeric.Exact

/-!
# Determinants and inverses

In exact arithmetic the operations on matrices of numbers are those of linear algebra. The expansion along the first row is the sum
over all permutations, the cofactors make up the adjugate, and a matrix has an inverse unless its determinant is zero
(`leibniz_determinant_and_inverse`). All of it is proved for elements that stand for those of a ring, whatever they are.
-/

/-- A square matrix of linear algebra, with indices below its size. -/
abbrev Matrix.Square (n : ℕ) (K : Type) : Type := Matrix (Fin n) (Fin n) K

namespace QuantityCalculus

open ExactNumeric Outcome

variable {α K : Type} {r : ElementRing α} {ι : K → α} {n : ℕ}

/-! ## Square matrices -/

namespace Matrix

/-- The matrix whose elements stand for the entries. -/
def ofSquare (ι : K → α) (A : Matrix.Square n K) : Matrix α := ofEntries fun y x => ι (A y x)

/-- The matrix with an element in each place of the diagonal and zeros elsewhere. -/
def scalar (r : ElementRing α) (n : ℕ) (a : α) : Matrix α := ofFn n n fun y x => if y = x then a else r.zero

/-- The number of rows is the size. -/
@[simp] theorem height_ofSquare (A : Matrix.Square n K) : (ofSquare ι A).height = n := height_ofEntries _

/-- A matrix of a positive size is square. -/
theorem requireSquare_ofSquare (function : String) (A : Matrix.Square (n + 1) K) :
    requireSquare function (ofSquare ι A) = .ok () := by
  unfold requireSquare isSquare isEmpty ofSquare
  rw [width_ofEntries, height_ofEntries]
  simp

end Matrix

/-! ## Elements that stand for those of a ring -/

/-- The elements that a map gives are added, subtracted, multiplied and negated as those of a ring are. -/
structure ElementRing.Embeds {α K : Type} [CommRing K] (r : ElementRing α) (ι : K → α) : Prop where
  zero : r.zero = ι 0
  one : r.one = ι 1
  isZero_iff : ∀ p, r.isZero (ι p) = true ↔ p = 0
  add : ∀ p q, r.add (ι p) (ι q) = .ok (ι (p + q))
  sub : ∀ p q, r.sub (ι p) (ι q) = .ok (ι (p - q))
  mul : ∀ p q, r.mul (ι p) (ι q) = .ok (ι (p * q))
  neg : ∀ p, r.neg (ι p) = .ok (ι (-p))

section Ring

variable [CommRing K]

namespace ElementRing.Embeds

/-- The sum of a list stands for the sum. -/
theorem sum_map (h : r.Embeds ι) (ps : List K) : r.sum (ps.map fun p => .ok (ι p)) = .ok (ι ps.sum) := by
  have hfold (p : K) (ps : List K) :
      (ps.map fun p => (.ok (ι p) : Outcome α)).foldlM (fun total t => t >>= fun t => r.add total t) (ι p) =
        .ok (ι (p + ps.sum)) := by
    induction ps generalizing p with
    | nil =>
      rw [List.sum_nil, add_zero]
      rfl
    | cons q ps ih =>
      rw [List.map_cons, List.foldlM_cons, List.sum_cons, ← add_assoc]
      rw [ok_bind, h.add, ok_bind]
      exact ih (p + q)
  cases ps with
  | nil => exact congrArg Except.ok h.zero
  | cons p ps =>
    rw [List.sum_cons]
    exact hfold p ps

/-- The sum over indices stands for the sum. -/
theorem sum_ofFn (h : r.Embeds ι) {n : ℕ} (f : Fin n → K) : r.sum (List.ofFn fun i => .ok (ι (f i))) = .ok (ι (∑ i, f i)) := by
  have hmap : ((List.ofFn f).map fun p => (.ok (ι p) : Outcome α)) = List.ofFn fun i => .ok (ι (f i)) := List.map_ofFn
  rw [← hmap, h.sum_map, List.sum_ofFn]

end ElementRing.Embeds

namespace Matrix

/-! ## Products -/

/-- A scalar matrix stands for a multiple of one. -/
theorem scalar_eq_ofSquare (h : r.Embeds ι) (n : ℕ) (p : K) : scalar r n (ι p) = ofSquare ι (p • (1 : Matrix.Square n K)) := by
  unfold scalar ofSquare
  rw [ofFn_eq_ofEntries, h.zero]
  congr 1
  funext y x
  rw [Matrix.smul_apply, Matrix.one_apply, smul_ite, smul_eq_mul, mul_one, smul_zero, apply_ite ι]
  simp only [Fin.ext_iff]

/-- The identity matrix stands for one. -/
theorem identity_eq_ofSquare (h : r.Embeds ι) (n : ℕ) : identity r n = ofSquare ι (1 : Matrix.Square n K) := by
  have hscalar := scalar_eq_ofSquare h n 1
  rwa [← h.one, one_smul] at hscalar

/-- The product stands for the product. -/
theorem product_ofSquare (h : r.Embeds ι) (A B : Matrix.Square (n + 1) K) :
    product r (ofSquare ι A) (ofSquare ι B) = .ok (ofSquare ι (A * B)) := by
  have hentry (y x : Fin (n + 1)) :
      r.sum (List.zipWith r.mul (List.ofFn fun k => ι (A y k)) (List.ofFn fun k => ι (B k x))) = .ok (ι ((A * B) y x)) := by
    rw [zipWith_ofFn]
    simp only [h.mul]
    rw [h.sum_ofFn, Matrix.mul_apply]
  unfold product ofSquare
  rw [width_ofEntries, height_ofEntries, if_pos rfl, transpose_ofEntries]
  exact mapM_rows_ofEntries fun y => mapM_ofFn (hentry y)

/-! ## Determinants -/

/-- The sign of a place. -/
theorem signed_embeds (h : r.Embeds ι) (y x : ℕ) (p : K) : signed r y x (ι p) = .ok (ι ((-1) ^ (y + x) * p)) := by
  unfold signed
  rw [Nat.add_comm x y]
  split
  · rename_i heven
    rw [(Nat.even_iff.2 heven).neg_one_pow, one_mul]
  · rename_i hodd
    rw [(Nat.odd_iff.2 (Nat.mod_two_ne_zero.1 hodd)).neg_one_pow, neg_one_mul, h.neg]

/-- The expansion along the first row. -/
theorem expand_ofEntries (f : Fin (n + 3) → Fin (n + 3) → α) :
    expand r (n + 3) (ofEntries f) = r.sum (List.ofFn fun x : Fin (n + 3) => do
      r.mul (f 0 x) (← signed r 0 x (← expand r (n + 2) (ofEntries fun i j => f i.succ (x.succAbove j))))) := by
  have hrows : ofEntries f = ⟨List.ofFn (f 0) :: List.ofFn fun y => List.ofFn (f y.succ)⟩ := congrArg Matrix.mk List.ofFn_succ
  have hminor (x : Fin (n + 3)) :
      minor ⟨List.ofFn (f 0) :: List.ofFn fun y => List.ofFn (f y.succ)⟩ 0 x = ofEntries fun i j => f i.succ (x.succAbove j) := by
    rw [← hrows]
    exact minor_ofEntries f 0 x
  rw [hrows, expand, zipIdx_ofFn, List.map_ofFn]
  congr 2
  funext x
  simp only [Function.comp_apply, hminor]

/-- The expansion is the determinant. -/
theorem expand_ofSquare (h : r.Embeds ι) : ∀ {n : ℕ} (A : Matrix.Square (n + 1) K),
    expand r (n + 1) (ofSquare ι A) = .ok (ι A.det)
  | 0, A => by
    rw [Matrix.det_fin_one]
    rfl
  | 1, A => by
    rw [Matrix.det_fin_two]
    show (r.mul (ι (A 0 0)) (ι (A 1 1)) >>= fun p => r.mul (ι (A 0 1)) (ι (A 1 0)) >>= fun q => r.sub p q) = _
    rw [h.mul, h.mul, ok_bind, ok_bind, h.sub]
  | n + 2, A => by
    have hterm (x : Fin (n + 3)) :
        (do r.mul (ι (A 0 x)) (← signed r 0 x (← expand r (n + 2) (ofEntries fun i j => ι (A i.succ (x.succAbove j)))))) =
          .ok (ι ((-1) ^ (x : ℕ) * A 0 x * (A.submatrix Fin.succ x.succAbove).det)) := by
      have hminor := expand_ofSquare h (A.submatrix Fin.succ x.succAbove)
      unfold ofSquare at hminor
      simp only [Matrix.submatrix_apply] at hminor
      rw [hminor, ok_bind, signed_embeds h, ok_bind, h.mul, Nat.zero_add, mul_left_comm, mul_assoc]
    unfold ofSquare
    rw [expand_ofEntries]
    simp only [hterm]
    rw [h.sum_ofFn, Matrix.det_succ_row_zero]

/-- The determinant is the determinant. -/
theorem determinant_ofSquare (h : r.Embeds ι) (A : Matrix.Square (n + 1) K) :
    determinant r (ofSquare ι A) = .ok (ι A.det) := by
  unfold determinant
  rw [requireSquare_ofSquare, ok_bind, height_ofSquare, expand_ofSquare h]

/-! ## Cofactors -/

/-- The cofactor of a place is in the transposed place of the adjugate. -/
theorem cofactorAt_ofSquare (h : r.Embeds ι) (A : Matrix.Square (n + 2) K) (y x : Fin (n + 2)) :
    cofactorAt r (ofSquare ι A) y x = .ok (ι (A.adjugate x y)) := by
  have hminor : (ofSquare ι A).minor y x = ofSquare ι (A.submatrix y.succAbove x.succAbove) := minor_ofEntries _ y x
  unfold cofactorAt
  have hsize : n + 2 - 1 = n + 1 := rfl
  rw [height_ofSquare, hminor, hsize, expand_ofSquare h, ok_bind, signed_embeds h,
    Matrix.adjugate_fin_succ_eq_det_submatrix]

/-- The matrix of the cofactors is the adjugate, transposed. -/
theorem comatrix_ofSquare (h : r.Embeds ι) (A : Matrix.Square (n + 1) K) :
    comatrix r (ofSquare ι A) = .ok (ofSquare ι A.adjugate.transpose) := by
  unfold comatrix
  dsimp only
  rw [requireSquare_ofSquare, ok_bind, height_ofSquare]
  cases n with
  | zero =>
    rw [if_pos rfl, pure_eq_ok, identity_eq_ofSquare h, Matrix.adjugate_fin_one, Matrix.transpose_one]
  | succ n =>
    have hplaces : (List.range (n + 2)).map id = List.ofFn fun y : Fin (n + 2) => y.val := map_range_eq_ofFn id
    rw [List.map_id] at hplaces
    have hrows : ((List.range (n + 2)).mapM fun y => (List.range (n + 2)).mapM fun x => cofactorAt r (ofSquare ι A) y x) =
        .ok (ofSquare ι A.adjugate.transpose).rows := by
      rw [hplaces]
      exact mapM_ofFn fun y => mapM_ofFn fun x => cofactorAt_ofSquare h A y x
    rw [if_neg (by omega), hrows]
    rfl

/-- The adjugate is the adjugate. -/
theorem adjugate_ofSquare (h : r.Embeds ι) (A : Matrix.Square (n + 1) K) :
    adjugate r (ofSquare ι A) = .ok (ofSquare ι A.adjugate) := by
  unfold adjugate
  rw [comatrix_ofSquare h]
  exact congrArg Except.ok (transpose_ofEntries _)

end Matrix

end Ring

/-! ## Inverses -/

namespace Matrix

variable [Field K] {div : α → α → Outcome α}

/-- A matrix whose determinant is zero has no inverse. -/
theorem inverse_ofSquare_singular (h : r.Embeds ι) {A : Matrix.Square (n + 1) K} (hdet : A.det = 0) :
    inverse r div (ofSquare ι A) = .error (.domain "inv" .singular) := by
  unfold inverse
  rw [requireSquare_ofSquare, ok_bind, height_ofSquare, expand_ofSquare h, ok_bind, if_pos ((h.isZero_iff _).2 hdet)]

/-- The inverse is the inverse. -/
theorem inverse_ofSquare (h : r.Embeds ι) (hdiv : ∀ p q, q ≠ 0 → div (ι p) (ι q) = .ok (ι (p / q))) {A : Matrix.Square (n + 1) K}
    (hdet : A.det ≠ 0) : inverse r div (ofSquare ι A) = .ok (ofSquare ι A⁻¹) := by
  have hentry (y x : Fin (n + 1)) : div (ι (A.adjugate y x)) (ι A.det) = .ok (ι (A⁻¹ y x)) := by
    rw [hdiv _ _ hdet, Matrix.inv_def, Matrix.smul_apply, Ring.inverse_eq_inv', smul_eq_mul, div_eq_inv_mul]
  unfold inverse
  rw [requireSquare_ofSquare, ok_bind, height_ofSquare, expand_ofSquare h, ok_bind, if_neg fun hzero => hdet ((h.isZero_iff _).1 hzero),
    adjugate_ofSquare h, ok_bind]
  exact mapM_rows_ofEntries fun y => mapM_ofFn (hentry y)

end Matrix

/-! ## Matrices of numbers -/

variable {F : Type} [ExactNumeric F] {c : Catalog F}

/-- The number that a rational is. -/
def Value.ofRat (q : ℚ) : Value F := .number (ExactNumeric.ofRat q)

/-- Numbers stand for rationals. -/
theorem Value.embeds_ofRat : (Builtin.elements c).Embeds (Value.ofRat (F := F)) where
  zero := congrArg Value.number (toRat_injective (by simp))
  one := congrArg Value.number (toRat_injective (by simp))
  isZero_iff p := by
    show (ExactNumeric.ofRat p == (0 : F)) = true ↔ p = 0
    rw [beq_iff, toRat_ofRat, toRat_zero]
  add p q := congrArg (Except.ok ∘ Value.number) (toRat_injective (by simp))
  sub p q := congrArg (Except.ok ∘ Value.number) (toRat_injective (by rw [toRat_sub]; simp))
  mul p q := congrArg (Except.ok ∘ Value.number) (toRat_injective (by simp))
  neg p := congrArg (Except.ok ∘ Value.number) (toRat_injective (by simp))

/-- Numbers are divided as rationals. -/
theorem Value.div_ofRat (p : ℚ) {q : ℚ} (hq : q ≠ 0) :
    Algebra.div c (Value.ofRat p) (Value.ofRat q) = .ok (Value.ofRat (p / q)) := by
  refine congrArg (Except.ok ∘ Value.number) (toRat_injective ?_)
  rw [toRat_div _ _ (by rwa [toRat_ofRat])]
  simp

namespace Matrix

/-- A matrix of a size whose elements are plain numbers. -/
structure IsNumeric (m : Matrix (Value F)) (n : ℕ) : Prop where
  hasSize : m.HasSize n n
  isNumber : ∀ row ∈ m.rows, ∀ a ∈ row, ∃ x, a = .number x

/-- The rational in a place of a matrix of numbers. -/
def entry (m : Matrix (Value F)) (y x : ℕ) : ℚ := (((m.get? y x).bind Value.number?).map toRat).getD 0

/-- A matrix of numbers stands for a matrix of rationals. -/
theorem IsNumeric.exists_eq_ofSquare {m : Matrix (Value F)} (hm : m.IsNumeric n) :
    ∃ A : Matrix.Square n ℚ, m = ofSquare Value.ofRat A := by
  obtain ⟨f, rfl⟩ := hm.hasSize.exists_eq_ofEntries
  have hnumber (y x : Fin n) : ∃ a, f y x = .number a :=
    hm.isNumber _ (List.mem_ofFn.2 ⟨y, rfl⟩) _ (List.mem_ofFn.2 ⟨x, rfl⟩)
  choose a ha using hnumber
  refine ⟨fun y x => toRat (a y x), congrArg ofEntries (funext fun y => funext fun x => ?_)⟩
  rw [ha, Value.ofRat, ofRat_toRat]

/-- The rationals that a matrix stands for are its entries. -/
theorem entry_ofSquare (A : Matrix.Square n ℚ) (y x : Fin n) : (ofSquare (Value.ofRat (F := F)) A).entry y x = A y x := by
  unfold entry ofSquare
  rw [get?_ofEntries]
  exact toRat_ofRat _

/-- A matrix of numbers has the determinant that is the sum over all permutations. Its products with the adjugate are the
determinant times the identity, and it has an inverse on both sides exactly if the determinant is not zero. -/
theorem leibniz_determinant_and_inverse (c : Catalog F) {n : ℕ} (hn : 0 < n) {m : Matrix (Value F)} (hm : m.IsNumeric n) :
    ∃ (d : F) (adj : Matrix (Value F)),
      determinant (Builtin.elements c) m = .ok (.number d) ∧
      toRat d = ∑ σ : Equiv.Perm (Fin n), ((Equiv.Perm.sign σ : ℤ) : ℚ) * ∏ y : Fin n, m.entry y (σ y) ∧
      adjugate (Builtin.elements c) m = .ok adj ∧
      product (Builtin.elements c) m adj = .ok (scalar (Builtin.elements c) n (.number d)) ∧
      product (Builtin.elements c) adj m = .ok (scalar (Builtin.elements c) n (.number d)) ∧
      (inverse (Builtin.elements c) (Algebra.div c) m = .error (.domain "inv" .singular) ↔ d = 0) ∧
      (d ≠ 0 → ∃ inv, inverse (Builtin.elements c) (Algebra.div c) m = .ok inv ∧
        product (Builtin.elements c) m inv = .ok (identity (Builtin.elements c) n) ∧
        product (Builtin.elements c) inv m = .ok (identity (Builtin.elements c) n)) := by
  obtain ⟨n, rfl⟩ := Nat.exists_eq_add_one_of_ne_zero hn.ne'
  obtain ⟨A, rfl⟩ := hm.exists_eq_ofSquare
  have hembeds := Value.embeds_ofRat (F := F) (c := c)
  have hscalar : scalar (Builtin.elements c) (n + 1) (.number (ExactNumeric.ofRat A.det)) =
      ofSquare Value.ofRat (A.det • (1 : Matrix.Square (n + 1) ℚ)) := scalar_eq_ofSquare hembeds (n + 1) A.det
  have hidentity := identity_eq_ofSquare hembeds (n + 1)
  have hzero : (ExactNumeric.ofRat A.det : F) = 0 ↔ A.det = 0 := by
    rw [← toRat_injective.eq_iff, toRat_ofRat, toRat_zero]
  have hinverse (hdet : A.det ≠ 0) := inverse_ofSquare hembeds (fun p _ hq => Value.div_ofRat (c := c) p hq) hdet
  refine ⟨ExactNumeric.ofRat A.det, ofSquare Value.ofRat A.adjugate, determinant_ofSquare hembeds A, ?_, adjugate_ofSquare hembeds A,
    ?_, ?_, ⟨fun herror => ?_, fun hdet => inverse_ofSquare_singular hembeds (hzero.1 hdet)⟩, fun hdet => ?_⟩
  · simp only [entry_ofSquare]
    rw [toRat_ofRat, ← Matrix.det_transpose, Matrix.det_apply']
    rfl
  · rw [product_ofSquare hembeds, Matrix.mul_adjugate, hscalar]
  · rw [product_ofSquare hembeds, Matrix.adjugate_mul, hscalar]
  · by_contra hdet
    rw [hinverse fun h => hdet (hzero.2 h)] at herror
    nomatch herror
  · have hunit : IsUnit A.det := isUnit_iff_ne_zero.2 fun h => hdet (hzero.2 h)
    refine ⟨_, hinverse hunit.ne_zero, ?_, ?_⟩
    · rw [product_ofSquare hembeds, Matrix.mul_nonsing_inv A hunit, hidentity]
    · rw [product_ofSquare hembeds, Matrix.nonsing_inv_mul A hunit, hidentity]

/-- A matrix of three rows with the determinant six, and its inverse. -/
theorem inverse_of_three_rows :
    let m : Matrix (Value ℚ) := ⟨[[.number 2, .number 0, .number 1], [.number 1, .number 3, .number 2], [.number 1, .number 1, .number 2]]⟩
    let r : ElementRing (Value ℚ) := Builtin.elements .empty
    0 < 3 ∧ m.IsNumeric 3 ∧ determinant r m = .ok (.number 6) ∧
      ∃ inv, inverse r (Algebra.div .empty) m = .ok inv ∧ product r m inv = .ok (identity r 3) ∧
        product r inv m = .ok (identity r 3) := by
  intro m r
  have hm : m.IsNumeric 3 := by
    refine ⟨⟨rfl, ?_⟩, ?_⟩
    · simp [m]
    · simp [m]
  obtain ⟨d, adj, hdet, -, -, -, -, -, hinverse⟩ := leibniz_determinant_and_inverse .empty (by decide : 0 < 3) hm
  have hvalue : (determinant r m).toOption.bind Value.number? = some 6 := by decide +kernel
  obtain rfl : d = 6 := by
    rw [hdet] at hvalue
    exact Option.some.inj hvalue
  exact ⟨by decide, hm, hdet, hinverse (by decide)⟩

end Matrix

end QuantityCalculus
