import Mathlib.Data.Fin.SuccPred
import Mathlib.Data.List.OfFn
import QuantityCalculus.Matrix

/-!
# Matrices by their entries

A matrix of a size is made of its entries, which have an index below the height and one below the width
(`HasSize.exists_eq_ofEntries`). What an operation does to a matrix is what it does to these indices.
-/

namespace QuantityCalculus.Matrix

variable {α : Type} {h w : ℕ}

/-! ## Lists by their elements -/

/-- A list without one of its elements skips the index of that element. -/
theorem eraseIdx_ofFn {n : ℕ} (f : Fin (n + 1) → α) (i : Fin (n + 1)) :
    (List.ofFn f).eraseIdx i = List.ofFn fun j => f (i.succAbove j) := by
  have hlength : ((List.ofFn f).eraseIdx i).length = n := by
    rw [List.length_eraseIdx_of_lt (by rw [List.length_ofFn]; exact i.isLt), List.length_ofFn, Nat.add_sub_cancel]
  refine List.ext_getElem (by rw [hlength, List.length_ofFn]) fun j hj _ => ?_
  rw [List.getElem_eraseIdx]
  simp only [List.getElem_ofFn]
  split
  · rename_i hlt
    exact congrArg f (Fin.succAbove_of_castSucc_lt i ⟨j, hlength ▸ hj⟩ hlt).symm
  · rename_i hle
    exact congrArg f (Fin.succAbove_of_le_castSucc i ⟨j, hlength ▸ hj⟩ (not_lt.1 hle)).symm

/-- Elements that all have an image are all kept. -/
theorem filterMap_ofFn {β : Type} {n : ℕ} {f : Fin n → α} {g : Fin n → β} {p : α → Option β} (hp : ∀ i, p (f i) = some (g i)) :
    (List.ofFn f).filterMap p = List.ofFn g := by
  induction n with
  | zero => rfl
  | succ n ih =>
    rw [List.ofFn_succ, List.ofFn_succ, List.filterMap_cons_some (hp 0), ih fun i => hp i.succ]

/-- Computations that all succeed give a list. -/
theorem mapM_ofFn {ε β : Type} {n : ℕ} {f : Fin n → α} {g : Fin n → β} {p : α → Except ε β} (hp : ∀ i, p (f i) = .ok (g i)) :
    (List.ofFn f).mapM p = .ok (List.ofFn g) := by
  induction n with
  | zero => rfl
  | succ n ih =>
    rw [List.ofFn_succ, List.ofFn_succ, List.mapM_cons, hp 0, ih fun i => hp i.succ]
    rfl

/-- Two lists are combined index by index. -/
theorem zipWith_ofFn {β γ : Type} {n : ℕ} (p : α → β → γ) (f : Fin n → α) (g : Fin n → β) :
    List.zipWith p (List.ofFn f) (List.ofFn g) = List.ofFn fun i => p (f i) (g i) :=
  List.ext_getElem (by simp) fun _ _ _ => by simp

/-- Each element with its index. -/
theorem zipIdx_ofFn {n : ℕ} (f : Fin n → α) : (List.ofFn f).zipIdx = List.ofFn fun i => (f i, i.val) :=
  List.ext_getElem (by simp) fun _ _ _ => by simp

/-- The images of the numbers below another one. -/
theorem map_range_eq_ofFn {n : ℕ} (f : ℕ → α) : (List.range n).map f = List.ofFn fun i : Fin n => f i :=
  List.ext_getElem (by simp) fun _ _ _ => by simp

/-! ## Entries -/

/-- The matrix with an entry for each index of a row and each index of a column. -/
def ofEntries (f : Fin h → Fin w → α) : Matrix α := ⟨List.ofFn fun y => List.ofFn (f y)⟩

/-- The number of rows, and the number of elements of each. -/
structure HasSize (m : Matrix α) (h w : ℕ) : Prop where
  height : m.height = h
  width : ∀ row ∈ m.rows, row.length = w

/-- A matrix of a size has entries. -/
theorem HasSize.exists_eq_ofEntries {m : Matrix α} (hm : m.HasSize h w) : ∃ f : Fin h → Fin w → α, m = ofEntries f := by
  obtain ⟨rows⟩ := m
  obtain ⟨hheight, hwidth⟩ := hm
  subst hheight
  have hrow (y : Fin rows.length) : rows[y].length = w := hwidth _ (List.getElem_mem _)
  let f (y : Fin rows.length) (x : Fin w) : α := rows[y].get (x.cast (hrow y).symm)
  have hf (y : Fin rows.length) : List.ofFn (f y) = rows[y] :=
    List.ext_getElem (List.length_ofFn.trans (hrow y).symm) fun x _ _ => List.getElem_ofFn _
  refine ⟨f, congrArg Matrix.mk (List.ext_getElem List.length_ofFn.symm fun y hy _ => ?_)⟩
  rw [List.getElem_ofFn]
  exact (hf ⟨y, hy⟩).symm

/-- The size of a matrix with entries. -/
theorem hasSize_ofEntries (f : Fin h → Fin w → α) : (ofEntries f).HasSize h w where
  height := List.length_ofFn
  width := List.forall_mem_ofFn_iff.2 fun _ => List.length_ofFn

/-- The number of rows of a matrix with entries. -/
@[simp] theorem height_ofEntries (f : Fin h → Fin w → α) : (ofEntries f).height = h := (hasSize_ofEntries f).height

/-- The number of columns of a matrix with entries. -/
@[simp] theorem width_ofEntries (f : Fin (h + 1) → Fin w → α) : (ofEntries f).width = w := by
  unfold width ofEntries
  rw [List.ofFn_succ]
  exact List.length_ofFn

/-- The element in a place is the entry. -/
@[simp] theorem get?_ofEntries (f : Fin h → Fin w → α) (y : Fin h) (x : Fin w) : (ofEntries f).get? y x = some (f y x) := by
  simp [get?, ofEntries]

/-- Computations on the rows that all succeed give a matrix. -/
theorem mapM_rows_ofEntries {ε β : Type} {f : Fin h → Fin w → α} {g : Fin h → Fin w → β} {p : List α → Except ε (List β)}
    (hp : ∀ y, p (List.ofFn (f y)) = .ok (List.ofFn (g y))) : ((ofEntries f).rows.mapM p).map Matrix.mk = .ok (ofEntries g) := by
  unfold ofEntries
  rw [mapM_ofFn hp]
  rfl

/-- A matrix that is given by a function of places. -/
theorem ofFn_eq_ofEntries (f : ℕ → ℕ → α) : ofFn h w f = ofEntries fun (y : Fin h) (x : Fin w) => f y x := by
  unfold ofFn ofEntries
  simp only [map_range_eq_ofFn]

/-- The transpose exchanges the indices. -/
theorem transpose_ofEntries (f : Fin (h + 1) → Fin w → α) : (ofEntries f).transpose = ofEntries fun x y => f y x := by
  unfold transpose
  rw [width_ofEntries, map_range_eq_ofFn]
  unfold ofEntries
  congr 2
  funext x
  exact filterMap_ofFn fun y => by simp

/-- Without a row and a column, their indices are skipped. -/
theorem minor_ofEntries (f : Fin (h + 1) → Fin (w + 1) → α) (y : Fin (h + 1)) (x : Fin (w + 1)) :
    (ofEntries f).minor y x = ofEntries fun i j => f (y.succAbove i) (x.succAbove j) := by
  unfold minor ofEntries
  rw [eraseIdx_ofFn, List.map_ofFn]
  congr 2
  funext i
  exact eraseIdx_ofFn _ x

end QuantityCalculus.Matrix
