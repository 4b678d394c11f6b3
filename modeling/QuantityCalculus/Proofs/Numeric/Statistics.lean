import Mathlib.Algebra.BigOperators.Ring.List
import QuantityCalculus.Builtin.Statistics
import QuantityCalculus.Proofs.Numeric.Rounding

/-!
# Statistics of rationals

What the sum, the mean, the variance, the median, the least and the greatest of some rationals are (`Builtin.statistic?`). The order
of the rationals makes no difference to them (`Builtin.statistic?_perm`). A positive factor of all rationals is one of the statistic,
and its square one of the variance (`Builtin.statistic?_scale`). In exact arithmetic the functions on numbers compute these statistics.
-/

namespace QuantityCalculus

open ExactNumeric

/-! ## Statistics -/

namespace Statistics

/-- The sum divided by the number of the rationals. -/
def mean (xs : List ℚ) : ℚ := xs.sum / xs.length

/-- The sum of the squares of the distances to the mean, divided by one less than the number of the rationals. -/
def variance (xs : List ℚ) : ℚ := (xs.map fun x => (x - mean xs) ^ 2).sum / (xs.length - 1)

/-- The rational in the middle of the sorted ones, or the mean of the two in the middle. -/
def median (xs : List ℚ) : ℚ :=
  let sorted := xs.mergeSort
  if sorted.length % 2 = 0 then (sorted.getD (sorted.length / 2 - 1) 0 + sorted.getD (sorted.length / 2) 0) / 2
  else sorted.getD (sorted.length / 2) 0

/-! ### The order of the rationals -/

/-- Sorting forgets the order. -/
theorem mergeSort_perm_eq {xs ys : List ℚ} (h : xs.Perm ys) : xs.mergeSort = ys.mergeSort := by
  have hsorted (zs : List ℚ) : zs.mergeSort.Pairwise (· ≤ ·) := by
    have hpairwise := @List.pairwise_mergeSort ℚ (fun a b => decide (a ≤ b))
      (fun a b c hab hbc => by simpa using (of_decide_eq_true hab).trans (of_decide_eq_true hbc))
      (fun a b => by simpa using le_total a b) zs
    simpa using hpairwise
  have hperm : xs.mergeSort.Perm ys.mergeSort := (List.mergeSort_perm xs _).trans (h.trans (List.mergeSort_perm ys _).symm)
  exact List.Perm.eq_of_pairwise (fun a b _ _ => le_antisymm) (hsorted xs) (hsorted ys) hperm

/-- The mean does not depend on the order. -/
theorem mean_perm {xs ys : List ℚ} (h : xs.Perm ys) : mean xs = mean ys := by
  unfold mean
  rw [h.sum_eq, h.length_eq]

/-- The variance does not depend on the order. -/
theorem variance_perm {xs ys : List ℚ} (h : xs.Perm ys) : variance xs = variance ys := by
  unfold variance
  rw [mean_perm h, (h.map _).sum_eq, h.length_eq]

/-- The median does not depend on the order. -/
theorem median_perm {xs ys : List ℚ} (h : xs.Perm ys) : median xs = median ys := by
  unfold median
  rw [mergeSort_perm_eq h]

/-- The least does not depend on the order. -/
theorem min?_perm {xs ys : List ℚ} (h : xs.Perm ys) : xs.min? = ys.min? := by
  ext m
  simp only [List.min?_eq_some_iff, h.mem_iff]

/-- The greatest does not depend on the order. -/
theorem max?_perm {xs ys : List ℚ} (h : xs.Perm ys) : xs.max? = ys.max? := by
  ext m
  simp only [List.max?_eq_some_iff, h.mem_iff]

/-! ### Factors of the rationals -/

/-- The mean of multiples is the multiple of the mean. -/
theorem mean_scale (xs : List ℚ) (k : ℚ) : mean (xs.map (· * k)) = mean xs * k := by
  unfold mean
  rw [List.sum_map_mul_right, List.map_id', List.length_map, div_mul_eq_mul_div]

/-- The variance of multiples is the variance times the square of the factor. -/
theorem variance_scale (xs : List ℚ) (k : ℚ) : variance (xs.map (· * k)) = variance xs * k ^ 2 := by
  have hsquares : (xs.map (· * k)).map (fun x => (x - mean (xs.map (· * k))) ^ 2) =
      xs.map fun x => (x - mean xs) ^ 2 * k ^ 2 := by
    rw [List.map_map]
    refine List.map_congr_left fun x _ => ?_
    rw [Function.comp_apply, mean_scale]
    ring
  unfold variance
  rw [hsquares, List.sum_map_mul_right, List.length_map, div_mul_eq_mul_div]

/-- The median of positive multiples is the multiple of the median. -/
theorem median_scale (xs : List ℚ) {k : ℚ} (hk : 0 < k) : median (xs.map (· * k)) = median xs * k := by
  have hsorted : (xs.map (· * k)).mergeSort = xs.mergeSort.map (· * k) := by
    refine (List.map_mergeSort fun a _ b _ => ?_).symm
    simp [mul_le_mul_iff_left₀ hk]
  have hplace (i : ℕ) : (xs.mergeSort.map (· * k)).getD i 0 = xs.mergeSort.getD i 0 * k := by
    rw [List.getD_eq_getElem?_getD, List.getElem?_map, List.getD_eq_getElem?_getD]
    cases xs.mergeSort[i]? <;> simp
  unfold median
  dsimp only
  rw [hsorted, List.length_map, hplace, hplace]
  split
  · ring
  · rfl

/-- The least of positive multiples is the multiple of the least. -/
theorem min?_scale (xs : List ℚ) {k : ℚ} (hk : 0 < k) : (xs.map (· * k)).min? = xs.min?.map (· * k) := by
  cases hmin : xs.min? with
  | none => simp [List.min?_eq_none_iff.1 hmin]
  | some m =>
    obtain ⟨hmem, hle⟩ := List.min?_eq_some_iff.1 hmin
    refine List.min?_eq_some_iff.2 ⟨List.mem_map_of_mem hmem, fun y hy => ?_⟩
    obtain ⟨x, hx, rfl⟩ := List.mem_map.1 hy
    exact mul_le_mul_of_nonneg_right (hle x hx) hk.le

/-- The greatest of positive multiples is the multiple of the greatest. -/
theorem max?_scale (xs : List ℚ) {k : ℚ} (hk : 0 < k) : (xs.map (· * k)).max? = xs.max?.map (· * k) := by
  cases hmax : xs.max? with
  | none => simp [List.max?_eq_none_iff.1 hmax]
  | some m =>
    obtain ⟨hmem, hle⟩ := List.max?_eq_some_iff.1 hmax
    refine List.max?_eq_some_iff.2 ⟨List.mem_map_of_mem hmem, fun y hy => ?_⟩
    obtain ⟨x, hx, rfl⟩ := List.mem_map.1 hy
    exact mul_le_mul_of_nonneg_right (hle x hx) hk.le

end Statistics

namespace Builtin

/-- The statistic of rationals that a function computes, if it computes one that is rational. -/
def statistic? (b : Builtin) (xs : List ℚ) : Option ℚ :=
  match b with
  | .sum => some xs.sum
  | .statistic .mean => some (Statistics.mean xs)
  | .var => if xs.length < 2 then none else some (Statistics.variance xs)
  | .statistic .median => some (Statistics.median xs)
  | .statistic .min => xs.min?
  | .statistic .max => xs.max?
  | _ => none

/-- The power of the dimension of some amounts that the statistic of them is of. -/
def degree : Builtin → ℕ
  | .var => 2
  | _ => 1

/-- A statistic does not depend on the order. -/
theorem statistic?_perm (b : Builtin) {xs ys : List ℚ} (h : xs.Perm ys) : b.statistic? xs = b.statistic? ys := by
  cases b with
  | sum => exact congrArg some h.sum_eq
  | var =>
    unfold statistic?
    rw [h.length_eq, Statistics.variance_perm h]
  | statistic s =>
    cases s with
    | mean => exact congrArg some (Statistics.mean_perm h)
    | median => exact congrArg some (Statistics.median_perm h)
    | min => exact Statistics.min?_perm h
    | max => exact Statistics.max?_perm h
    | _ => rfl
  | _ => rfl

/-- A positive factor of all rationals is a factor of their statistic, and its square one of their variance. -/
theorem statistic?_scale (b : Builtin) (xs : List ℚ) {k : ℚ} (hk : 0 < k) :
    b.statistic? (xs.map (· * k)) = (b.statistic? xs).map (· * k ^ b.degree) := by
  cases b with
  | sum => simp [statistic?, degree, List.sum_map_mul_right]
  | var => by_cases h : xs.length < 2 <;> simp [statistic?, degree, Statistics.variance_scale, h]
  | statistic s =>
    cases s with
    | mean => simp [statistic?, degree, Statistics.mean_scale]
    | median => simp [statistic?, degree, Statistics.median_scale xs hk]
    | min => simp [statistic?, degree, Statistics.min?_scale xs hk]
    | max => simp [statistic?, degree, Statistics.max?_scale xs hk]
    | _ => rfl
  | _ => rfl

end Builtin

/-! ## Functions on numbers -/

namespace ExactNumeric

variable {F : Type} [ExactNumeric F]

/-- The smaller of two exact numbers. -/
@[simp] theorem toRat_min (x y : F) : toRat (Numeric.min x y) = min (toRat x) (toRat y) := by
  unfold Numeric.min
  rw [isNaN_eq_false, if_neg Bool.false_ne_true]
  split
  · rename_i h
    exact (min_eq_right ((lt_iff y x).1 h).le).symm
  · rename_i h
    rw [lt_iff, not_lt] at h
    exact (min_eq_left h).symm

/-- All exact numbers are numbers, so the first one is where a choice starts. -/
theorem extremeOf_cons (choose : F → F → F) (bound x : F) (xs : List F) :
    extremeOf choose bound (x :: xs) = xs.foldl choose x := by
  have hall : (x :: xs).filter (!Numeric.isNaN ·) = x :: xs := by
    simp [isNaN_eq_false]
  unfold extremeOf
  rw [hall]

/-- The least of some exact numbers from one on. -/
theorem toRat_foldl_min (xs : List F) (x : F) : toRat (xs.foldl Numeric.min x) = (xs.map toRat).foldl min (toRat x) := by
  rw [List.foldl_map]
  exact (List.foldl_hom toRat fun x y => (toRat_min x y).symm).symm

/-- The greatest of some exact numbers from one on. -/
theorem toRat_foldl_max (xs : List F) (x : F) : toRat (xs.foldl Numeric.max x) = (xs.map toRat).foldl max (toRat x) := by
  rw [List.foldl_map]
  exact (List.foldl_hom toRat fun x y => (toRat_max x y).symm).symm

/-- The sum of some exact numbers. -/
@[simp] theorem toRat_total (xs : List F) : toRat (total xs) = (xs.map toRat).sum := by
  cases xs with
  | nil => exact toRat_zero
  | cons x xs =>
    have hfoldl (y : F) : toRat (xs.foldl (· + ·) y) = toRat y + (xs.map toRat).sum := by
      induction xs generalizing y with
      | nil => simp
      | cons x xs ih => simp [ih, add_assoc]
    rw [total, hfoldl, List.map_cons, List.sum_cons]

/-- The mean of the images of some exact numbers. -/
theorem toRat_meanOf (f : F → F) {xs : List F} (h : xs ≠ []) :
    toRat (meanOf f xs) = Statistics.mean (xs.map fun x => toRat (f x)) := by
  have hlength : toRat (Numeric.ofNat xs.length : F) ≠ 0 := by
    rw [toRat_ofNat]
    exact_mod_cast List.length_pos_iff.2 h |>.ne'
  unfold meanOf Statistics.mean
  rw [toRat_div _ _ hlength, toRat_total, toRat_ofNat, List.map_map, List.length_map]
  rfl

/-- Exact numbers are ordered as rationals. -/
theorem totalLE_eq (x y : F) : totalLE x y = decide (toRat x ≤ toRat y) := by
  unfold totalLE
  rw [isNaN_eq_false, isNaN_eq_false, if_neg Bool.false_ne_true, if_neg Bool.false_ne_true]
  by_cases h : toRat x = toRat y
  · have hsign : Numeric.hasNegativeSign x = Numeric.hasNegativeSign y := by
      rw [Bool.eq_iff_iff, hasNegativeSign_iff, hasNegativeSign_iff, h]
    rw [if_pos ((beq_iff x y).2 h), hsign]
    simp [h]
  · rw [if_neg fun hbeq => h ((beq_iff x y).1 hbeq), decide_eq_decide, lt_iff, lt_iff_le_and_ne]
    exact and_iff_left h

/-- The variance of two or more exact numbers. -/
theorem exists_sampleVariance (name : String) {xs : List F} (h : 2 ≤ xs.length) :
    ∃ y, sampleVariance name xs = .ok y ∧ toRat y = Statistics.variance (xs.map toRat) := by
  have hne : xs ≠ [] := by
    rintro rfl
    simp at h
  have hcount : toRat (Numeric.ofNat (xs.length - 1) : F) = (xs.length : ℚ) - 1 := by
    rw [toRat_ofNat, Nat.cast_sub (by omega), Nat.cast_one]
  have hpositive : (xs.length : ℚ) - 1 ≠ 0 := by
    rw [← Nat.cast_one, ← Nat.cast_sub (by omega)]
    exact_mod_cast (show xs.length - 1 ≠ 0 by omega)
  refine ⟨_, if_neg (by omega), ?_⟩
  unfold Statistics.variance
  rw [toRat_div _ _ (by rw [hcount]; exact hpositive), hcount, toRat_total, List.length_map, List.map_map, List.map_map]
  congr 2
  refine List.map_congr_left fun x _ => ?_
  have hmean : toRat (meanOf id xs) = Statistics.mean (xs.map toRat) := toRat_meanOf id hne
  simp [hmean, sq]

/-- The median of some exact numbers. -/
theorem toRat_middleOf {xs : List F} (h : xs ≠ []) : toRat (middleOf xs) = Statistics.median (xs.map toRat) := by
  have hsorted : (xs.map toRat).mergeSort = (xs.mergeSort totalLE).map toRat :=
    (List.map_mergeSort fun x _ y _ => totalLE_eq x y).symm
  have hlength : (xs.mergeSort totalLE).length ≠ 0 := by
    rw [List.length_mergeSort]
    exact (List.length_pos_iff.2 h).ne'
  have hplace {i : ℕ} (hi : i < (xs.mergeSort totalLE).length) :
      toRat (((xs.mergeSort totalLE)[i]?).getD Numeric.notANumber) = ((xs.mergeSort totalLE).map toRat).getD i 0 := by
    simp [List.getElem?_eq_getElem hi]
  unfold middleOf Statistics.median
  dsimp only
  rw [hsorted, List.length_map, ← hplace (by omega), ← hplace (by omega)]
  split
  · rw [toRat_div _ _ (by norm_num), toRat_add]
    norm_num
  · rfl

end ExactNumeric

/-- A rational statistic of exact numbers is what its function computes. -/
theorem Statistic.exists_of {F : Type} [ExactNumeric F] {s : Statistic} {xs : List F} (hs : s ∈ [.mean, .median, .min, .max])
    (hne : xs ≠ []) : ∃ y, s.of xs = .ok y ∧ (Builtin.statistic s).statistic? (xs.map toRat) = some (toRat y) := by
  cases s with
  | mean => exact ⟨_, rfl, congrArg some (toRat_meanOf id hne).symm⟩
  | median => exact ⟨_, rfl, congrArg some (toRat_middleOf hne).symm⟩
  | min =>
    obtain ⟨x, xs, rfl⟩ := List.exists_cons_of_ne_nil hne
    refine ⟨_, rfl, ?_⟩
    rw [extremeOf_cons, toRat_foldl_min]
    exact List.min?_cons'
  | max =>
    obtain ⟨x, xs, rfl⟩ := List.exists_cons_of_ne_nil hne
    refine ⟨_, rfl, ?_⟩
    rw [extremeOf_cons, toRat_foldl_max]
    exact List.max?_cons'
  | _ => simp at hs

end QuantityCalculus
