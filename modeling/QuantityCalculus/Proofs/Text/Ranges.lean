import QuantityCalculus.Text.CodePoint

/-!
# Sets of code points

Classes of characters are sets of code points, given by their ranges in ascending order. Going through the ranges of two classes once
tells whether the classes have a character in common.
-/

namespace QuantityCalculus.Text

/-- Two sets of code points are apart: each range of the first one lies before what the ranges before it leave of the second one. -/
def areApart : List (Nat × Nat) → List (Nat × Nat) → Bool
  | [], _ => true
  | r :: ranges, ranges' =>
    let rest := ranges'.dropWhile fun r' => r'.2 < r.1
    rest.head?.all (fun r' => r.2 < r'.1) && areApart ranges rest

/-- A code point is in no range that ends before it. -/
theorem inRanges_dropWhile {ranges : List (Nat × Nat)} {m n : Nat} (hmn : m ≤ n) (h : inRanges ranges n = true) :
    inRanges (ranges.dropWhile fun r => r.2 < m) n = true := by
  induction ranges with
  | nil => exact absurd h Bool.false_ne_true
  | cons r ranges ih =>
    by_cases hr : r.2 < m
    · rw [List.dropWhile_cons_of_pos (by simpa using hr)]
      refine ih ?_
      rw [inRanges] at h
      split at h
      · exact absurd h Bool.false_ne_true
      · rwa [if_neg (by omega)] at h
    · rwa [List.dropWhile_cons_of_neg (by simpa using hr)]

/-- A code point is not in both of two sets that are apart. -/
theorem inRanges_eq_false {ranges ranges' : List (Nat × Nat)} (hapart : areApart ranges ranges' = true) {n : Nat}
    (h : inRanges ranges n = true) : inRanges ranges' n = false := by
  induction ranges generalizing ranges' with
  | nil => exact absurd h Bool.false_ne_true
  | cons r ranges ih =>
    rw [areApart, Bool.and_eq_true] at hapart
    obtain ⟨hhead, htail⟩ := hapart
    rw [← Bool.not_eq_true]
    intro h'
    rw [inRanges] at h
    split at h
    · exact absurd h Bool.false_ne_true
    rename_i hfirst
    have hrest := inRanges_dropWhile (Nat.not_lt.1 hfirst) h'
    by_cases hlast : n ≤ r.2
    · -- The code point is in the range, so it lies before all that is left of the second set.
      cases hdrop : ranges'.dropWhile fun r' => r'.2 < r.1 with
      | nil =>
        rw [hdrop] at hrest
        exact absurd hrest Bool.false_ne_true
      | cons r' rest =>
        rw [hdrop] at hhead hrest
        have hbefore : r.2 < r'.1 := by simpa using hhead
        rw [inRanges, if_pos (by omega)] at hrest
        exact absurd hrest Bool.false_ne_true
    · rw [if_neg hlast] at h
      rw [ih htail h] at hrest
      exact absurd hrest Bool.false_ne_true

end QuantityCalculus.Text
