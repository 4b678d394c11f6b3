import QuantityCalculus.Text.LongestMatch

/-!
# The first option is the longest

A choice takes the first of its options that a text starts with. Since longer options are tried first, no other option at the start of
the text is longer (`longestMatch?_eq_some_iff`), and the order in which the options were given does not matter (`longestMatch?_congr`).
-/

namespace QuantityCalculus.Text

variable {options : List (List Char)} {text s : List Char}

/-- One more option is tried, and nothing else. -/
theorem mem_insertByLength {option : List Char} : s ∈ insertByLength option options ↔ s = option ∨ s ∈ options := by
  induction options with
  | nil => rw [insertByLength, List.mem_singleton, or_iff_left List.not_mem_nil]
  | cons other options ih =>
    rw [insertByLength]
    split
    · exact List.mem_cons
    · rw [List.mem_cons, ih, List.mem_cons, or_left_comm]

/-- All options are tried, and nothing else. -/
theorem mem_longestFirst : s ∈ longestFirst options ↔ s ∈ options := by
  induction options with
  | nil => rfl
  | cons option options ih => rw [longestFirst, List.foldr_cons, mem_insertByLength, List.mem_cons, ← ih, longestFirst]

/-- One more option is not tried before a longer one, if none of the others is. -/
theorem pairwise_insertByLength (option : List Char) (h : options.Pairwise fun option other => other.length ≤ option.length) :
    (insertByLength option options).Pairwise fun option other => other.length ≤ option.length := by
  induction options with
  | nil => exact List.pairwise_singleton ..
  | cons other options ih =>
    obtain ⟨hother, hoptions⟩ := List.pairwise_cons.1 h
    rw [insertByLength]
    split
    · rename_i hle
      refine List.pairwise_cons.2 ⟨fun o ho => ?_, h⟩
      rcases List.mem_cons.1 ho with rfl | ho
      · exact hle
      · exact Nat.le_trans (hother o ho) hle
    · rename_i hlt
      refine List.pairwise_cons.2 ⟨fun o ho => ?_, ih hoptions⟩
      rcases mem_insertByLength.1 ho with rfl | ho
      · omega
      · exact hother o ho

/-- No option is tried before a longer one. -/
theorem pairwise_longestFirst (options : List (List Char)) :
    (longestFirst options).Pairwise fun option other => other.length ≤ option.length := by
  induction options with
  | nil => exact List.Pairwise.nil
  | cons option options ih => exact pairwise_insertByLength option ih

/-- Of options that are tried from the longest to the shortest, none at the start of the text is longer than the first one there. -/
theorem length_le_of_firstMatch? (hsorted : options.Pairwise fun option other => other.length ≤ option.length)
    (h : firstMatch? options text = some s) : ∀ o ∈ options, o <+: text → o.length ≤ s.length := by
  obtain ⟨-, before, after, rfl, hbefore⟩ := List.find?_eq_some_iff_append.1 h
  obtain ⟨-, hafter, -⟩ := List.pairwise_append.1 hsorted
  intro o ho htext
  rcases List.mem_append.1 ho with ho | ho
  · -- an option that was tried before the first one there is not there
    have hnot := hbefore o ho
    rw [List.isPrefixOf_iff_prefix.2 htext] at hnot
    nomatch hnot
  · rcases List.mem_cons.1 ho with rfl | ho
    · exact Nat.le_refl _
    · exact (List.pairwise_cons.1 hafter).1 o ho

/-- The longest match is an option at the start, and no other option there is longer. -/
theorem longestMatch?_spec (h : longestMatch? options text = some s) :
    s ∈ options ∧ s <+: text ∧ ∀ o ∈ options, o <+: text → o.length ≤ s.length := by
  obtain ⟨hstart, -⟩ := List.find?_eq_some_iff_append.1 h
  refine ⟨mem_longestFirst.1 (List.mem_of_find?_eq_some h), List.isPrefixOf_iff_prefix.1 hstart, fun o ho => ?_⟩
  exact length_le_of_firstMatch? (pairwise_longestFirst options) h o (mem_longestFirst.2 ho)

/-- Where there is no longest match, no option is at the start. -/
theorem longestMatch?_eq_none_iff : longestMatch? options text = none ↔ ∀ o ∈ options, ¬o <+: text := by
  unfold longestMatch? firstMatch?
  simp only [List.find?_eq_none, mem_longestFirst, List.isPrefixOf_iff_prefix]

/-- The longest match is the option at the start than which no other option there is longer. -/
theorem longestMatch?_eq_some_iff : longestMatch? options text = some s ↔
    s ∈ options ∧ s <+: text ∧ ∀ o ∈ options, o <+: text → o.length ≤ s.length := by
  refine ⟨longestMatch?_spec, fun ⟨hs, htext, hmax⟩ => ?_⟩
  cases hm : longestMatch? options text with
  | none => exact absurd htext (longestMatch?_eq_none_iff.1 hm s hs)
  | some m =>
    obtain ⟨hmem, hprefix, hlongest⟩ := longestMatch?_spec hm
    have hlength : m.length = s.length := Nat.le_antisymm (hmax m hmem hprefix) (hlongest s hs htext)
    rw [List.prefix_iff_eq_take.1 hprefix, List.prefix_iff_eq_take.1 htext, hlength]

/-- The longest match depends only on which options are at the start. -/
theorem longestMatch?_congr {options' : List (List Char)} {text' : List Char}
    (h : ∀ o, o ∈ options ∧ o <+: text ↔ o ∈ options' ∧ o <+: text') :
    longestMatch? options text = longestMatch? options' text' := by
  refine Option.ext fun s => ?_
  simp only [longestMatch?_eq_some_iff, ← and_assoc, h]
  refine and_congr_right fun _ => ⟨fun hmax o ho htext => ?_, fun hmax o ho htext => ?_⟩
  · obtain ⟨ho, htext⟩ := (h o).2 ⟨ho, htext⟩
    exact hmax o ho htext
  · obtain ⟨ho, htext⟩ := (h o).1 ⟨ho, htext⟩
    exact hmax o ho htext

end QuantityCalculus.Text
