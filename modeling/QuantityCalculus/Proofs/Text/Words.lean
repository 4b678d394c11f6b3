import Mathlib.Logic.Basic
import QuantityCalculus.Text.Trim

/-!
# Words with spaces between them

Words that are joined by spaces are the words of the joined text, and no blanks surround it.
-/

namespace QuantityCalculus.Text

/-- Letters without a blank continue a word. -/
theorem wordsAfter_append {cs : List Char} (h : ∀ c ∈ cs, isBlank c = false) (word rest : List Char) :
    wordsAfter word (cs ++ rest) = wordsAfter (word ++ cs) rest := by
  induction cs generalizing word with
  | nil => rw [List.nil_append, List.append_nil]
  | cons c cs ih =>
    rw [List.cons_append, wordsAfter, h c (List.mem_cons_self ..), if_neg Bool.false_ne_true,
      ih (fun d hd => h d (List.mem_cons_of_mem _ hd)), List.append_assoc, List.singleton_append]

/-- A space is blank. -/
theorem isBlank_space : isBlank ' ' = true := by decide

/-- The words of words with spaces between them are those that are not empty. -/
theorem words_intercalate_eq_filter {ws : List (List Char)} (h : ∀ w ∈ ws, ∀ c ∈ w, isBlank c = false) :
    words ([' '].intercalate ws) = ws.filter fun w => !w.isEmpty := by
  unfold words
  induction ws with
  | nil => rfl
  | cons w ws ih =>
    have hblank := h w (List.mem_cons_self ..)
    have hone : (if w.isEmpty then [] else [w]) = [w].filter fun w => !w.isEmpty := by
      cases w <;> rfl
    cases ws with
    | nil =>
      have hsplit := wordsAfter_append hblank [] []
      rw [List.append_nil, List.nil_append] at hsplit
      rw [List.intercalate_singleton, hsplit, wordsAfter, hone]
    | cons w' ws =>
      rw [List.intercalate_cons_cons, List.append_assoc, wordsAfter_append hblank, List.nil_append, List.singleton_append,
        wordsAfter, if_pos isBlank_space, hone, ih (fun v hv => h v (List.mem_cons_of_mem _ hv)), ← List.filter_append,
        List.singleton_append]

/-- The words of words with spaces between them. -/
theorem words_intercalate {ws : List (List Char)} (h : ∀ w ∈ ws, w ≠ [] ∧ ∀ c ∈ w, isBlank c = false) :
    words ([' '].intercalate ws) = ws := by
  rw [words_intercalate_eq_filter fun w hw => (h w hw).2]
  refine List.filter_eq_self.2 fun w hw => ?_
  rw [List.isEmpty_eq_false_iff.2 (h w hw).1, Bool.not_false]

/-- Words with spaces between them end with the last of them. -/
theorem exists_intercalate_eq_append {ws : List (List Char)} (hne : ws ≠ []) :
    ∃ before, [' '].intercalate ws = before ++ ws.getLast hne := by
  induction ws with
  | nil => exact absurd rfl hne
  | cons w ws ih =>
    cases ws with
    | nil => exact ⟨[], by rw [List.intercalate_singleton, List.nil_append, List.getLast_singleton]⟩
    | cons w' ws =>
      obtain ⟨before, hbefore⟩ := ih (List.cons_ne_nil _ _)
      refine ⟨w ++ [' '] ++ before, ?_⟩
      rw [List.intercalate_cons_cons, hbefore, List.getLast_cons (List.cons_ne_nil _ _), List.append_assoc _ before]

/-- Nothing is dropped in front of a letter. -/
theorem dropWhile_isBlank_cons {c : Char} (h : isBlank c = false) (cs : List Char) : (c :: cs).dropWhile isBlank = c :: cs :=
  List.dropWhile_cons_of_neg (by rw [h]; exact Bool.false_ne_true)

/-- Words with spaces between them have no blank at their start. -/
theorem trimStart_intercalate {ws : List (List Char)} (h : ∀ w ∈ ws, w ≠ [] ∧ ∀ c ∈ w, isBlank c = false) :
    trimStart ([' '].intercalate ws) = [' '].intercalate ws := by
  cases ws with
  | nil => rfl
  | cons w ws =>
    obtain ⟨hne, hblank⟩ := h w (List.mem_cons_self ..)
    obtain ⟨c, w, rfl⟩ := List.exists_cons_of_ne_nil hne
    have hc := hblank c (List.mem_cons_self ..)
    cases ws with
    | nil =>
      rw [List.intercalate_singleton]
      exact dropWhile_isBlank_cons hc _
    | cons w' ws =>
      rw [List.intercalate_cons_cons]
      exact dropWhile_isBlank_cons hc _

/-- What ends with a word has no blank at its end. -/
theorem trimEnd_append {w : List Char} (hne : w ≠ []) (h : ∀ c ∈ w, isBlank c = false) (before : List Char) :
    trimEnd (before ++ w) = before ++ w := by
  obtain rfl | ⟨w, c, rfl⟩ := List.eq_nil_or_concat w
  · exact absurd rfl hne
  rw [List.concat_eq_append] at h ⊢
  unfold trimEnd
  rw [← List.append_assoc, List.reverse_append, List.reverse_singleton, List.singleton_append,
    dropWhile_isBlank_cons (h c (List.mem_append_right _ (List.mem_singleton_self _))), List.reverse_cons, List.reverse_reverse]

/-- Words with spaces between them have no blanks around them. -/
theorem trim_intercalate {ws : List (List Char)} (h : ∀ w ∈ ws, w ≠ [] ∧ ∀ c ∈ w, isBlank c = false) :
    trim ([' '].intercalate ws) = [' '].intercalate ws := by
  unfold trim
  rw [trimStart_intercalate h]
  obtain rfl | hws := eq_or_ne ws []
  · rfl
  obtain ⟨before, hbefore⟩ := exists_intercalate_eq_append hws
  obtain ⟨hne, hblank⟩ := h _ (List.getLast_mem hws)
  rw [hbefore]
  exact trimEnd_append hne hblank before

end QuantityCalculus.Text
