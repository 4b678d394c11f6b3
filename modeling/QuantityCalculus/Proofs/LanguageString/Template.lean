import Mathlib.Data.List.Forall2
import Mathlib.Data.List.TakeWhile
import QuantityCalculus.LanguageString.Template

/-!
# Templates as pieces

A template is read as pieces, characters and placeholders, in one way only (`Template.exists_pieces`, `Template.Pieces.unique`), and filling
puts an argument or the piece itself in the place of each (`Template.Pieces.fill_eq`). The pieces are those of the template whatever the
arguments are, so that what was put in is never searched for placeholders.

So a filled template is as long as its arguments make it (`Template.length_fillText_le`), it does not depend on an argument without a place
in it (`Template.fillText_congr`), and it shows which of two longer and longer arguments stands in a place (`Template.eq_of_fillText_eq`).
-/

namespace QuantityCalculus.Template

/-- A piece of a template. -/
inductive Piece where
  | character (c : Char)
  | placeholder (digits : List Char)
  deriving DecidableEq, Repr

/-- How a piece is written. -/
def Piece.written : Piece → List Char
  | .character c => [c]
  | .placeholder digits => '\x7b' :: (digits ++ ['\x7d'])

/-- What a piece becomes: a placeholder the argument of its number, if its digits are those of a number and there is such an argument, and
anything else what is written. -/
def Piece.filled (args : List String) : Piece → List Char
  | .character c => [c]
  | .placeholder digits =>
    if digits.all Char.isDigit then ((args[Nat.ofDigitChars 10 digits 0]?).map String.toList).getD (Piece.placeholder digits).written
    else (Piece.placeholder digits).written

/-- What may stand in braces: one or more digits of any script. -/
def IsNumber (digits : List Char) : Prop := digits ≠ [] ∧ ∀ d ∈ digits, Text.isDecimalDigit d = true

/-- A template and its pieces. Digits in braces are always a placeholder, and each other character is a piece. -/
inductive Pieces : List Char → List Piece → Prop
  | nil : Pieces [] []
  | placeholder {digits cs pieces} : IsNumber digits → Pieces cs pieces →
      Pieces ('\x7b' :: (digits ++ '\x7d' :: cs)) (.placeholder digits :: pieces)
  | character {c cs pieces} : (∀ digits rest, IsNumber digits → c :: cs ≠ '\x7b' :: (digits ++ '\x7d' :: rest)) → Pieces cs pieces →
      Pieces (c :: cs) (.character c :: pieces)

/-- Digits before a closing brace are the digits at the start. -/
theorem takeWhile_digits {digits : List Char} (h : IsNumber digits) (rest : List Char) :
    (digits ++ '\x7d' :: rest).takeWhile Text.isDecimalDigit = digits := by
  have hbrace : Text.isDecimalDigit '\x7d' = false := by decide +kernel
  rw [List.takeWhile_append_of_pos h.2, List.takeWhile_cons_of_neg (Bool.eq_false_iff.1 hbrace), List.append_nil]

/-- A placeholder is digits and a closing brace. -/
theorem placeholder?_eq_some_iff {cs digits : List Char} :
    placeholder? cs = some digits ↔ IsNumber digits ∧ ∃ rest, cs = digits ++ '\x7d' :: rest := by
  unfold placeholder?
  constructor
  · intro h
    dsimp only at h
    split at h
    · rename_i rest hrest
      split at h
      · nomatch h
      · rename_i hne
        obtain rfl := Option.some.inj h
        refine ⟨⟨by simpa using hne, fun d hd => List.mem_takeWhile_imp hd⟩, rest, ?_⟩
        rw [← hrest]
        exact (List.prefix_iff_eq_append.1 (List.takeWhile_prefix _)).symm
    · nomatch h
  · rintro ⟨hdigits, rest, rfl⟩
    dsimp only
    rw [takeWhile_digits hdigits, List.drop_left]
    simp [hdigits.1]

/-- Where no placeholder is read, no digits in braces stand. -/
theorem placeholder?_eq_none_iff {c : Char} {cs : List Char} :
    (if c == '\x7b' then placeholder? cs else none) = none ↔
      ∀ digits rest, IsNumber digits → c :: cs ≠ '\x7b' :: (digits ++ '\x7d' :: rest) := by
  by_cases hc : c = '\x7b'
  · rw [hc, if_pos (beq_self_eq_true _), Option.eq_none_iff_forall_not_mem]
    simp only [Option.mem_def, placeholder?_eq_some_iff, List.cons.injEq, true_and, ne_eq, not_and, not_exists]
    exact forall_congr' fun digits => forall_comm
  · rw [if_neg (by simpa using hc)]
    exact iff_of_true rfl fun digits rest _ h => hc (List.cons.inj h).1

/-- The argument of a number is found by the value of its digits. -/
theorem filled_placeholder (args : List String) (digits : List Char) : (Piece.placeholder digits).filled args =
    (argument? (args.map String.toList) digits).getD (Piece.placeholder digits).written := by
  have hvalue : Nat.ofDigitChars 10 digits 0 = Decimal.natOfDigits digits := rfl
  simp only [Piece.filled, argument?, hvalue]
  split
  · rw [List.getElem?_map]
  · rfl

/-- Filling fills each piece by itself. -/
theorem Pieces.fill_eq {template : List Char} {pieces : List Piece} (h : Pieces template pieces) (args : List String) :
    fill (args.map String.toList) template = pieces.flatMap (·.filled args) := by
  induction h with
  | nil =>
    rw [fill]
    rfl
  | @placeholder digits cs pieces hdigits _ ih =>
    have hread : placeholder? (digits ++ '\x7d' :: cs) = some digits := placeholder?_eq_some_iff.2 ⟨hdigits, cs, rfl⟩
    have hdrop : (digits ++ '\x7d' :: cs).drop (digits.length + 1) = cs := List.drop_length_add_append ..
    rw [fill, if_pos (beq_self_eq_true _), hread, List.flatMap_cons, filled_placeholder, ← ih]
    simp only [hdrop, Piece.written, List.cons_append]
  | character hcharacter _ ih =>
    rw [fill, placeholder?_eq_none_iff.2 hcharacter, List.flatMap_cons, ← ih]
    rfl

/-- Filling of texts fills each piece by itself. -/
theorem Pieces.fillText_eq {template : String} {pieces : List Piece} (h : Pieces template.toList pieces) (args : List String) :
    fillText args template = String.ofList (pieces.flatMap (·.filled args)) := by
  unfold fillText
  rw [h.fill_eq]

/-- Every template has pieces. -/
theorem exists_pieces (template : List Char) : ∃ pieces, Pieces template pieces := by
  induction template using fill.induct with
  | case1 => exact ⟨[], .nil⟩
  | case2 c cs hnone ih =>
    obtain ⟨pieces, hpieces⟩ := ih
    exact ⟨_, .character (placeholder?_eq_none_iff.1 hnone) hpieces⟩
  | case3 c cs digits hsome ih =>
    split at hsome
    · rename_i hc
      obtain rfl := eq_of_beq hc
      obtain ⟨hdigits, rest, rfl⟩ := placeholder?_eq_some_iff.1 hsome
      have hdrop : (digits ++ '\x7d' :: rest).drop (digits.length + 1) = rest := List.drop_length_add_append ..
      rw [hdrop] at ih
      obtain ⟨pieces, hpieces⟩ := ih
      exact ⟨_, .placeholder hdigits hpieces⟩
    · nomatch hsome

/-- A template has no other pieces. -/
theorem Pieces.unique {template : List Char} {pieces pieces' : List Piece} (h : Pieces template pieces) (h' : Pieces template pieces') :
    pieces = pieces' := by
  -- The two readings agree in each piece, as a character is never the brace that starts a placeholder.
  induction h generalizing pieces' with
  | nil =>
    cases h'
    rfl
  | @placeholder digits cs pieces hdigits _ ih =>
    generalize htemplate : '\x7b' :: (digits ++ '\x7d' :: cs) = template at h'
    cases h' with
    | nil => nomatch htemplate
    | @placeholder digits' cs' _ hdigits' hpieces' =>
      have htail := (List.cons.inj htemplate).2
      have hsame : digits = digits' := by rw [← takeWhile_digits hdigits cs, htail, takeWhile_digits hdigits']
      obtain rfl := hsame
      obtain rfl := (List.cons.inj (List.append_cancel_left htail)).2
      rw [ih hpieces']
    | character hcharacter => exact absurd htemplate.symm (hcharacter digits cs hdigits)
  | @character c cs pieces hcharacter _ ih =>
    cases h' with
    | placeholder hdigits => exact absurd rfl (hcharacter _ _ hdigits)
    | character _ hpieces' => rw [ih hpieces']

/-! ## Places of arguments -/

/-- Lists that are put together are not longer if none of them is. -/
theorem length_flatMap_le {α β : Type} {f g : α → List β} {xs : List α} (h : ∀ x ∈ xs, (f x).length ≤ (g x).length) :
    (xs.flatMap f).length ≤ (xs.flatMap g).length := by
  induction xs with
  | nil => exact Nat.le_refl _
  | cons x xs ih =>
    obtain ⟨hx, hxs⟩ := List.forall_mem_cons.1 h
    rw [List.flatMap_cons, List.flatMap_cons, List.length_append, List.length_append]
    exact Nat.add_le_add hx (ih hxs)

/-- Lists that are put together to the same list are the same, if none of them is longer. -/
theorem eq_of_flatMap_eq {α β : Type} {f g : α → List β} {xs : List α} (hle : ∀ x ∈ xs, (f x).length ≤ (g x).length)
    (h : xs.flatMap f = xs.flatMap g) : ∀ x ∈ xs, f x = g x := by
  induction xs with
  | nil => nofun
  | cons x xs ih =>
    obtain ⟨hx, hxs⟩ := List.forall_mem_cons.1 hle
    rw [List.flatMap_cons, List.flatMap_cons] at h
    have hlength := congrArg List.length h
    rw [List.length_append, List.length_append] at hlength
    have hrest := length_flatMap_le hxs
    obtain ⟨hfirst, h⟩ := List.append_inj h (by omega)
    exact List.forall_mem_cons.2 ⟨hfirst, ih hxs h⟩

/-- The template has a place for the argument of a number. -/
def HasPlace (template : String) (n : Nat) : Prop :=
  ∃ pieces digits, Pieces template.toList pieces ∧ Piece.placeholder digits ∈ pieces ∧ digits.all Char.isDigit = true ∧
    Nat.ofDigitChars 10 digits 0 = n

/-- The arguments are not longer than others, one by one. -/
def NotLonger : List String → List String → Prop := List.Forall₂ fun s t => s.length ≤ t.length

/-- A piece is not longer when it is filled with arguments that are not longer. -/
theorem Piece.length_filled_le {args args' : List String} (h : NotLonger args args') (p : Piece) :
    (p.filled args).length ≤ (p.filled args').length := by
  cases p with
  | character c => exact Nat.le_refl _
  | placeholder digits =>
    simp only [Piece.filled]
    split
    · generalize Nat.ofDigitChars 10 digits 0 = n
      induction h generalizing n with
      | nil => exact Nat.le_refl _
      | cons hle _ ih =>
        cases n with
        | zero => simpa [String.length_toList] using hle
        | succ n => simpa using ih n
    · exact Nat.le_refl _

/-- A template is not longer when it is filled with arguments that are not longer. -/
theorem length_fillText_le {args args' : List String} (h : NotLonger args args') (template : String) :
    (fillText args template).length ≤ (fillText args' template).length := by
  obtain ⟨pieces, hpieces⟩ := exists_pieces template.toList
  rw [hpieces.fillText_eq, hpieces.fillText_eq, String.length_ofList, String.length_ofList]
  exact length_flatMap_le fun p _ => p.length_filled_le h

/-- A template without a place for an argument is filled in the same way whatever that argument is. -/
theorem fillText_congr {template : String} {n : Nat} (hplace : ¬HasPlace template n) {args args' : List String}
    (h : ∀ k, k ≠ n → args[k]? = args'[k]?) : fillText args template = fillText args' template := by
  obtain ⟨pieces, hpieces⟩ := exists_pieces template.toList
  rw [hpieces.fillText_eq, hpieces.fillText_eq]
  refine congrArg String.ofList (List.flatMap_congr fun p hp => ?_)
  cases p with
  | character c => rfl
  | placeholder digits =>
    simp only [Piece.filled]
    split
    · rename_i hdigits
      rw [h _ fun hvalue => hplace ⟨pieces, digits, hpieces, hp, hdigits, hvalue⟩]
    · rfl

/-- Arguments that are not longer fill a template with the same text only if those that have a place in it are the same. -/
theorem eq_of_fillText_eq {args args' : List String} (hle : NotLonger args args') {template : String}
    (h : fillText args template = fillText args' template) {n : Nat} (hplace : HasPlace template n) (hn : n < args.length) :
    args[n]? = args'[n]? := by
  obtain ⟨pieces, digits, hpieces, hmem, hdigits, rfl⟩ := hplace
  rw [hpieces.fillText_eq, hpieces.fillText_eq] at h
  -- Each piece is at most as long as the same one filled otherwise, so that none of them can be made up for by another.
  have hpiece := eq_of_flatMap_eq (fun p _ => p.length_filled_le hle) (String.ofList_injective h) _ hmem
  have hn' : Nat.ofDigitChars 10 digits 0 < args'.length := hle.length_eq ▸ hn
  simp only [Piece.filled, if_pos hdigits, List.getElem?_eq_getElem hn, List.getElem?_eq_getElem hn', Option.map_some,
    Option.getD_some] at hpiece
  rw [List.getElem?_eq_getElem hn, List.getElem?_eq_getElem hn', String.toList_injective hpiece]

end QuantityCalculus.Template
