import QuantityCalculus.Proofs.Binary64.Sign
import QuantityCalculus.Proofs.Expression.Printing

/-!
# Doubles are read from their texts

A literal has no sign, so its text is the word for infinity or digits with at most one point. Such a text is one token of the
expression language, and what it stands for is what the text of a double reads back as.
-/

namespace QuantityCalculus.Binary64

open Lexeme

/-! ## The sign of what is read -/

/-- An unsigned magnitude has the sign bit clear. -/
theorem signClear_ofNumeral {numeral : Decimal.Numeral} (h : numeral.negative = false) :
    SignClear (Numeric.ofNumeral numeral) := by
  obtain ⟨negative, magnitude⟩ := numeral
  obtain rfl : negative = false := h
  unfold Numeric.ofNumeral
  cases magnitude with
  | infinity => exact (signClear_ofScientific ..).div (signClear_ofScientific ..)
  | notANumber => exact (signClear_ofScientific ..).div (signClear_ofScientific ..)
  | decimal digits scale => exact signClear_ofDecimal digits scale

/-- A mantissa starts with a digit or a point. -/
theorem head_of_spanMantissa? {cs mantissa rest : List Char} (h : Decimal.spanMantissa? cs = some (mantissa, rest)) :
    ∃ c mantissa', mantissa = c :: mantissa' ∧ (Text.isDecimalDigit c = true ∨ c = '.') := by
  have hwhole : ∀ whole : List Char, whole = cs.takeWhile Text.isDecimalDigit → whole ≠ [] → ∀ places,
      ∃ c mantissa', whole ++ places = c :: mantissa' ∧ (Text.isDecimalDigit c = true ∨ c = '.') := by
    intro whole hwhole hne places
    cases whole with
    | nil => exact absurd rfl hne
    | cons c whole =>
      have hc : c ∈ cs.takeWhile Text.isDecimalDigit := hwhole ▸ List.mem_cons_self ..
      exact ⟨c, whole ++ places, rfl, .inl (List.all_eq_true.1 List.all_takeWhile c hc)⟩
  unfold Decimal.spanMantissa? Decimal.spanDigits at h
  dsimp only at h
  split at h
  · split at h
    · nomatch h
    · obtain ⟨rfl, -⟩ := Prod.mk.inj (Option.some.inj h)
      by_cases hne : cs.takeWhile Text.isDecimalDigit = []
      · rw [hne]
        exact ⟨_, _, rfl, .inr rfl⟩
      · exact hwhole _ rfl hne _
  · split at h
    · nomatch h
    · rename_i hne
      obtain ⟨rfl, -⟩ := Prod.mk.inj (Option.some.inj h)
      have := hwhole _ rfl (by simpa using hne) []
      rwa [List.append_nil] at this

/-- A numeral that starts with a digit or a point has no sign. -/
theorem readSign_of_head {c : Char} (h : Text.isDecimalDigit c = true ∨ c = '.') (cs : List Char) :
    Decimal.readSign (c :: cs) = (false, c :: cs) := by
  unfold Decimal.readSign
  split
  · rename_i heq
    obtain ⟨rfl, -⟩ := List.cons.inj heq
    exact absurd h (by decide)
  · rename_i heq
    obtain ⟨rfl, -⟩ := List.cons.inj heq
    exact absurd h (by decide)
  · rfl

/-- The constants have the sign bit clear. -/
theorem signClear_of_ofWord {word : String} {x : Float} (h : ofWord word = .number x) : SignClear x := by
  unfold ofWord at h
  split at h
  · obtain rfl := Lexeme.number.inj h
    exact (signClear_ofScientific ..).div (signClear_ofScientific ..)
  · obtain rfl := Lexeme.number.inj h
    exact (signClear_ofScientific ..).div (signClear_ofScientific ..)
  · obtain rfl := Lexeme.number.inj h
    exact signClear_ofScientific ..
  · obtain rfl := Lexeme.number.inj h
    exact signClear_ofScientific ..
  · obtain rfl := Lexeme.number.inj h
    exact signClear_ofScientific ..
  all_goals nomatch h

/-- A literal has the sign bit clear. -/
theorem signClear_of_scan {c : Char} {cs : List Char} {x : Float} {more : Nat}
    (h : scan .common c cs = .ok (.number x, more)) : SignClear x := by
  rcases scan_cases h with h | ⟨s, h⟩ | h | ⟨-, -, -, _, -, h⟩ | ⟨symbol, h⟩
  · unfold ofPunctuation? at h
    split at h <;> first
      | obtain rfl := Lexeme.number.inj (Option.some.inj h)
        exact (signClear_ofScientific ..).div (signClear_ofScientific ..)
      | nomatch h
  · nomatch h
  · obtain ⟨mantissa, rest, exponent, y, hspan, hread, hy⟩ := scanNumber?_eq_ok h
    obtain rfl := Lexeme.number.inj hy
    obtain ⟨d, mantissa', rfl, hd⟩ := head_of_spanMantissa? hspan
    obtain ⟨numeral, hnumeral, rfl⟩ := Option.map_eq_some_iff.1 hread
    rw [List.cons_append, Decimal.Numeral.read, readSign_of_head hd] at hnumeral
    obtain ⟨magnitude, -, rfl⟩ := Option.map_eq_some_iff.1 hnumeral
    exact signClear_ofNumeral rfl
  · exact signClear_of_ofWord h.symm
  · nomatch h

/-! ## Numerals -/

/-- The digits that a number is written with are decimal. -/
theorem isDigit_of_mem_stripped {d : Decimal.Digits} {c : Char} (h : c ∈ d.stripped.1) : c.isDigit = true := by
  have hmem : c ∈ (Nat.toDigits 10 d.value).reverse := (List.dropWhile_sublist _).mem (List.mem_reverse.1 h)
  exact Nat.isDigit_of_mem_toDigits (by decide) (by decide) (List.mem_reverse.1 hmem)

/-- A number without exponent is written as a plain numeral, if it is written at all. -/
theorem plainNumeral_positional (d : Decimal.Digits) (h : d.positional.toList ≠ []) :
    PlainNumeral d.positional.toList := by
  have hdigits : ∀ c ∈ d.stripped.1, c.isDigit = true := fun c hc => isDigit_of_mem_stripped hc
  have hzeros : ∀ n, ∀ c ∈ List.replicate n '0', c.isDigit = true := by
    intro n c hc
    rw [List.eq_of_mem_replicate hc]
    rfl
  unfold Decimal.Digits.positional at h ⊢
  dsimp only at h ⊢
  split
  · rename_i hscale
    rw [if_pos hscale] at h
    rw [String.toList_ofList] at h ⊢
    refine .whole h fun c hc => ?_
    rcases List.mem_append.1 hc with hc | hc
    · exact hdigits c hc
    · exact hzeros _ c hc
  split
  · rename_i hplaces
    rw [String.toList_ofList]
    refine .places ?_ (fun c hc => hdigits c (List.mem_of_mem_take hc)) fun c hc => hdigits c (List.mem_of_mem_drop hc)
    rw [← List.length_pos_iff, List.length_take]
    omega
  · rw [String.toList_ofList, List.cons_append, List.cons_append]
    refine .places (List.cons_ne_nil '0' []) (by simp) fun c hc => ?_
    rcases List.mem_append.1 hc with hc | hc
    · exact hzeros _ c hc
    · exact hdigits c hc

/-! ## The text of a literal -/

/-- Whether a kind of number has a minus sign. -/
def hasMinus : Decimal.Shape → Bool
  | .notANumber => false
  | .infinite negative | .finite negative _ => negative

/-- A number with the sign bit clear has no minus sign. -/
theorem SignClear.hasMinus_shape {x : Float} (h : SignClear x) : hasMinus (Decimal.shape x) = false := by
  have hzero : x.toBits.toNat / 2 ^ 63 = 0 := Nat.div_eq_of_lt h
  unfold Decimal.shape Decimal.Shape.ofFields
  dsimp only
  rw [hzero]
  split
  · split <;> rfl
  split <;> rfl

/-- A double is read from its text if its sign bit is clear, it is a number, and its text spells it. -/
theorem legible_number {x : Float} (hsign : SignClear x) (hnumber : Numeric.isNaN x = false)
    (hread : Numeric.read (Decimal.floatText x).toList = some x) : Expression.Legible (.number x) := by
  have hminus := hsign.hasMinus_shape
  change Operand (Decimal.floatText x).toList [.number x]
  unfold Decimal.floatText at hread ⊢
  cases hshape : Decimal.shape x with
  | notANumber =>
    rw [hshape] at hread
    have hnan : Numeric.read "NaN".toList = some (Numeric.notANumber : Float) := by decide +kernel
    obtain rfl := Option.some.inj (hnan.symm.trans hread)
    exact absurd hnumber (by decide +kernel)
  | infinite negative =>
    rw [hshape] at hread hminus
    obtain rfl : negative = false := hminus
    have hinfinity : Numeric.read "inf".toList = some (Numeric.infinity : Float) := by decide +kernel
    obtain rfl := Option.some.inj (hinfinity.symm.trans hread)
    have hinf : "inf".toList = 'i' :: ['n', 'f'] := rfl
    exact operand_word hinf (by decide) (by decide)
  | finite negative magnitude =>
    rw [hshape] at hread hminus
    obtain rfl : negative = false := hminus
    dsimp only at hread ⊢
    rw [if_neg Bool.false_ne_true, String.empty_append] at hread ⊢
    split at hread
    · rename_i hzero
      rw [if_pos hzero]
      exact operand_number (.whole (List.cons_ne_nil '0' []) (by simp)) hread
    · rename_i hzero
      rw [if_neg hzero]
      refine operand_number (plainNumeral_positional _ fun hnil => ?_) hread
      rw [hnil] at hread
      nomatch hread

end QuantityCalculus.Binary64

namespace QuantityCalculus.Expression

open Lexeme

/-- Printing an expression and reading it again gives the same expression: whatever was read from a text is read from its own text
too, provided that its numbers are numbers that read back from their texts, and that the characters of its strings stand for
themselves between quotes or have escapes of two characters. -/
theorem read_text_of_read {text : String} {t : Expression Float} (h : read .common text = .ok t)
    (hnumbers : ∀ x, .number x ∈ t.leaves →
      Numeric.isNaN x = false ∧ Numeric.read (Numeric.text x).toList = some x)
    (hstrings : ∀ s, .string s ∈ t.leaves → ∀ c ∈ s.toList, Text.EscapesSimply c) : read .common t.text = .ok t := by
  refine read_text_of_legible h (fun x hx hscan => ?_) hstrings
  obtain ⟨hnumber, hread⟩ := hnumbers x hx
  obtain ⟨c, cs, more, hscan⟩ := hscan
  exact Binary64.legible_number (Binary64.signClear_of_scan hscan) hnumber hread

/-- A conversion that is spelled with an arrow is printed with the word, and read as the same tree. -/
theorem read_text_of_conversion :
    read .common "2.5 => \"m\"" = .ok (.binary .convert (.number (2.5 : Float)) (.string "m")) ∧
      read .common "(2.5 to \"m\")" = .ok (.binary .convert (.number (2.5 : Float)) (.string "m")) := by
  have htwo : Numeric.read ['2', '.', '5'] = some (2.5 : Float) := by decide +kernel
  have hm : ∀ c ∈ "m".toList, Text.EscapesSimply c := by
    intro c hc
    obtain rfl : c = 'm' := by simpa using hc
    exact .inl (by decide +kernel)
  have hread : read .common "2.5 => \"m\"" = .ok (.binary .convert (.number (2.5 : Float)) (.string "m")) := by
    have hnumber : Operand ['2', '.', '5'] [.number (2.5 : Float)] :=
      operand_number (.places (List.cons_ne_nil '2' []) (by simp) (by simp)) htwo
    have harrow : Spelled (F := Float) "=>".toList [.operator "=>"] := spelled_operator (by decide +kernel)
    have hspelled := hnumber.spelled.space (harrow.space (operand_string (F := Float) hm).spelled)
    refine read_of_spelling hspelled.spelling (.single (.element (.unassigned ?_)))
    have hlevel : levelPrecedences[11]? = some OperatorTable.convertPrecedence := rfl
    have hop : IsOperator OperatorTable.convertPrecedence "=>" .convert := by
      unfold IsOperator
      decide
    exact (Derives.binary hlevel ((Derives.number _).unary_of_factor.level_of_unary (by decide)) hop
      ((Derives.string _).unary_of_factor.level_of_unary (by decide))).level_of_level (by decide) (by decide)
  have htext : text (.binary .convert (.number (2.5 : Float)) (.string "m")) = "(2.5 to \"m\")" := by decide +kernel
  refine ⟨hread, ?_⟩
  rw [← htext]
  refine read_text_of_read hread (fun x hx => ?_) fun s hs => ?_
  · obtain rfl : x = 2.5 := by simpa [leaves] using hx
    exact ⟨by decide +kernel, by decide +kernel⟩
  · obtain rfl : s = "m" := by simpa [leaves] using hs
    exact hm

end QuantityCalculus.Expression
