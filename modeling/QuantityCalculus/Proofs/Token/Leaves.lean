import QuantityCalculus.Proofs.Decimal.Scan
import QuantityCalculus.Proofs.Token.Strings

/-!
# Names, truth values and strings are spelled by their texts

A name that was read is read again wherever a delimiter follows it, and so are the reserved words. A string is read from its quoted
text if no character of it needs an escape of more than two characters.
-/

namespace QuantityCalculus

/-- Between quotes, the character stands for itself or has an escape of two characters. -/
def Text.EscapesSimply (c : Char) : Prop :=
  Text.escapeChar c = [c] ∨ ∃ d, Text.escapeChar c = ['\\', d]

namespace Lexeme

variable {F : Type} [Numeric F]

/-! ## What a token is read from -/

/-- A digit starts a number. -/
theorem isDecimalDigit_eq_false {c : Char} {cs : List Char} (h : scanNumber? (F := F) (c :: cs) = none) :
    Text.isDecimalDigit c = false := by
  rw [← Bool.not_eq_true]
  intro hdigit
  have hspan : Decimal.spanMantissa? (c :: cs) ≠ none := by
    unfold Decimal.spanMantissa? Decimal.spanDigits
    rw [List.takeWhile_cons_of_pos hdigit]
    dsimp only
    split <;> simp
  obtain ⟨_, hmantissa⟩ := Option.ne_none_iff_exists'.1 hspan
  rw [scanNumber?, hmantissa] at h
  cases h

/-- The ways in which a token is read: as punctuation, a string, a number, a word or an operator. -/
theorem scan_cases {table : OperatorTable} {c : Char} {cs : List Char} {lexeme : Lexeme F} {more : Nat}
    (h : scan table c cs = .ok (lexeme, more)) :
    ofPunctuation? c = some lexeme ∨ (∃ s, lexeme = .string s) ∨ scanNumber? (c :: cs) = some (.ok (lexeme, more)) ∨
      (ofPunctuation? (F := F) c = none ∧ isQuote c = false ∧ Text.isDecimalDigit c = false ∧
        ∃ continues, wordTail? c = some continues ∧
          lexeme = ofWord (String.ofList (c :: cs.takeWhile continues))) ∨
      ∃ symbol, lexeme = .operator symbol := by
  unfold scan at h
  split at h
  · rename_i lexeme' hpunctuation
    obtain ⟨rfl, -⟩ := Prod.mk.inj (Except.ok.inj h)
    exact .inl hpunctuation
  rename_i hpunctuation
  split at h
  · unfold scanString at h
    split at h
    · cases h
    · obtain ⟨rfl, -⟩ := Prod.mk.inj (Except.ok.inj h)
      exact .inr (.inl ⟨_, rfl⟩)
  rename_i hquote
  split at h
  · rename_i result hnumber
    rw [h] at hnumber
    exact .inr (.inr (.inl hnumber))
  rename_i hnumber
  split at h
  · rename_i scanned hscanned
    obtain rfl := Except.ok.inj h
    cases hword : scanWord? (F := F) c cs with
    | none =>
      rw [hword, Option.none_or] at hscanned
      obtain ⟨symbol, -, hsymbol⟩ := Option.map_eq_some_iff.1 hscanned
      exact .inr (.inr (.inr (.inr ⟨_, (Prod.mk.inj hsymbol).1.symm⟩)))
    | some word =>
      rw [hword, Option.some_or] at hscanned
      obtain rfl := Option.some.inj hscanned
      rw [scanWord?_eq] at hword
      obtain ⟨continues, htail, hpair⟩ := Option.map_eq_some_iff.1 hword
      exact .inr (.inr (.inr (.inl ⟨hpunctuation, by simpa using hquote, isDecimalDigit_eq_false hnumber, continues, htail,
        (Prod.mk.inj hpair).1.symm⟩)))
  · cases h

/-- A number that was read was spelled by a mantissa and what may follow one. -/
theorem scanNumber?_eq_ok {cs : List Char} {lexeme : Lexeme F} {more : Nat}
    (h : scanNumber? cs = some (.ok (lexeme, more))) : ∃ mantissa rest exponent x,
      Decimal.spanMantissa? cs = some (mantissa, rest) ∧ Numeric.read (mantissa ++ exponent) = some x ∧
        lexeme = .number x := by
  obtain ⟨⟨mantissa, rest⟩, hspan, h⟩ := Option.map_eq_some_iff.1 h
  cases hexponent : spanExponent? rest with
  | none =>
    simp only [hexponent] at h
    split at h
    · rename_i x hx
      obtain ⟨rfl, -⟩ := Prod.mk.inj (Except.ok.inj h)
      exact ⟨mantissa, rest, [], x, hspan, by rwa [List.append_nil], rfl⟩
    · nomatch h
  | some exponent =>
    simp only [hexponent] at h
    split at h
    · rename_i x hx
      obtain ⟨rfl, -⟩ := Prod.mk.inj (Except.ok.inj h)
      exact ⟨mantissa, rest, 'e' :: exponent, x, hspan, hx, rfl⟩
    · nomatch h

/-! ## Words -/

/-- A name is its word. -/
theorem eq_of_ofWord_eq_identifier {word name : String} (h : ofWord (F := F) word = .identifier name) : word = name := by
  unfold ofWord at h
  split at h <;> first | exact Lexeme.identifier.inj h | nomatch h

/-- A name that was read is an operand. -/
theorem operand_identifier {c : Char} {cs : List Char} {name : String} {more : Nat} (hblank : Text.isBlank c = false)
    (h : scan (F := F) .common c cs = .ok (.identifier name, more)) :
    Operand (F := F) name.toList [.identifier name] := by
  rcases scan_cases h with h | ⟨s, h⟩ | h | ⟨hpunctuation, hquote, hdigit, continues, htail, h⟩ | ⟨symbol, h⟩
  · unfold ofPunctuation? at h
    split at h <;> nomatch h
  · nomatch h
  · obtain ⟨_, _, _, x, -, -, h⟩ := scanNumber?_eq_ok h
    nomatch h
  · obtain rfl := eq_of_ofWord_eq_identifier h.symm
    rw [String.toList_ofList]
    refine Operand.of_scan hblank (continuesOperator_eq_false_of_wordTail? htail) fun rest hrest => ?_
    rw [h]
    exact scan_word htail hpunctuation hquote hdigit (List.all_eq_true.1 List.all_takeWhile) hrest
  · nomatch h

/-- A word of letters that opens like a name is an operand. -/
theorem operand_word {word : String} {c : Char} {cs : List Char} (hword : word.toList = c :: cs)
    (hc : Text.isBlank c = false ∧ Text.isCurrencySign c = false ∧ startsName c = true ∧ Text.isDecimalDigit c = false ∧
      isQuote c = false ∧ c ∉ punctuationMarks) (hcs : cs.all continuesName = true) :
    Operand (F := F) word.toList [ofWord word] := by
  obtain ⟨hblank, hcurrency, hname, hdigit, hquote, hpunctuation⟩ := hc
  have htail : wordTail? c = some continuesName := by
    rw [wordTail?, hcurrency, hname]
    rfl
  have hofList : String.ofList (c :: cs) = word := by rw [← hword, String.ofList_toList]
  rw [hword]
  refine Operand.of_scan hblank (continuesOperator_eq_false_of_wordTail? htail) fun rest hrest => ?_
  rw [scan_word htail (ofPunctuation?_eq_none hpunctuation) hquote hdigit (List.all_eq_true.1 hcs) hrest, hofList]

/-- A truth value is an operand. -/
theorem operand_boolean (b : Bool) : Operand (F := F) (truthText b).toList [.boolean b] := by
  cases b with
  | false =>
    have hfalse : "false".toList = 'f' :: ['a', 'l', 's', 'e'] := rfl
    exact operand_word hfalse (by decide) (by decide)
  | true =>
    have htrue : "true".toList = 't' :: ['r', 'u', 'e'] := rfl
    exact operand_word htrue (by decide) (by decide)

/-! ## Numbers -/

/-- Digits, with a point and more digits after them or without. -/
inductive PlainNumeral : List Char → Prop
  | whole {ds} : ds ≠ [] → (∀ c ∈ ds, c.isDigit = true) → PlainNumeral ds
  | places {ds es} : ds ≠ [] → (∀ c ∈ ds, c.isDigit = true) → (∀ c ∈ es, c.isDigit = true) →
      PlainNumeral (ds ++ '.' :: es)

/-- A digit starts numbers and nothing else. -/
theorem class_of_isDigit {c : Char} (h : c.isDigit = true) : Text.isDecimalDigit c = true ∧ Text.isBlank c = false ∧
    continuesOperator c = false ∧ isQuote c = false ∧ c ∉ punctuationMarks := by
  have hall : (['0', '1', '2', '3', '4', '5', '6', '7', '8', '9'].all fun c => Text.isDecimalDigit c && !Text.isBlank c &&
      !operatorCharacters.contains c && !isQuote c && !punctuationMarks.contains c) = true := by
    decide +kernel
  obtain ⟨hdigit, hblank, hoperator, hrest⟩ : Text.isDecimalDigit c = true ∧ Text.isBlank c = false ∧
      c ∉ operatorCharacters ∧ isQuote c = false ∧ c ∉ punctuationMarks := by
    simpa [and_assoc] using List.all_eq_true.1 hall c (Decimal.mem_digits h)
  exact ⟨hdigit, hblank, continuesOperator_eq_false hoperator, hrest⟩

/-- A plain numeral is a mantissa. -/
theorem PlainNumeral.isMantissa {cs : List Char} (h : PlainNumeral cs) : Decimal.IsMantissa cs := by
  cases h with
  | whole hne hds => exact .whole hne fun c hc => (class_of_isDigit (hds c hc)).1
  | places hne hds hes =>
    exact .places (.inl hne) (fun c hc => (class_of_isDigit (hds c hc)).1) fun c hc => (class_of_isDigit (hes c hc)).1

/-- A plain numeral is read as far as it goes. -/
theorem PlainNumeral.spanMantissa? {cs rest : List Char} (h : PlainNumeral cs) (hrest : Delimited rest) :
    Decimal.spanMantissa? (cs ++ rest) = some (cs, rest) := by
  refine Decimal.spanMantissa?_append h.isMantissa ?_ ?_
  · intro c hc
    exact (not_continues_of_mem_delimiters (hrest.mem_of_mem_head? hc)).2.2.2
  · rintro c hc rfl
    exact absurd (hrest.mem_of_mem_head? hc) (by decide)

/-- A plain numeral starts with a digit. -/
theorem PlainNumeral.exists_head {cs : List Char} (h : PlainNumeral cs) :
    ∃ c cs', cs = c :: cs' ∧ c.isDigit = true := by
  have hhead : ∀ ds : List Char, ds ≠ [] → (∀ c ∈ ds, c.isDigit = true) → ∀ es, ∃ c cs', ds ++ es = c :: cs' ∧
      c.isDigit = true := by
    intro ds hne hds es
    cases ds with
    | nil => exact absurd rfl hne
    | cons c ds => exact ⟨c, ds ++ es, rfl, hds c (List.mem_cons_self ..)⟩
  cases h with
  | whole hne hds =>
    have := hhead _ hne hds []
    rwa [List.append_nil] at this
  | places hne hds hes => exact hhead _ hne hds _

/-- No exponent starts with a delimiter. -/
theorem Delimited.spanExponent? {rest : List Char} (h : Delimited rest) : spanExponent? rest = none := by
  cases rest with
  | nil => rfl
  | cons d rest =>
    have hall : (delimiters.all fun d => !(d == 'e' || d == 'E' || d == '_')) = true := by decide
    have hmark : (d == 'e' || d == 'E' || d == '_') = false := by simpa using List.all_eq_true.1 hall d h
    rw [Lexeme.spanExponent?, hmark]
    rfl

/-- A plain numeral that a number is read from is an operand. -/
theorem operand_number {cs : List Char} (h : PlainNumeral cs) {x : F} (hread : Numeric.read cs = some x) :
    Operand cs [.number x] := by
  obtain ⟨c, cs', rfl, hc⟩ := h.exists_head
  obtain ⟨-, hblank, hoperator, hquote, hpunctuation⟩ := class_of_isDigit hc
  refine Operand.of_scan hblank hoperator fun rest hrest => ?_
  have hnumber : scanNumber? (F := F) (c :: (cs' ++ rest)) = some (.ok (.number x, cs'.length)) := by
    have hspan := h.spanMantissa? hrest
    rw [List.cons_append] at hspan
    rw [scanNumber?, hspan]
    simp [hrest.spanExponent?, hread]
  rw [scan, ofPunctuation?_eq_none hpunctuation, hquote, hnumber]
  rfl

/-! ## Strings -/

/-- The characters with an escape of two characters. -/
theorem escapeChar_of_mem {c : Char} (h : c ∈ ['"', '\\', '\n', '\r', '\t', '\x00']) :
    ∃ d, Text.escapeChar c = ['\\', d] ∧ d ≠ '\n' ∧ escaped d = c := by
  simp only [List.mem_cons, List.not_mem_nil, or_false] at h
  rcases h with rfl | rfl | rfl | rfl | rfl | rfl
  · exact ⟨'"', by decide⟩
  · exact ⟨'\\', by decide⟩
  · exact ⟨'n', by decide⟩
  · exact ⟨'r', by decide⟩
  · exact ⟨'t', by decide⟩
  · exact ⟨'0', by decide⟩

/-- How a character with a simple escape is written between quotes. -/
theorem escapeChar_of_escapesSimply {c : Char} (h : Text.EscapesSimply c) :
    (Text.escapeChar c = [c] ∧ c ≠ '\\' ∧ c ≠ '"') ∨ ∃ d, Text.escapeChar c = ['\\', d] ∧ d ≠ '\n' ∧ escaped d = c := by
  by_cases hc : c ∈ ['"', '\\', '\n', '\r', '\t', '\x00']
  · exact .inr (escapeChar_of_mem hc)
  · simp only [List.mem_cons, List.not_mem_nil, or_false, not_or] at hc
    obtain ⟨hquote, hbackslash, hline, hreturn, htab, hnul⟩ := hc
    have hescape : Text.escapeChar c =
        if Text.isUnprintable c then ['\\', 'u', '\x7b'] ++ Nat.toDigits 16 c.toNat ++ ['\x7d'] else [c] := by
      simp [Text.escapeChar, hquote, hbackslash, hline, hreturn, htab, hnul]
    by_cases hunprintable : Text.isUnprintable c = true
    · -- an escape by number is longer than two characters
      rw [if_pos hunprintable] at hescape
      rw [Text.EscapesSimply, hescape] at h
      rcases h with h | ⟨d, h⟩
      · simpa using congrArg List.length h
      · simpa using congrArg List.length h
    · rw [if_neg hunprintable] at hescape
      exact .inl ⟨hescape, hbackslash, hquote⟩

/-- The escapes of a text are a literal of it. -/
theorem literal_flatMap_escapeChar {cs : List Char} (h : ∀ c ∈ cs, Text.EscapesSimply c) :
    Literal '"' (cs.flatMap Text.escapeChar) cs := by
  induction cs with
  | nil => exact .nil
  | cons c cs ih =>
    have ih := ih fun d hd => h d (List.mem_cons_of_mem _ hd)
    rw [List.flatMap_cons]
    rcases escapeChar_of_escapesSimply (h c (List.mem_cons_self ..)) with ⟨hc, hbackslash, hquote⟩ | ⟨d, hd, hfeed, hescaped⟩
    · rw [hc]
      exact .plain hquote hbackslash ih
    · have hliteral := Literal.escape hfeed ih
      rw [← escaped_eq, hescaped] at hliteral
      rw [hd]
      exact hliteral

/-- A string of characters with simple escapes is an operand. -/
theorem operand_string {s : String} (h : ∀ c ∈ s.toList, Text.EscapesSimply c) :
    Operand (F := F) (Text.quoted s).toList [.string s] := by
  rw [Text.quoted, String.toList_ofList, List.cons_append]
  refine Operand.of_scan (by decide) (continuesOperator_eq_false (by decide)) fun rest _ => ?_
  obtain ⟨-, -, hscan⟩ := scan_of_isQuote (F := F) (show isQuote '"' = true from rfl) .common (s.toList.flatMap Text.escapeChar ++ '"' :: rest)
  rw [List.append_assoc, List.cons_append, List.nil_append, hscan, scanString_eq_ok_iff, List.length_append]
  exact ⟨by decide, _, _, rest, literal_flatMap_escapeChar h, rfl, by rw [String.ofList_toList], rfl⟩

end Lexeme

end QuantityCalculus
