import QuantityCalculus.Proofs.Evaluation.Outcome
import QuantityCalculus.Proofs.Text.Ranges
import QuantityCalculus.Proofs.Token.Lossless

/-!
# Texts with blanks between them

No token reaches over a blank that stands outside of it: each reader reads the same where a blank and anything else follows its text
(`Lexeme.scan_append_gap`). So two texts with blanks between them have the tokens of the first text and then those of the second one,
moved by what stands before it (`lex_append_blanks`).
-/

namespace QuantityCalculus

/-- Nothing, or a blank with anything after it. -/
def IsGap (cs : List Char) : Prop := ∀ c ∈ cs.head?, Text.isBlank c = true

/-- Blanks with anything after them are a gap. -/
theorem isGap_append {w : List Char} (hne : w ≠ []) (hw : ∀ c ∈ w, Text.isBlank c = true) (cs : List Char) : IsGap (w ++ cs) := by
  obtain ⟨d, w', rfl⟩ := List.exists_cons_of_ne_nil hne
  intro c hc
  obtain rfl := Option.some.inj hc
  exact hw _ (List.mem_cons_self ..)

/-- A blank is no part of a name or a number. -/
theorem class_of_isBlank {c : Char} (h : Text.isBlank c = true) : Text.isLetter c = false ∧ Text.isNumeral c = false ∧
    Text.isDecimalDigit c = false ∧ c ∉ ['°', '.', '+', '-', 'e', 'E', '_'] := by
  refine ⟨Text.inRanges_eq_false (by decide +kernel) h, Text.inRanges_eq_false (by decide +kernel) h,
    Text.inRanges_eq_false (by decide +kernel) h, fun hmark => ?_⟩
  have hnone : (['°', '.', '+', '-', 'e', 'E', '_'].any Text.isBlank) = false := by decide +kernel
  exact List.any_eq_false.1 hnone c hmark h

section

variable {gap : List Char}

/-- What a class of characters without blanks reads ends before a gap. -/
theorem IsGap.span_append {p : Char → Bool} (hgap : IsGap gap) (hp : ∀ c, Text.isBlank c = true → p c = false) (cs : List Char) :
    (cs ++ gap).takeWhile p = cs.takeWhile p ∧ (cs ++ gap).dropWhile p = cs.dropWhile p ++ gap := by
  induction cs with
  | nil =>
    cases gap with
    | nil => exact ⟨rfl, rfl⟩
    | cons d gap =>
      have hd : ¬p d = true := Bool.eq_false_iff.1 (hp d (hgap d rfl))
      exact ⟨List.takeWhile_cons_of_neg hd, List.dropWhile_cons_of_neg hd⟩
  | cons c cs ih =>
    rw [List.cons_append]
    by_cases hc : p c = true
    · rw [List.takeWhile_cons_of_pos hc, List.dropWhile_cons_of_pos hc, List.takeWhile_cons_of_pos hc, List.dropWhile_cons_of_pos hc,
        ih.1, ih.2]
      exact ⟨rfl, rfl⟩
    · rw [List.takeWhile_cons_of_neg hc, List.dropWhile_cons_of_neg hc, List.takeWhile_cons_of_neg hc, List.dropWhile_cons_of_neg hc]
      exact ⟨rfl, rfl⟩

namespace Decimal

/-- Digits end before a gap. -/
theorem spanDigits_append_gap (hgap : IsGap gap) (cs : List Char) :
    spanDigits (cs ++ gap) = ((spanDigits cs).1, (spanDigits cs).2 ++ gap) := by
  obtain ⟨htake, hdrop⟩ := hgap.span_append (p := Text.isDecimalDigit) (fun _ h => (class_of_isBlank h).2.2.1) cs
  exact Prod.ext htake hdrop

/-- A sign is not read from a gap. -/
theorem spanSign_append_gap (hgap : IsGap gap) (cs : List Char) :
    spanSign (cs ++ gap) = ((spanSign cs).1, (spanSign cs).2 ++ gap) := by
  have hother {c : Char} (hplus : c ≠ '+') (hminus : c ≠ '-') (rest : List Char) : spanSign (c :: rest) = ([], c :: rest) :=
    spanSign_append .none hplus hminus rest
  cases cs with
  | nil =>
    cases gap with
    | nil => rfl
    | cons d gap =>
      obtain ⟨-, -, -, hmark⟩ := class_of_isBlank (hgap d rfl)
      exact hother (by rintro rfl; simp at hmark) (by rintro rfl; simp at hmark) gap
  | cons c cs =>
    by_cases hplus : c = '+'
    · subst hplus
      rfl
    by_cases hminus : c = '-'
    · subst hminus
      rfl
    rw [List.cons_append, hother hplus hminus, hother hplus hminus]
    rfl

/-- An integer ends before a gap. -/
theorem spanInteger?_append_gap (hgap : IsGap gap) (cs : List Char) :
    spanInteger? (cs ++ gap) = (spanInteger? cs).map fun (numeral, rest) => (numeral, rest ++ gap) := by
  unfold spanInteger?
  rw [spanSign_append_gap hgap]
  dsimp only
  rw [spanDigits_append_gap hgap]
  dsimp only
  split <;> rfl

/-- Digits with a point go on with the places. -/
theorem spanMantissa?_eq_of_point {cs whole after : List Char} (h : spanDigits cs = (whole, '.' :: after)) :
    spanMantissa? cs = if whole.isEmpty && (spanDigits after).1.isEmpty then none
      else some (whole ++ '.' :: (spanDigits after).1, (spanDigits after).2) := by
  unfold spanMantissa?
  rw [h]
  rfl

/-- Digits that no point follows are a mantissa by themselves. -/
theorem spanMantissa?_eq_of_ne {cs whole rest : List Char} (h : spanDigits cs = (whole, rest)) (hpoint : ∀ c ∈ rest.head?, c ≠ '.') :
    spanMantissa? cs = if whole.isEmpty then none else some (whole, rest) := by
  unfold spanMantissa?
  rw [h]
  dsimp only
  split
  · exact absurd rfl (hpoint '.' rfl)
  · rfl

/-- A mantissa ends before a gap. -/
theorem spanMantissa?_append_gap (hgap : IsGap gap) (cs : List Char) :
    spanMantissa? (cs ++ gap) = (spanMantissa? cs).map fun (mantissa, rest) => (mantissa, rest ++ gap) := by
  have hspan := spanDigits_append_gap hgap cs
  cases hcs : spanDigits cs with
  | mk whole rest =>
    rw [hcs] at hspan
    dsimp only at hspan
    by_cases hpoint : ∃ after, rest = '.' :: after
    · obtain ⟨after, rfl⟩ := hpoint
      rw [List.cons_append] at hspan
      rw [spanMantissa?_eq_of_point hspan, spanMantissa?_eq_of_point hcs, spanDigits_append_gap hgap]
      dsimp only
      split <;> rfl
    · have hrest : ∀ c ∈ rest.head?, c ≠ '.' := by
        rintro c hc rfl
        exact hpoint (List.head?_eq_some_iff.1 hc)
      have hrest' : ∀ c ∈ (rest ++ gap).head?, c ≠ '.' := by
        cases rest with
        | nil =>
          rintro c hc rfl
          exact (class_of_isBlank (hgap '.' hc)).2.2.2 (by simp)
        | cons d rest => exact hrest
      rw [spanMantissa?_eq_of_ne hspan hrest', spanMantissa?_eq_of_ne hcs hrest]
      split <;> rfl

end Decimal

/-- A text is at the start of a text before a gap if it is at the start of both together. -/
theorem IsGap.isPrefixOf_append (hgap : IsGap gap) {option : List Char} (h : ∀ c ∈ option, Text.isBlank c = false) (cs : List Char) :
    option.isPrefixOf (cs ++ gap) = option.isPrefixOf cs := by
  induction option generalizing cs with
  | nil => cases cs <;> cases gap <;> rfl
  | cons o option ih =>
    obtain ⟨ho, hoption⟩ := List.forall_mem_cons.1 h
    cases cs with
    | nil =>
      cases gap with
      | nil => rfl
      | cons d gap =>
        have hne : o ≠ d := by
          rintro rfl
          exact absurd (hgap o rfl) (by simp [ho])
        simp [List.isPrefixOf, hne]
    | cons c cs => rw [List.cons_append, List.isPrefixOf, List.isPrefixOf, ih hoption]

/-- The longest of some texts without blanks ends before a gap. -/
theorem IsGap.longestMatch?_append (hgap : IsGap gap) {options : List (List Char)}
    (h : ∀ option ∈ options, ∀ c ∈ option, Text.isBlank c = false) (cs : List Char) :
    Text.longestMatch? options (cs ++ gap) = Text.longestMatch? options cs := by
  refine Text.longestMatch?_congr fun o => and_congr_right fun ho => ?_
  rw [← List.isPrefixOf_iff_prefix, ← List.isPrefixOf_iff_prefix, hgap.isPrefixOf_append (h o ho)]

end

namespace Lexeme

variable {F : Type} [Numeric F] {gap : List Char}

/-! ## Tokens before a gap -/

omit [Numeric F] in
/-- A string is closed within its text, whatever follows. -/
theorem scanString_append {quote : Char} {cs : List Char} {lexeme : Lexeme F} {more : Nat}
    (h : scanString quote cs = .ok (lexeme, more)) (rest : List Char) :
    more ≤ cs.length ∧ scanString quote (cs ++ rest) = .ok (lexeme, more) := by
  obtain ⟨hquote, body, text, after, hliteral, rfl, rfl, rfl⟩ := scanString_eq_ok_iff.1 h
  refine ⟨by simp only [List.length_append, List.length_cons]; omega, ?_⟩
  exact scanString_eq_ok_iff.2 ⟨hquote, body, text, after ++ rest, hliteral, List.append_assoc .., rfl, rfl⟩

/-- An exponent ends before a gap. -/
theorem spanExponent?_append_gap (hgap : IsGap gap) (cs : List Char) : spanExponent? (cs ++ gap) = spanExponent? cs := by
  cases cs with
  | nil =>
    cases gap with
    | nil => rfl
    | cons d gap =>
      obtain ⟨-, -, -, hmark⟩ := class_of_isBlank (hgap d rfl)
      have hne : d ≠ 'e' ∧ d ≠ 'E' ∧ d ≠ '_' := by
        refine ⟨?_, ?_, ?_⟩ <;> rintro rfl <;> simp at hmark
      rw [List.nil_append, spanExponent?, spanExponent?, if_neg (by simp [hne])]
  | cons c cs =>
    rw [List.cons_append, spanExponent?, spanExponent?, Decimal.spanInteger?_append_gap hgap, Option.map_map]
    rfl

/-- A number ends before a gap, and there is none where there was none. -/
theorem scanNumber?_append_gap (hgap : IsGap gap) (cs : List Char) : scanNumber? (F := F) (cs ++ gap) = scanNumber? cs := by
  unfold scanNumber?
  rw [Decimal.spanMantissa?_append_gap hgap, Option.map_map]
  refine Option.map_congr fun ⟨mantissa, rest⟩ hspan => ?_
  obtain ⟨rfl, -⟩ := Decimal.spanMantissa?_eq_some hspan
  dsimp only [Function.comp_apply]
  rw [spanExponent?_append_gap hgap]
  cases hexponent : spanExponent? rest with
  | none =>
    dsimp only
    rw [List.append_assoc, List.take_left, List.take_left]
  | some exponent =>
    obtain ⟨mark, after, rfl, -⟩ := spanExponent?_eq_some hexponent
    have htake (rest : List Char) : (mantissa ++ mark :: (exponent ++ rest)).take (mantissa.length + 1 + exponent.length) =
        mantissa ++ mark :: exponent := by
      rw [← List.cons_append, ← List.append_assoc]
      exact List.take_left' (by simp only [List.length_append, List.length_cons]; omega)
    dsimp only
    rw [List.append_assoc, List.cons_append, List.append_assoc, htake, htake]

/-- A number that is read is a part of its text. -/
theorem length_of_scanNumber? {cs : List Char} {lexeme : Lexeme F} {more : Nat} (h : scanNumber? cs = some (.ok (lexeme, more))) :
    more + 1 ≤ cs.length := by
  obtain ⟨⟨mantissa, rest⟩, hspan, hread⟩ := Option.map_eq_some_iff.1 h
  obtain ⟨rfl, hmantissa⟩ := Decimal.spanMantissa?_eq_some hspan
  obtain ⟨c, cs', rfl, -⟩ := hmantissa.exists_head
  cases hexponent : spanExponent? rest with
  | none =>
    simp only [hexponent] at hread
    split at hread
    · obtain ⟨-, rfl⟩ := Prod.mk.inj (Except.ok.inj hread)
      simp
    · cases hread
  | some exponent =>
    obtain ⟨mark, after, rfl, -⟩ := spanExponent?_eq_some hexponent
    simp only [hexponent] at hread
    split at hread
    · obtain ⟨-, rfl⟩ := Prod.mk.inj (Except.ok.inj hread)
      simp only [List.length_append, List.length_cons]
      omega
    · cases hread

/-- No word has a blank in it. -/
theorem wordTail?_isBlank {c d : Char} {continues : Char → Bool} (h : wordTail? c = some continues) (hd : Text.isBlank d = true) :
    continues d = false := by
  obtain ⟨hletter, hnumeral, -, hmark⟩ := class_of_isBlank hd
  unfold wordTail? at h
  split at h
  · obtain rfl := Option.some.inj h
    exact hletter
  split at h
  · obtain rfl := Option.some.inj h
    have hdegree : d ≠ '°' := by
      rintro rfl
      simp at hmark
    simp [continuesName, hletter, hnumeral, hdegree]
  · cases h

/-- A word ends before a gap, and there is none where there was none. -/
theorem scanWord?_append_gap (hgap : IsGap gap) (c : Char) (cs : List Char) : scanWord? (F := F) c (cs ++ gap) = scanWord? c cs := by
  rw [scanWord?_eq, scanWord?_eq]
  refine Option.map_congr fun continues htail => ?_
  rw [(hgap.span_append (fun _ => wordTail?_isBlank htail) cs).1]

omit [Numeric F] in
/-- An operator without blanks ends before a gap, and there is none where there was none. -/
theorem scanOperator?_append_gap {table : OperatorTable}
    (htable : ∀ symbol ∈ operatorSymbols table, ∀ c ∈ symbol.toList, Text.isBlank c = false) (hgap : IsGap gap) (cs : List Char) :
    scanOperator? (F := F) table (cs ++ gap) = scanOperator? table cs := by
  unfold scanOperator?
  rw [hgap.longestMatch?_append (List.forall_mem_map.2 htable)]

/-- A token is read the same where a gap follows its text. -/
theorem scan_append_gap {table : OperatorTable}
    (htable : ∀ symbol ∈ operatorSymbols table, ∀ c ∈ symbol.toList, Text.isBlank c = false) {c : Char} {cs : List Char}
    {lexeme : Lexeme F} {more : Nat} (h : scan table c cs = .ok (lexeme, more)) (hgap : IsGap gap) :
    more ≤ cs.length ∧ scan table c (cs ++ gap) = .ok (lexeme, more) := by
  unfold scan at h ⊢
  cases hpunctuation : ofPunctuation? (F := F) c with
  | some lexeme' =>
    rw [hpunctuation] at h
    obtain ⟨rfl, rfl⟩ := Prod.mk.inj (Except.ok.inj h)
    exact ⟨Nat.zero_le _, rfl⟩
  | none =>
    rw [hpunctuation] at h
    dsimp only at h ⊢
    by_cases hquote : isQuote c = true
    · rw [if_pos hquote] at h ⊢
      exact scanString_append h gap
    rw [if_neg hquote] at h ⊢
    rw [← List.cons_append, scanNumber?_append_gap hgap, scanWord?_append_gap hgap, scanOperator?_append_gap htable hgap]
    refine ⟨?_, h⟩
    cases hnumber : scanNumber? (F := F) (c :: cs) with
    | some result =>
      rw [hnumber] at h
      obtain rfl : result = .ok (lexeme, more) := h
      exact Nat.le_of_succ_le_succ (length_of_scanNumber? hnumber)
    | none =>
      rw [hnumber] at h
      dsimp only at h
      cases hword : scanWord? (F := F) c cs with
      | some word =>
        rw [hword, Option.some_or] at h
        obtain rfl := Except.ok.inj h
        rw [scanWord?_eq] at hword
        obtain ⟨continues, -, hpair⟩ := Option.map_eq_some_iff.1 hword
        obtain ⟨-, rfl⟩ := Prod.mk.inj hpair
        exact (List.takeWhile_prefix continues).length_le
      | none =>
        rw [hword, Option.none_or] at h
        cases hoperator : scanOperator? (F := F) table (c :: cs) with
        | none =>
          rw [hoperator] at h
          cases h
        | some scanned =>
          rw [hoperator] at h
          obtain rfl := Except.ok.inj h
          obtain ⟨symbol, hlongest, hpair⟩ := Option.map_eq_some_iff.1 hoperator
          obtain ⟨-, rfl⟩ := Prod.mk.inj hpair
          have hlength := (Text.longestMatch?_spec hlongest).2.1.length_le
          rw [List.length_cons] at hlength
          omega

end Lexeme

/-! ## Tokens on both sides of a gap -/

/-- The span moved by a number of bytes. -/
def Span.shift (n : Nat) (s : Span) : Span := ⟨n + s.start, n + s.stop⟩

namespace Token

variable {F : Type}

/-- The token moved by a number of bytes. -/
def shift (n : Nat) (t : Token F) : Token F := { t with span := t.span.shift n }

variable [Numeric F] {table : OperatorTable}

/-- Blanks in front of a text are not read. -/
theorem scanFrom_blanks {w : List Char} (hw : ∀ c ∈ w, Text.isBlank c = true) (offset : Nat) (cs : List Char) :
    scanFrom (F := F) table offset (w ++ cs) = scanFrom table (offset + byteLength w) cs := by
  induction w generalizing offset with
  | nil => rfl
  | cons c w ih =>
    obtain ⟨hc, hw⟩ := List.forall_mem_cons.1 hw
    rw [List.cons_append, scanFrom, if_pos hc, ih hw, byteLength, Nat.add_assoc]

/-- From another offset the same tokens are read, moved. -/
theorem scanFrom_shift {offset : Nat} {cs : List Char} {tokens : List (Token F)} (h : scanFrom table offset cs = .ok tokens) (n : Nat) :
    scanFrom table (n + offset) cs = .ok (tokens.map (shift n)) := by
  induction offset, cs using scanFrom.induct (F := F) table generalizing tokens with
  | case1 =>
    rw [scanFrom] at h ⊢
    obtain rfl := Except.ok.inj h
    rfl
  | case2 offset c cs hblank ih =>
    rw [scanFrom, if_pos hblank] at h ⊢
    rw [Nat.add_assoc]
    exact ih h
  | case3 offset c cs hblank reason hscan =>
    rw [scanFrom, if_neg hblank, hscan] at h
    cases h
  | case4 offset c cs hblank lexeme more hscan stop e hrest =>
    rw [scanFrom, if_neg hblank, hscan] at h
    dsimp only at h
    rw [hrest] at h
    cases h
  | case5 offset c cs hblank lexeme more hscan stop tokens' hrest =>
    rename_i ih
    rw [scanFrom, if_neg hblank, hscan] at h ⊢
    dsimp only at h ⊢
    rw [hrest] at h
    obtain rfl := Except.ok.inj h
    rw [Nat.add_assoc, ih hrest]
    rfl

/-- Before a gap, the tokens of a text are read, and what follows them is read from the gap on. -/
theorem scanFrom_append_gap (htable : ∀ symbol ∈ Lexeme.operatorSymbols table, ∀ c ∈ symbol.toList, Text.isBlank c = false)
    {gap : List Char} (hgap : IsGap gap) {offset : Nat} {cs : List Char} {tokens : List (Token F)}
    (h : scanFrom table offset cs = .ok tokens) :
    scanFrom table offset (cs ++ gap) = (scanFrom table (offset + byteLength cs) gap).map (tokens ++ ·) := by
  -- By the steps of reading the text alone: each of them is made before the gap too, and leaves the gap behind what is left of the text.
  induction offset, cs using scanFrom.induct (F := F) table generalizing tokens with
  | case1 =>
    rw [scanFrom] at h
    obtain rfl := Except.ok.inj h
    exact (congrFun Except.map_id _).symm
  | case2 offset c cs hblank ih =>
    rw [scanFrom, if_pos hblank] at h
    rw [List.cons_append, scanFrom, if_pos hblank, ih h, byteLength, Nat.add_assoc]
  | case3 offset c cs hblank reason hscan =>
    rw [scanFrom, if_neg hblank, hscan] at h
    cases h
  | case4 offset c cs hblank lexeme more hscan stop e hrest =>
    rw [scanFrom, if_neg hblank, hscan] at h
    dsimp only at h
    rw [hrest] at h
    cases h
  | case5 offset c cs hblank lexeme more hscan stop tokens' hrest =>
    rename_i ih
    obtain ⟨hmore, hscan'⟩ := Lexeme.scan_append_gap htable hscan hgap
    have hlength : byteLength (c :: cs) = byteLength (c :: cs.take more) + byteLength (cs.drop more) := by
      rw [← byteLength_append, List.cons_append, List.take_append_drop]
    rw [scanFrom, if_neg hblank, hscan] at h
    dsimp only at h
    rw [hrest] at h
    obtain rfl := Except.ok.inj h
    rw [List.cons_append, scanFrom, if_neg hblank, hscan']
    dsimp only
    rw [List.take_append_of_le_length hmore, List.drop_append_of_le_length hmore, ih hrest, hlength, Nat.add_assoc]
    cases scanFrom (F := F) table (offset + (byteLength (c :: cs.take more) + byteLength (cs.drop more))) gap <;> rfl

end Token

variable {F : Type} [Numeric F]

/-- Reading tokens is compositional over blanks. Two texts that are read, with one or more blanks between them, are read as the tokens of
the first text and then those of the second one, moved by the bytes of the first text and of the blanks. -/
theorem lex_append_blanks (a w b : String) (hw : w ≠ "") (hblank : ∀ c ∈ w.toList, Text.isBlank c = true)
    (tokens tokens' : List (Token F)) (ha : lex a = .ok tokens) (hb : lex b = .ok tokens') :
    lex (a ++ w ++ b) = .ok (tokens ++ tokens'.map (.shift (byteLength a.toList + byteLength w.toList))) := by
  have hsymbols : ∀ symbol ∈ Lexeme.operatorSymbols .common, ∀ c ∈ symbol.toList, Text.isBlank c = false :=
    fun symbol hsymbol c hc => (Lexeme.not_starts_of_mem_operatorSymbols hsymbol hc).1
  have hgap : IsGap (w.toList ++ b.toList) := isGap_append (fun h => hw (String.toList_eq_nil_iff.1 h)) hblank _
  have hfirst := Token.scanFrom_append_gap hsymbols hgap ha
  have hsecond := Token.scanFrom_shift hb (byteLength a.toList + byteLength w.toList)
  rw [Nat.add_zero] at hsecond
  rw [Nat.zero_add, Token.scanFrom_blanks hblank, hsecond] at hfirst
  rw [lex, Token.scanAll, String.toList_append, String.toList_append, List.append_assoc]
  exact hfirst

/-- A number and a word that would be one number without the tab and the em space between them. -/
theorem lex_number_before_word : ∃ tokens tokens' : List (Token Float), lex "'\\'' 2" = .ok tokens ∧ lex "e3" = .ok tokens' ∧
    tokens.map (·.span) = [⟨0, 4⟩, ⟨5, 6⟩] ∧ tokens'.map (·.span) = [⟨0, 2⟩] ∧
    "\t\u2003" ≠ "" ∧ (∀ c ∈ "\t\u2003".toList, Text.isBlank c = true) ∧
    lex ("'\\'' 2" ++ "\t\u2003" ++ "e3") = .ok (tokens ++ tokens'.map (.shift 10)) := by
  have hfirst : ((lex "'\\'' 2" : Except LexError (List (Token Float))).toOption.map (·.map (·.span))) =
      some [⟨0, 4⟩, ⟨5, 6⟩] := by decide +kernel
  have hsecond : ((lex "e3" : Except LexError (List (Token Float))).toOption.map (·.map (·.span))) = some [⟨0, 2⟩] := by
    decide +kernel
  have hblank : ∀ c ∈ "\t\u2003".toList, Text.isBlank c = true := List.all_eq_true.1 (by decide +kernel)
  obtain ⟨tokens, ha, hspans⟩ := Outcome.map_toOption_eq_some_iff.1 hfirst
  obtain ⟨tokens', hb, hspans'⟩ := Outcome.map_toOption_eq_some_iff.1 hsecond
  exact ⟨tokens, tokens', ha, hb, hspans, hspans', by decide, hblank,
    lex_append_blanks _ _ _ (by decide) hblank tokens tokens' ha hb⟩

end QuantityCalculus
