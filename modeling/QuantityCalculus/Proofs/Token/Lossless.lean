import Mathlib.Data.List.TakeWhile
import QuantityCalculus.Numeric.Binary64
import QuantityCalculus.Proofs.Token.Leaves

/-!
# Reading tokens loses nothing

What a token is read from determines it: the characters of a token, read by themselves, are that token again (`scan_take`), whatever
stood after them. So the tokens of a text, with blanks between them, tile the text (`Token.Tiles`): their spans are parts of it one after
another, and what is outside of them is blank.
-/

namespace QuantityCalculus

namespace Lexeme

variable {F : Type} [Numeric F]

/-! ## Strings -/

omit [Numeric F] in
/-- A string is read again from its own characters. -/
theorem scanString_take {quote : Char} {cs : List Char} {lexeme : Lexeme F} {more : Nat}
    (h : scanString quote cs = .ok (lexeme, more)) : scanString quote (cs.take more) = .ok (lexeme, more) := by
  obtain ⟨hquote, body, text, rest, hliteral, rfl, rfl, rfl⟩ := scanString_eq_ok_iff.1 h
  exact scanString_eq_ok_iff.2 ⟨hquote, body, text, [], hliteral, List.take_length_add_append .., rfl, rfl⟩

/-! ## Numbers -/

/-- Where no number is read, no digit starts one, and no digit follows a point. -/
theorem scanNumber?_eq_none_iff {c : Char} {cs : List Char} : scanNumber? (F := F) (c :: cs) = none ↔
    Text.isDecimalDigit c = false ∧ (c = '.' → cs.takeWhile Text.isDecimalDigit = []) := by
  constructor
  · intro h
    refine ⟨isDecimalDigit_eq_false h, ?_⟩
    rintro rfl
    rw [← Decidable.not_not (p := cs.takeWhile Text.isDecimalDigit = [])]
    intro hplaces
    have hpoint : Text.isDecimalDigit '.' = false := Decimal.isDecimalDigit_marks.2.2
    have hspan : Decimal.spanMantissa? ('.' :: cs) ≠ none := by
      simp [Decimal.spanMantissa?, Decimal.spanDigits, hpoint, hplaces]
    obtain ⟨_, hmantissa⟩ := Option.ne_none_iff_exists'.1 hspan
    rw [scanNumber?, hmantissa] at h
    cases h
  · rintro ⟨hdigit, hpoint⟩
    exact scanNumber?_eq_none hdigit hpoint

/-- Where no number is read, none is read from fewer characters. -/
theorem scanNumber?_take_eq_none {c : Char} {cs : List Char} (h : scanNumber? (F := F) (c :: cs) = none) (n : Nat) :
    scanNumber? (F := F) (c :: cs.take n) = none := by
  obtain ⟨hdigit, hpoint⟩ := scanNumber?_eq_none_iff.1 h
  refine scanNumber?_eq_none_iff.2 ⟨hdigit, fun hc => ?_⟩
  have hnone := hpoint hc
  cases cs with
  | nil => simp
  | cons d cs =>
    have hd : Text.isDecimalDigit d = false := by
      rw [← Bool.not_eq_true]
      intro hd
      simp [hd] at hnone
    cases n with
    | zero => simp
    | succ n => simp [hd]

/-- An exponent is a mark and an integer, and is read again where nothing follows it. -/
theorem spanExponent?_eq_some {cs exponent : List Char} (h : spanExponent? cs = some exponent) :
    ∃ mark rest, cs = mark :: (exponent ++ rest) ∧ Text.isDecimalDigit mark = false ∧ mark ≠ '.' ∧
      spanExponent? (mark :: exponent) = some exponent := by
  cases cs with
  | nil => cases h
  | cons mark cs =>
    rw [spanExponent?] at h
    split at h
    · rename_i hmark
      obtain ⟨⟨numeral, rest⟩, hspan, rfl⟩ := Option.map_eq_some_iff.1 h
      refine ⟨mark, rest, by rw [← Decimal.spanInteger?_eq_some hspan], ?_, ?_, ?_⟩
      · have hall : (['e', 'E', '_'].all fun c => !Text.isDecimalDigit c) = true := by decide +kernel
        have hmem : mark ∈ ['e', 'E', '_'] := by simpa [or_assoc] using hmark
        simpa using List.all_eq_true.1 hall mark hmem
      · rintro rfl
        simp at hmark
      · rw [spanExponent?, if_pos hmark, Decimal.spanInteger?_self hspan, Option.map_some]
    · cases h

/-- A number is read again from its own characters. -/
theorem scanNumber?_take {cs : List Char} {lexeme : Lexeme F} {more : Nat} (h : scanNumber? cs = some (.ok (lexeme, more))) :
    scanNumber? (cs.take (more + 1)) = some (.ok (lexeme, more)) := by
  obtain ⟨⟨mantissa, rest⟩, hspan, hread⟩ := Option.map_eq_some_iff.1 h
  obtain ⟨rfl, hmantissa⟩ := Decimal.spanMantissa?_eq_some hspan
  have hpos : 0 < mantissa.length := by
    obtain ⟨c, cs', rfl, -⟩ := hmantissa.exists_head
    simp
  cases hexponent : spanExponent? rest with
  | none =>
    simp only [hexponent] at hread
    have hspan' : Decimal.spanMantissa? (mantissa ++ []) = some (mantissa, []) :=
      Decimal.spanMantissa?_append hmantissa (by simp [Decimal.NoDigit]) (by simp)
    rw [List.append_nil] at hspan'
    split at hread
    · rename_i x hx
      obtain ⟨rfl, rfl⟩ := Prod.mk.inj (Except.ok.inj hread)
      have htake : (mantissa ++ rest).take (mantissa.length - 1 + 1) = mantissa := by
        rw [Nat.sub_add_cancel hpos, List.take_left']
        rfl
      rw [htake]
      simp only [scanNumber?, hspan', Option.map_some, spanExponent?, hx]
    · cases hread
  | some exponent =>
    simp only [hexponent] at hread
    obtain ⟨mark, after, rfl, hdigit, hpoint, hself⟩ := spanExponent?_eq_some hexponent
    have hspan' : Decimal.spanMantissa? (mantissa ++ mark :: exponent) = some (mantissa, mark :: exponent) :=
      Decimal.spanMantissa?_append hmantissa (by simpa [Decimal.NoDigit] using hdigit) (by simpa using hpoint)
    split at hread
    · rename_i x hx
      obtain ⟨rfl, rfl⟩ := Prod.mk.inj (Except.ok.inj hread)
      have htake : (mantissa ++ mark :: (exponent ++ after)).take (mantissa.length + 1 + exponent.length - 1 + 1) =
          mantissa ++ mark :: exponent := by
        have hlength : mantissa.length + 1 + exponent.length - 1 + 1 = (mantissa ++ mark :: exponent).length := by
          simp only [List.length_append, List.length_cons]
          omega
        rw [hlength, ← List.cons_append, ← List.append_assoc, List.take_left']
        rfl
      rw [htake]
      simp only [scanNumber?, hspan', Option.map_some, hself, hx]
    · cases hread

/-! ## Words and operators -/

/-- A word is read again from its own characters, and there is none where there was none. -/
theorem scanWord?_take {c : Char} {cs : List Char} {lexeme : Lexeme F} {more : Nat}
    (h : scanWord? c cs = some (lexeme, more)) : scanWord? c (cs.take more) = some (lexeme, more) := by
  rw [scanWord?_eq] at h
  obtain ⟨continues, htail, hpair⟩ := Option.map_eq_some_iff.1 h
  obtain ⟨rfl, rfl⟩ := Prod.mk.inj hpair
  have htake : cs.take (cs.takeWhile continues).length = cs.takeWhile continues :=
    (List.prefix_iff_eq_take.1 (List.takeWhile_prefix continues)).symm
  have hself : (cs.takeWhile continues).takeWhile continues = cs.takeWhile continues :=
    List.takeWhile_eq_self_iff.2 fun d hd => List.mem_takeWhile_imp hd
  rw [scanWord?_eq, htail, Option.map_some, htake, hself]

/-- Whether a word starts at a character does not depend on what follows. -/
theorem scanWord?_eq_none_congr {c : Char} {cs : List Char} (h : scanWord? (F := F) c cs = none) (cs' : List Char) :
    scanWord? (F := F) c cs' = none := by
  rw [scanWord?_eq, Option.map_eq_none_iff] at h ⊢
  exact h

omit [Numeric F] in
/-- An operator is read again from its own characters. -/
theorem scanOperator?_take {c : Char} {cs : List Char} {lexeme : Lexeme F} {more : Nat}
    (h : scanOperator? .common (c :: cs) = some (lexeme, more)) :
    scanOperator? .common (c :: cs.take more) = some (lexeme, more) := by
  obtain ⟨symbol, hlongest, hpair⟩ := Option.map_eq_some_iff.1 h
  obtain ⟨rfl, rfl⟩ := Prod.mk.inj hpair
  obtain ⟨hmem, hprefix, -⟩ := Text.longestMatch?_spec hlongest
  -- The symbol has a first character, so the characters that are read are those of the symbol.
  obtain ⟨other, hother, rfl⟩ := List.mem_map.1 hmem
  have hpos : 0 < other.toList.length := List.length_pos_iff.2 (operatorSymbols_ne_nil other hother)
  have htake : c :: cs.take (other.toList.length - 1) = other.toList := by
    rw [← List.take_succ_cons, Nat.sub_add_cancel hpos]
    exact (List.prefix_iff_eq_take.1 hprefix).symm
  rw [htake, scanOperator?, Text.longestMatch?_eq_some_iff.2 ⟨hmem, List.prefix_refl _, fun o _ ho => ho.length_le⟩, Option.map_some]

/-- A token is read again from its own characters: what follows it makes no difference. -/
theorem scan_take {c : Char} {cs : List Char} {lexeme : Lexeme F} {more : Nat}
    (h : scan .common c cs = .ok (lexeme, more)) : scan .common c (cs.take more) = .ok (lexeme, more) := by
  unfold scan at h ⊢
  cases hpunctuation : ofPunctuation? (F := F) c with
  | some lexeme' =>
    rw [hpunctuation] at h
    exact h
  | none =>
    rw [hpunctuation] at h
    simp only at h ⊢
    by_cases hquote : isQuote c = true
    · rw [if_pos hquote] at h ⊢
      exact scanString_take h
    rw [if_neg hquote] at h ⊢
    cases hnumber : scanNumber? (F := F) (c :: cs) with
    | some result =>
      rw [hnumber] at h
      obtain rfl : result = .ok (lexeme, more) := h
      have htake := scanNumber?_take hnumber
      rw [List.take_succ_cons] at htake
      rw [htake]
    | none =>
      rw [hnumber] at h
      rw [scanNumber?_take_eq_none hnumber]
      simp only at h ⊢
      cases hword : scanWord? (F := F) c cs with
      | some word =>
        rw [hword, Option.some_or] at h
        obtain rfl := Except.ok.inj h
        rw [scanWord?_take hword, Option.some_or]
      | none =>
        rw [hword, Option.none_or] at h
        rw [scanWord?_eq_none_congr hword, Option.none_or]
        cases hoperator : scanOperator? (F := F) .common (c :: cs) with
        | some scanned =>
          rw [hoperator] at h
          obtain rfl := Except.ok.inj h
          rw [scanOperator?_take hoperator]
        | none =>
          rw [hoperator] at h
          nomatch h

end Lexeme

/-! ## Texts and their tokens -/

variable {F : Type} [Numeric F]

/-- The byte at an offset is in the span. -/
def Span.Covers (s : Span) (offset : Nat) : Prop := s.start ≤ offset ∧ offset < s.stop

namespace Token

/-- From a byte offset on, the text is made of these tokens and of blanks between them, where each token is the only one of its
own characters. -/
inductive Tiles : Nat → List Char → List (Token F) → Prop
  | nil {offset} : Tiles offset [] []
  | blank {offset c cs tokens} : Text.isBlank c = true → Tiles (offset + c.utf8Size) cs tokens → Tiles offset (c :: cs) tokens
  | token {offset slice rest lexeme tokens} : slice ≠ [] →
      scanFrom .common 0 slice = .ok [⟨lexeme, 0, byteLength slice⟩] → Tiles (offset + byteLength slice) rest tokens →
      Tiles offset (slice ++ rest) (⟨lexeme, offset, offset + byteLength slice⟩ :: tokens)

/-- The characters of a token are that token and nothing else. -/
theorem scanFrom_token {c : Char} {cs : List Char} {lexeme : Lexeme F} {more : Nat} (hblank : ¬Text.isBlank c = true)
    (h : Lexeme.scan .common c cs = .ok (lexeme, more)) :
    scanFrom .common 0 (c :: cs.take more) = .ok [⟨lexeme, 0, byteLength (c :: cs.take more)⟩] := by
  have htake : (cs.take more).take more = cs.take more := by rw [List.take_take, Nat.min_self]
  have hdrop : (cs.take more).drop more = [] := List.drop_eq_nil_of_le (List.length_take_le more cs)
  rw [scanFrom, if_neg hblank, Lexeme.scan_take h]
  simp only [htake, hdrop, Nat.zero_add]
  rw [scanFrom]

/-- The tokens that are read tile the text. -/
theorem tiles_of_scanFrom {offset : Nat} {cs : List Char} {tokens : List (Token F)}
    (h : scanFrom .common offset cs = .ok tokens) : Tiles offset cs tokens := by
  induction offset, cs using scanFrom.induct (F := F) .common generalizing tokens with
  | case1 =>
    rw [scanFrom] at h
    obtain rfl := Except.ok.inj h
    exact .nil
  | case2 offset c cs hblank ih =>
    rw [scanFrom, if_pos hblank] at h
    exact .blank hblank (ih h)
  | case3 offset c cs hblank reason hscan =>
    rw [scanFrom, if_neg hblank, hscan] at h
    cases h
  | case4 offset c cs hblank lexeme more hscan stop e hrest =>
    rw [scanFrom, if_neg hblank, hscan] at h
    dsimp only at h
    rw [hrest] at h
    cases h
  | case5 offset c cs hblank lexeme more hscan stop tokens' hrest =>
    rename_i ih
    rw [scanFrom, if_neg hblank, hscan] at h
    dsimp only at h
    rw [hrest] at h
    obtain rfl := Except.ok.inj h
    have htiles : Tiles offset ((c :: cs.take more) ++ cs.drop more) _ :=
      .token (List.cons_ne_nil c _) (scanFrom_token hblank hscan) (ih hrest)
    rwa [List.cons_append, List.take_append_drop] at htiles

/-- Tokens stand one after another, none of them empty, from the offset on. -/
theorem Tiles.pairwise {offset : Nat} {cs : List Char} {tokens : List (Token F)} (h : Tiles offset cs tokens) :
    (∀ t ∈ tokens, offset ≤ t.span.start) ∧
      tokens.Pairwise fun s t => s.span.start < s.span.stop ∧ s.span.stop ≤ t.span.start := by
  induction h with
  | nil => simp
  | @blank offset c cs tokens _ _ ih =>
    refine ⟨fun t ht => ?_, ih.2⟩
    have hstart := ih.1 t ht
    omega
  | @token offset slice rest lexeme tokens hslice _ _ ih =>
    have hpos := byteLength_pos hslice
    constructor
    · intro t ht
      rcases List.mem_cons.1 ht with rfl | ht
      · exact Nat.le_refl _
      · have hstart := ih.1 t ht
        omega
    · refine List.pairwise_cons.2 ⟨fun t ht => ⟨?_, ih.1 t ht⟩, ih.2⟩
      show offset < offset + byteLength slice
      omega

/-- The span of a token is a part of the text that is this token and nothing else. -/
theorem Tiles.exists_slice {offset : Nat} {cs : List Char} {tokens : List (Token F)} (h : Tiles offset cs tokens) {t : Token F}
    (ht : t ∈ tokens) : ∃ before slice after, cs = before ++ slice ++ after ∧ slice ≠ [] ∧
      t.span = ⟨offset + byteLength before, offset + byteLength before + byteLength slice⟩ ∧
      scanFrom .common 0 slice = .ok [⟨t.lexeme, 0, byteLength slice⟩] := by
  induction h with
  | nil => nomatch ht
  | @blank offset c cs tokens _ _ ih =>
    obtain ⟨before, slice, after, rfl, hslice, hspan, hread⟩ := ih ht
    refine ⟨c :: before, slice, after, rfl, hslice, ?_, hread⟩
    rw [hspan, byteLength, Nat.add_assoc offset]
  | @token offset slice rest lexeme tokens hslice hread _ ih =>
    rcases List.mem_cons.1 ht with rfl | ht
    · exact ⟨[], slice, rest, rfl, hslice, rfl, hread⟩
    · obtain ⟨before, slice', after, rfl, hslice', hspan, hread'⟩ := ih ht
      refine ⟨slice ++ before, slice', after, by simp only [List.append_assoc], hslice', ?_, hread'⟩
      rw [hspan, byteLength_append, Nat.add_assoc offset]

/-- A character outside of all spans is blank. -/
theorem Tiles.isBlank_of_not_covered {offset : Nat} {cs : List Char} {tokens : List (Token F)} (h : Tiles offset cs tokens)
    {before after : List Char} {c : Char} (hcs : cs = before ++ c :: after)
    (hc : ∀ t ∈ tokens, ¬t.span.Covers (offset + byteLength before)) : Text.isBlank c = true := by
  induction h generalizing before with
  | nil => simp at hcs
  | @blank offset d cs tokens hblank _ ih =>
    cases before with
    | nil =>
      obtain ⟨rfl, -⟩ := List.cons.inj hcs
      exact hblank
    | cons d' before =>
      obtain ⟨rfl, rfl⟩ := List.cons.inj hcs
      refine ih rfl fun t ht => ?_
      rw [Nat.add_assoc]
      exact hc t ht
  | @token offset slice rest lexeme tokens hslice _ _ ih =>
    -- The character is one of the token, which covers it, or it stands in what follows.
    rcases List.append_eq_append_iff.1 hcs with ⟨more, rfl, hrest⟩ | ⟨more, rfl, hrest⟩
    · refine ih hrest fun t ht => ?_
      have hnot := hc t (List.mem_cons_of_mem _ ht)
      rwa [byteLength_append, ← Nat.add_assoc] at hnot
    · cases more with
      | nil =>
        have hafter : rest = [] ++ c :: after := by simpa using hrest.symm
        refine ih hafter fun t ht => ?_
        have hnot := hc t (List.mem_cons_of_mem _ ht)
        simpa [byteLength] using hnot
      | cons d more =>
        have hcovers := hc _ (List.mem_cons_self ..)
        have hpos := byteLength_pos (List.cons_ne_nil d more)
        refine absurd ⟨Nat.le_add_right _ _, ?_⟩ hcovers
        show offset + byteLength before < offset + byteLength (before ++ d :: more)
        rw [byteLength_append]
        omega

end Token

/-- Reading tokens loses nothing. The spans of the tokens of a text stand one after another; each is a part of the text between two of
its characters that is not empty and that, read alone, is the same token and no other, at the start; and every character outside
of all spans is blank. -/
theorem lex_lossless (text : String) (tokens : List (Token F)) (h : lex text = .ok tokens) :
    tokens.Pairwise (fun s t => s.span.start < t.span.start ∧ s.span.stop ≤ t.span.start) ∧
    (∀ t ∈ tokens, ∃ before slice after, text.toList = before ++ slice ++ after ∧ slice ≠ [] ∧
      t.span = ⟨byteLength before, byteLength before + byteLength slice⟩ ∧ t.span.start < t.span.stop ∧
      t.span.stop ≤ byteLength text.toList ∧ lex (String.ofList slice) = .ok [⟨t.lexeme, 0, t.span.length⟩]) ∧
    ∀ before c after, text.toList = before ++ c :: after → (∀ t ∈ tokens, ¬t.span.Covers (byteLength before)) →
      Text.isBlank c = true := by
  have htiles : Token.Tiles 0 text.toList tokens := Token.tiles_of_scanFrom h
  refine ⟨htiles.pairwise.2.imp fun ⟨hspan, hnext⟩ => ⟨Nat.lt_of_lt_of_le hspan hnext, hnext⟩, fun t ht => ?_,
    fun before c after hcs hc => htiles.isBlank_of_not_covered hcs (by simpa using hc)⟩
  obtain ⟨before, slice, after, hcs, hslice, hspan, hread⟩ := htiles.exists_slice ht
  rw [Nat.zero_add] at hspan
  have hpos := byteLength_pos hslice
  have hlength : t.span.length = byteLength slice := by
    rw [hspan]
    exact Nat.add_sub_cancel_left ..
  refine ⟨before, slice, after, hcs, hslice, hspan, ?_, ?_, ?_⟩
  · rw [hspan]
    show byteLength before < byteLength before + byteLength slice
    omega
  · rw [hspan, hcs, byteLength_append, byteLength_append]
    show byteLength before + byteLength slice ≤ byteLength before + byteLength slice + byteLength after
    omega
  · rw [hlength, lex, Token.scanAll, String.toList_ofList]
    exact hread

/-- The number and the constant of `2e` touch each other, and the blank of the string is no gap: only the characters at the offsets 2
and 4 are outside of all tokens. -/
theorem lex_lossless_of_touching_tokens : ∃ tokens : List (Token Float), lex "2e + 'a b'" = .ok tokens ∧
    tokens.map (·.span) = [⟨0, 1⟩, ⟨1, 2⟩, ⟨3, 4⟩, ⟨5, 10⟩] ∧
    tokens.Pairwise (fun s t => s.span.start < t.span.start ∧ s.span.stop ≤ t.span.start) := by
  have hspans : ((lex "2e + 'a b'" : Except LexError (List (Token Float))).toOption.map (·.map (·.span))) =
      some [⟨0, 1⟩, ⟨1, 2⟩, ⟨3, 4⟩, ⟨5, 10⟩] := by decide +kernel
  cases hlex : (lex "2e + 'a b'" : Except LexError (List (Token Float))) with
  | error e =>
    rw [hlex] at hspans
    nomatch hspans
  | ok tokens =>
    rw [hlex] at hspans
    exact ⟨tokens, rfl, Option.some.inj hspans, (lex_lossless _ tokens hlex).1⟩

end QuantityCalculus
