import QuantityCalculus.Numeric.Binary64
import QuantityCalculus.Proofs.Token.Spelling

/-!
# String literals

What stands between quotes is a `Literal` of the text that it is read as. The scanner finds the closing quote and undoes the escapes in two
separate passes, which pair the backslashes in the same way: it reads a string exactly where a literal and the quote stand
(`Lexeme.scanString_eq_ok_iff`). Every text has a literal in each style of quotes, for which it is enough to put a backslash before each
quote and each backslash (`Lexeme.literal_written`), and so `lex_string_literal` says what is read from a text that starts with a quote.
-/

namespace QuantityCalculus

namespace Lexeme

/-- The characters that stand for a control after a backslash. -/
def controlEscapes : List (Char × Char) := [('n', '\n'), ('t', '\t'), ('r', '\r'), ('0', '\x00')]

/-- What stands between quotes, and the text that it is read as. A character stands for itself, and a backslash and a character for a
control or for that character. The quote and the backslash do not stand alone, and no backslash stands before the end of a line. -/
inductive Literal (quote : Char) : List Char → List Char → Prop
  | nil : Literal quote [] []
  | plain {c body text} : c ≠ quote → c ≠ '\\' → Literal quote body text → Literal quote (c :: body) (c :: text)
  | escape {c body text} : c ≠ '\n' → Literal quote body text →
      Literal quote ('\\' :: c :: body) ((controlEscapes.lookup c).getD c :: text)

/-! ## Reading between quotes -/

/-- An escaped character is a control or the character itself. -/
theorem escaped_eq (c : Char) : escaped c = (controlEscapes.lookup c).getD c := by
  unfold escaped controlEscapes
  split
  · rfl
  · rfl
  · rfl
  · rfl
  · rename_i hn ht hr h0
    simp only [List.lookup_cons, List.lookup_nil, beq_false_of_ne hn, beq_false_of_ne ht, beq_false_of_ne hr, beq_false_of_ne h0,
      Option.getD_none]

/-- A character other than a backslash stands for itself or closes the string. -/
theorem stringBody?_cons_of_ne {quote c : Char} (h : c ≠ '\\') (cs : List Char) :
    stringBody? quote (c :: cs) = if c == quote then some [] else (stringBody? quote cs).map (c :: ·) := by
  rw [stringBody?]
  · rw [if_neg (by simpa using h)]
  · intro d ds hc _
    exact h hc

/-- A character other than a backslash has no escape to undo. -/
theorem unescape_cons_of_ne {c : Char} (h : c ≠ '\\') (cs : List Char) : unescape (c :: cs) = c :: unescape cs := by
  rw [unescape]
  intro d ds hc _
  exact h hc

/-- The escapes of a literal are those of its text. -/
theorem Literal.unescape_eq {quote : Char} {body text : List Char} (h : Literal quote body text) : unescape body = text := by
  induction h with
  | nil => rfl
  | plain _ hbackslash _ ih => rw [unescape_cons_of_ne hbackslash, ih]
  | escape _ _ ih => rw [unescape, ih, escaped_eq]

/-- A literal ends at the quote that follows it. -/
theorem Literal.stringBody?_append {quote : Char} {body text : List Char} (h : Literal quote body text) (hquote : quote ≠ '\\')
    (rest : List Char) : stringBody? quote (body ++ quote :: rest) = some body := by
  induction h with
  | nil => rw [List.nil_append, stringBody?_cons_of_ne hquote, if_pos (beq_self_eq_true quote)]
  | plain hc hbackslash _ ih =>
    rw [List.cons_append, stringBody?_cons_of_ne hbackslash, if_neg (by simpa using hc), ih, Option.map_some]
  | escape hfeed _ ih =>
    rw [List.cons_append, List.cons_append, stringBody?, if_neg (by simpa using hfeed), ih, Option.map_some]

/-- What is read up to a quote is a literal. -/
theorem exists_literal_of_stringBody? {quote : Char} {cs body : List Char} (h : stringBody? quote cs = some body) :
    quote ≠ '\\' ∧ ∃ text rest, Literal quote body text ∧ cs = body ++ quote :: rest := by
  -- The cases are those of the scan: the end, an escape before or not before the end of a line, a lone backslash, the quote and the rest.
  induction cs using stringBody?.induct quote generalizing body with
  | case1 => nomatch h
  | case2 c cs hfeed =>
    rw [stringBody?, if_pos hfeed] at h
    nomatch h
  | case3 c cs hfeed ih =>
    rw [stringBody?, if_neg hfeed] at h
    obtain ⟨body, hbody, rfl⟩ := Option.map_eq_some_iff.1 h
    obtain ⟨hquote, text, rest, hliteral, rfl⟩ := ih hbody
    exact ⟨hquote, _, rest, .escape (by simpa using hfeed) hliteral, rfl⟩
  | case4 c cs hlast hbackslash =>
    rw [stringBody?, if_pos hbackslash] at h
    · nomatch h
    · exact hlast
  | case5 c cs _ hbackslash hclose =>
    have hc : c ≠ '\\' := by simpa using hbackslash
    rw [stringBody?_cons_of_ne hc, if_pos hclose] at h
    obtain rfl := Option.some.inj h
    obtain rfl : c = quote := by simpa using hclose
    exact ⟨hc, [], cs, .nil, rfl⟩
  | case6 c cs _ hbackslash hclose ih =>
    have hc : c ≠ '\\' := by simpa using hbackslash
    rw [stringBody?_cons_of_ne hc, if_neg hclose] at h
    obtain ⟨body, hbody, rfl⟩ := Option.map_eq_some_iff.1 h
    obtain ⟨hquote, text, rest, hliteral, rfl⟩ := ih hbody
    exact ⟨hquote, _, rest, .plain (by simpa using hclose) hc hliteral, rfl⟩

/-- A string is read where a literal and then the quote stand. -/
theorem scanString_eq_ok_iff {F : Type} {quote : Char} {cs : List Char} {lexeme : Lexeme F} {more : Nat} :
    scanString quote cs = .ok (lexeme, more) ↔ quote ≠ '\\' ∧ ∃ body text rest, Literal quote body text ∧
      cs = body ++ quote :: rest ∧ lexeme = .string (String.ofList text) ∧ more = body.length + 1 := by
  unfold scanString
  constructor
  · intro h
    split at h
    · cases h
    · rename_i body hbody
      obtain ⟨rfl, rfl⟩ := Prod.mk.inj (Except.ok.inj h)
      obtain ⟨hquote, text, rest, hliteral, rfl⟩ := exists_literal_of_stringBody? hbody
      exact ⟨hquote, body, text, rest, hliteral, rfl, by rw [hliteral.unescape_eq], rfl⟩
  · rintro ⟨hquote, body, text, rest, hliteral, rfl, rfl, rfl⟩
    rw [hliteral.stringBody?_append hquote]
    dsimp only
    rw [hliteral.unescape_eq]

/-! ## Writing between quotes -/

/-- A text as it is written between quotes, with a backslash before each quote and each backslash. -/
def written (quote : Char) (text : List Char) : List Char :=
  text.flatMap fun c => if c = quote ∨ c = '\\' then ['\\', c] else [c]

/-- The three quotes. -/
theorem isQuote_iff {c : Char} : isQuote c = true ↔ c = '\'' ∨ c = '"' ∨ c = '\x60' := by
  unfold isQuote
  simp only [Bool.or_eq_true, beq_iff_eq, or_assoc]

/-- A written text stands for the text. -/
theorem literal_written {quote : Char} (hquote : isQuote quote = true) (text : List Char) : Literal quote (written quote text) text := by
  unfold written
  induction text with
  | nil => exact .nil
  | cons c text ih =>
    rw [List.flatMap_cons]
    by_cases hc : c = quote ∨ c = '\\'
    · have hescape : c ≠ '\n' ∧ (controlEscapes.lookup c).getD c = c := by
        rw [isQuote_iff] at hquote
        rcases hc with rfl | rfl
        · rcases hquote with rfl | rfl | rfl <;> decide
        · decide
      have hliteral := Literal.escape hescape.1 ih
      rw [hescape.2] at hliteral
      rw [if_pos hc]
      exact hliteral
    · rw [if_neg hc]
      obtain ⟨hne, hbackslash⟩ := not_or.1 hc
      exact .plain hne hbackslash ih

/-- A quote is not blank and is no backslash, and it opens a string whatever the operators are. -/
theorem scan_of_isQuote {F : Type} [Numeric F] {quote : Char} (h : isQuote quote = true) (table : OperatorTable) (cs : List Char) :
    Text.isBlank quote = false ∧ quote ≠ '\\' ∧ scan (F := F) table quote cs = scanString quote cs := by
  have hclass : Text.isBlank quote = false ∧ quote ≠ '\\' ∧ quote ∉ punctuationMarks := by
    rcases isQuote_iff.1 h with rfl | rfl | rfl <;> decide +kernel
  obtain ⟨hblank, hbackslash, hpunctuation⟩ := hclass
  refine ⟨hblank, hbackslash, ?_⟩
  rw [scan, ofPunctuation?_eq_none hpunctuation]
  exact if_pos h

end Lexeme

/-! ## Texts that start with a quote -/

variable {F : Type} [Numeric F]

/-- There is no token in a text exactly if all of it is blank. -/
theorem Token.scanFrom_eq_ok_nil_iff {table : OperatorTable} {offset : Nat} {cs : List Char} :
    scanFrom (F := F) table offset cs = .ok [] ↔ ∀ c ∈ cs, Text.isBlank c = true := by
  induction cs generalizing offset with
  | nil =>
    rw [scanFrom]
    simp
  | cons c cs ih =>
    rw [scanFrom, List.forall_mem_cons]
    by_cases hblank : Text.isBlank c = true
    · rw [if_pos hblank, ih]
      exact (and_iff_right hblank).symm
    · rw [if_neg hblank]
      refine iff_of_false ?_ fun h => hblank h.1
      split
      · simp
      · dsimp only
        split <;> simp

/-- One token is read from a quote on if a literal, the quote and blanks follow it. -/
theorem Token.scanFrom_quote_eq_ok_singleton_iff {quote : Char} (hquote : Lexeme.isQuote quote = true) {table : OperatorTable} {offset : Nat}
    {cs : List Char} {token : Token F} : scanFrom table offset (quote :: cs) = .ok [token] ↔
      ∃ body text blanks, Lexeme.Literal quote body text ∧ cs = body ++ quote :: blanks ∧ (∀ c ∈ blanks, Text.isBlank c = true) ∧
        token = ⟨.string (String.ofList text), offset, offset + byteLength (quote :: (body ++ [quote]))⟩ := by
  obtain ⟨hblank, hbackslash, hscan⟩ := Lexeme.scan_of_isQuote (F := F) hquote table cs
  have htake (body blanks : List Char) : (body ++ quote :: blanks).take (body.length + 1) = body ++ [quote] ∧
      (body ++ quote :: blanks).drop (body.length + 1) = blanks :=
    ⟨List.take_length_add_append .., List.drop_length_add_append ..⟩
  rw [scanFrom, if_neg (Bool.eq_false_iff.1 hblank), hscan]
  constructor
  · intro h
    cases hstring : Lexeme.scanString (F := F) quote cs with
    | error reason =>
      rw [hstring] at h
      cases h
    | ok scanned =>
      obtain ⟨lexeme, more⟩ := scanned
      rw [hstring] at h
      obtain ⟨-, body, text, blanks, hliteral, rfl, rfl, rfl⟩ := Lexeme.scanString_eq_ok_iff.1 hstring
      obtain ⟨htake, hdrop⟩ := htake body blanks
      simp only [htake, hdrop] at h
      split at h
      · cases h
      · rename_i tokens hrest
        obtain ⟨rfl, rfl⟩ := List.cons.inj (Except.ok.inj h)
        exact ⟨body, text, blanks, hliteral, rfl, scanFrom_eq_ok_nil_iff.1 hrest, rfl⟩
  · rintro ⟨body, text, blanks, hliteral, rfl, hblanks, rfl⟩
    obtain ⟨htake, hdrop⟩ := htake body blanks
    rw [Lexeme.scanString_eq_ok_iff.2 ⟨hbackslash, body, text, blanks, hliteral, rfl, rfl, rfl⟩]
    simp only [htake, hdrop, scanFrom_eq_ok_nil_iff.2 hblanks]

/-- Strings are written and read between each of the quotes. Every string is the only token of what is written for it, with a backslash
before each quote and each backslash; and a text that starts with a quote is read as a string, and nothing else, exactly if it is a literal of
that string between two quotes, with nothing but blanks after them. -/
theorem lex_string_literal {quote : Char} (hquote : Lexeme.isQuote quote = true) :
    (∀ s : String, lex (F := F) (String.ofList (quote :: (Lexeme.written quote s.toList ++ [quote]))) =
      .ok [⟨.string s, 0, byteLength (quote :: (Lexeme.written quote s.toList ++ [quote]))⟩]) ∧
    ∀ (text : String) (token : Token F), text.toList.head? = some quote → (lex text = .ok [token] ↔
      ∃ body s blanks, text.toList = quote :: (body ++ quote :: blanks) ∧ Lexeme.Literal quote body s ∧
        (∀ c ∈ blanks, Text.isBlank c = true) ∧
        token = ⟨.string (String.ofList s), 0, byteLength (quote :: (body ++ [quote]))⟩) := by
  constructor
  · intro s
    rw [lex, Token.scanAll, String.toList_ofList, Token.scanFrom_quote_eq_ok_singleton_iff hquote]
    refine ⟨_, _, [], Lexeme.literal_written hquote s.toList, rfl, List.forall_mem_nil _, ?_⟩
    rw [String.ofList_toList, Nat.zero_add]
  · intro text token hhead
    obtain ⟨cs, hcs⟩ := List.head?_eq_some_iff.1 hhead
    rw [lex, Token.scanAll, hcs, Token.scanFrom_quote_eq_ok_singleton_iff hquote]
    simp only [List.cons.injEq, true_and, Nat.zero_add]
    constructor
    · rintro ⟨body, s, blanks, hliteral, hcs, hblanks, htoken⟩
      exact ⟨body, s, blanks, hcs, hliteral, hblanks, htoken⟩
    · rintro ⟨body, s, blanks, hcs, hliteral, hblanks, htoken⟩
      exact ⟨body, s, blanks, hliteral, hcs, hblanks, htoken⟩

/-- A string of the quote itself and a backslash, and a literal with two escapes and a blank after it. -/
theorem lex_backquoted : Lexeme.isQuote '\x60' = true ∧ lex (F := Float) "\x60a\\\x60\\\\\x60" = .ok [⟨.string "a\x60\\", 0, 7⟩] ∧
    "\x60\\t\\q\x60 ".toList.head? = some '\x60' ∧ lex (F := Float) "\x60\\t\\q\x60 " = .ok [⟨.string "\tq", 0, 6⟩] := by
  have hquote : Lexeme.isQuote '\x60' = true := by decide
  have hblank : ∀ c ∈ [' '], Text.isBlank c = true := List.all_eq_true.1 (by decide +kernel)
  obtain ⟨hwritten, hread⟩ := lex_string_literal (F := Float) hquote
  refine ⟨hquote, hwritten "a\x60\\", rfl, ?_⟩
  exact (hread "\x60\\t\\q\x60 " ⟨.string "\tq", 0, 6⟩ rfl).2
    ⟨['\\', 't', '\\', 'q'], ['\t', 'q'], [' '], rfl, .escape (by decide) (.escape (by decide) .nil), hblank, rfl⟩

end QuantityCalculus
