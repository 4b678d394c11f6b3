import QuantityCalculus.Proofs.Text.LongestMatch
import QuantityCalculus.Token.Scan

/-!
# Texts and the tokens they are made of

`Spelling` says which lexemes a text is made of, without regard to offsets; reading tokens and spelling are the same thing. A text
is `Spelled` as some lexemes if it is made of them wherever a delimiter or nothing follows it, so that spelled texts can be put
together with blanks, commas, brackets and operators between them, and none of the tokens runs into its neighbours.
-/

namespace QuantityCalculus.Lexeme

variable {F : Type} [Numeric F]

/-- The text is made of tokens with these lexemes and of blanks. -/
inductive Spelling : List Char → List (Lexeme F) → Prop
  | nil : Spelling [] []
  | blank {c cs w} : Text.isBlank c = true → Spelling cs w → Spelling (c :: cs) w
  | token {c cs lexeme more w} : Text.isBlank c = false → scan .common c cs = .ok (lexeme, more) →
      Spelling (cs.drop more) w → Spelling (c :: cs) (lexeme :: w)

/-- The tokens that are read spell the text. -/
theorem spelling_of_scanFrom {offset : Nat} {cs : List Char} {tokens : List (Token F)}
    (h : Token.scanFrom .common offset cs = .ok tokens) : Spelling cs (tokens.map (·.lexeme)) := by
  induction offset, cs using Token.scanFrom.induct (F := F) .common generalizing tokens with
  | case1 =>
    rw [Token.scanFrom] at h
    obtain rfl := Except.ok.inj h
    exact .nil
  | case2 offset c cs hblank ih =>
    rw [Token.scanFrom, if_pos hblank] at h
    exact .blank hblank (ih h)
  | case3 offset c cs hblank reason hscan =>
    rw [Token.scanFrom, if_neg hblank, hscan] at h
    nomatch h
  | case4 offset c cs hblank lexeme more hscan stop e hrest =>
    rw [Token.scanFrom, if_neg hblank, hscan] at h
    dsimp only at h
    rw [hrest] at h
    nomatch h
  | case5 offset c cs hblank lexeme more hscan stop tokens' hrest =>
    rename_i ih
    rw [Token.scanFrom, if_neg hblank, hscan] at h
    dsimp only at h
    rw [hrest] at h
    obtain rfl := Except.ok.inj h
    exact .token (Bool.not_eq_true _ ▸ hblank) hscan (ih hrest)

/-- The tokens that a text is made of are read. -/
theorem Spelling.exists_scanFrom {cs : List Char} {w : List (Lexeme F)} (h : Spelling cs w) (offset : Nat) :
    ∃ tokens, Token.scanFrom .common offset cs = .ok tokens ∧ tokens.map (·.lexeme) = w := by
  induction h generalizing offset with
  | nil => exact ⟨[], by rw [Token.scanFrom], rfl⟩
  | @blank c cs w hblank _ ih =>
    obtain ⟨tokens, htokens, rfl⟩ := ih (offset + c.utf8Size)
    exact ⟨tokens, by rw [Token.scanFrom, if_pos hblank, htokens], rfl⟩
  | @token c cs lexeme more w hblank hscan _ ih =>
    obtain ⟨tokens, htokens, rfl⟩ := ih (offset + byteLength (c :: cs.take more))
    refine ⟨⟨lexeme, offset, offset + byteLength (c :: cs.take more)⟩ :: tokens, ?_, rfl⟩
    rw [Token.scanFrom, hblank, hscan]
    simp only [Bool.false_eq_true, if_false, htokens]

/-- Each lexeme of a text was read somewhere in it. -/
theorem Spelling.exists_scan_of_mem {cs : List Char} {w : List (Lexeme F)} (h : Spelling cs w) {lexeme : Lexeme F}
    (hmem : lexeme ∈ w) : ∃ c cs' more, Text.isBlank c = false ∧ scan .common c cs' = .ok (lexeme, more) := by
  induction h with
  | nil => nomatch hmem
  | blank _ _ ih => exact ih hmem
  | token hblank hscan _ ih =>
    rcases List.mem_cons.1 hmem with rfl | hmem
    · exact ⟨_, _, _, hblank, hscan⟩
    · exact ih hmem

/-! ## Characters -/

/-- A character of an operator symbol. -/
def continuesOperator (c : Char) : Bool :=
  (operatorSymbols .common).any (·.toList.contains c)

/-- The characters that operator symbols are made of. -/
def operatorCharacters : List Char :=
  ['*', '^', '↑', '_', '↓', '√', '@', '=', '>', '-', '→', '/', '%', '×', '÷', '·', '+', '−', '<', '&', '⊕', '|', '.', '≤', '≥', '!', '≠',
    '∧', '∨', '⊻', '~', '¬', '∛', '∜']

/-- The characters that may follow an operand in the text of an expression. -/
def delimiters : List Char := [' ', ',', ';', ')', ']']

/-- The characters that are tokens by themselves. -/
def punctuationMarks : List Char := ['(', ')', '[', '\x7b', ']', '\x7d', ',', ';', '∞']

/-- Nothing follows, or a delimiter. -/
def Delimited : List Char → Prop
  | [] => True
  | c :: _ => c ∈ delimiters

/-- What follows, if anything does, is a delimiter. -/
theorem Delimited.mem_of_mem_head? {rest : List Char} (h : Delimited rest) {d : Char} (hd : d ∈ rest.head?) :
    d ∈ delimiters := by
  cases rest with
  | nil => nomatch hd
  | cons c rest =>
    obtain rfl := Option.some.inj hd
    exact h

/-- An operator symbol is made of these characters, and of one at least. -/
theorem class_of_mem_operatorSymbols {symbol : String} (h : symbol ∈ operatorSymbols .common) :
    symbol.toList ≠ [] ∧ ∀ c ∈ symbol.toList, c ∈ operatorCharacters := by
  have hall : ((operatorSymbols .common).all fun symbol =>
      !symbol.toList.isEmpty && symbol.toList.all operatorCharacters.contains) = true := by
    decide +kernel
  simpa using List.all_eq_true.1 hall symbol h

/-- Any other character is in no operator symbol. -/
theorem continuesOperator_eq_false {c : Char} (h : c ∉ operatorCharacters) : continuesOperator c = false := by
  unfold continuesOperator
  rw [List.any_eq_false]
  intro symbol hsymbol hc
  exact h ((class_of_mem_operatorSymbols hsymbol).2 c (List.contains_iff_mem.1 hc))

/-- A delimiter continues no token. -/
theorem not_continues_of_mem_delimiters {d : Char} (h : d ∈ delimiters) : continuesOperator d = false ∧
    continuesName d = false ∧ Text.isLetter d = false ∧ Text.isDecimalDigit d = false := by
  have hall : (delimiters.all fun d =>
      !operatorCharacters.contains d && !continuesName d && !Text.isLetter d && !Text.isDecimalDigit d) = true := by
    decide +kernel
  obtain ⟨hoperator, hrest⟩ : d ∉ operatorCharacters ∧
      continuesName d = false ∧ Text.isLetter d = false ∧ Text.isDecimalDigit d = false := by
    simpa [and_assoc] using List.all_eq_true.1 hall d h
  exact ⟨continuesOperator_eq_false hoperator, hrest⟩

/-- A character of an operator symbol starts no other token, the point of a number excepted. -/
theorem not_starts_of_mem_operatorSymbols {symbol : String} (h : symbol ∈ operatorSymbols .common) {c : Char}
    (hc : c ∈ symbol.toList) : Text.isBlank c = false ∧ Text.isCurrencySign c = false ∧ startsName c = false ∧
      Text.isDecimalDigit c = false ∧ isQuote c = false ∧ c ∉ punctuationMarks := by
  have hall : (operatorCharacters.all fun c => !Text.isBlank c && !Text.isCurrencySign c && !startsName c &&
      !Text.isDecimalDigit c && !isQuote c && !punctuationMarks.contains c) = true := by
    decide +kernel
  simpa [and_assoc] using List.all_eq_true.1 hall c ((class_of_mem_operatorSymbols h).2 c hc)

/-- An operator symbol has a character. -/
theorem operatorSymbols_ne_nil : ∀ symbol ∈ operatorSymbols .common, symbol.toList ≠ [] :=
  fun _ h => (class_of_mem_operatorSymbols h).1

/-- A mark is neither blank nor part of an operator. -/
theorem class_of_mem_punctuationMarks {c : Char} (h : c ∈ punctuationMarks) :
    Text.isBlank c = false ∧ continuesOperator c = false := by
  have hall : (punctuationMarks.all fun c => !Text.isBlank c && !operatorCharacters.contains c) = true := by decide +kernel
  obtain ⟨hblank, hoperator⟩ : Text.isBlank c = false ∧ c ∉ operatorCharacters := by
    simpa using List.all_eq_true.1 hall c h
  exact ⟨hblank, continuesOperator_eq_false hoperator⟩

/-- Nothing else is punctuation. -/
theorem ofPunctuation?_eq_none {c : Char} (h : c ∉ punctuationMarks) : ofPunctuation? (F := F) c = none := by
  unfold ofPunctuation?
  split <;> first | rfl | exact absurd (by decide) h

/-- What is punctuation is a mark. -/
theorem mem_punctuationMarks {c : Char} {lexeme : Lexeme F} (h : ofPunctuation? c = some lexeme) :
    c ∈ punctuationMarks := by
  rw [← Decidable.not_not (p := c ∈ punctuationMarks)]
  intro hc
  rw [ofPunctuation?_eq_none hc] at h
  nomatch h

/-- A number starts with a digit, or with a point before a digit. -/
theorem scanNumber?_eq_none {c : Char} {cs : List Char} (hdigit : Text.isDecimalDigit c = false)
    (hpoint : c = '.' → cs.takeWhile Text.isDecimalDigit = []) : scanNumber? (F := F) (c :: cs) = none := by
  have hspan : Decimal.spanMantissa? (c :: cs) = none := by
    unfold Decimal.spanMantissa? Decimal.spanDigits
    rw [List.takeWhile_cons_of_neg (by simp [hdigit]), List.dropWhile_cons_of_neg (by simp [hdigit])]
    dsimp only
    split
    · rename_i heq
      obtain ⟨rfl, rfl⟩ := List.cons.inj heq
      rw [hpoint rfl]
      rfl
    · rfl
  rw [scanNumber?, hspan, Option.map_none]

/-! ## Operators -/

/-- What follows does not continue an operator symbol. -/
def EndsOperator : List Char → Prop
  | [] => True
  | c :: _ => continuesOperator c = false

omit [Numeric F] in
/-- An operator symbol is read as far as it goes. -/
theorem scanOperator?_eq_some {symbol : String} (hsymbol : symbol ∈ operatorSymbols .common) {rest : List Char}
    (hrest : EndsOperator rest) :
    scanOperator? (F := F) .common (symbol.toList ++ rest) = some (.operator symbol, symbol.toList.length - 1) := by
  have hmax : ∀ o ∈ (operatorSymbols .common).map String.toList, o <+: symbol.toList ++ rest →
      o.length ≤ symbol.toList.length := by
    intro o ho hprefix
    rw [← Nat.not_lt]
    intro hlt
    obtain ⟨other, hother, rfl⟩ := List.mem_map.1 ho
    -- a longer symbol would have the character after the shorter one
    have hget := hprefix.getElem hlt
    have hmem := List.getElem_mem hlt
    cases rest with
    | nil =>
      have := hprefix.length_le
      rw [List.append_nil] at this
      omega
    | cons d rest =>
      rw [List.getElem_append_right (Nat.le_refl _)] at hget
      simp only [Nat.sub_self, List.getElem_cons_zero] at hget
      rw [hget] at hmem
      have : continuesOperator d = true := List.any_eq_true.2 ⟨other, hother, by simpa using hmem⟩
      rw [hrest] at this
      nomatch this
  rw [scanOperator?, Text.longestMatch?_eq_some_iff.2 ⟨List.mem_map_of_mem hsymbol, List.prefix_append _ _, hmax⟩]
  simp

/-- An operator symbol is the token at the start of a text. A point must not be followed by a digit. -/
theorem scan_operator {symbol : String} (hsymbol : symbol ∈ operatorSymbols .common) {c : Char} {cs rest : List Char}
    (hc : symbol.toList = c :: cs) (hrest : EndsOperator rest)
    (hnumber : scanNumber? (F := F) (c :: (cs ++ rest)) = none) :
    Text.isBlank c = false ∧ scan (F := F) .common c (cs ++ rest) = .ok (.operator symbol, cs.length) := by
  have hmem : c ∈ symbol.toList := by
    rw [hc]
    exact List.mem_cons_self ..
  obtain ⟨hblank, hcurrency, hname, -, hquote, hpunctuation⟩ := not_starts_of_mem_operatorSymbols hsymbol hmem
  have hword : scanWord? (F := F) c (cs ++ rest) = none := by simp [scanWord?, hcurrency, hname]
  have hoperator := scanOperator?_eq_some (F := F) hsymbol hrest
  rw [hc, List.cons_append] at hoperator
  refine ⟨hblank, ?_⟩
  rw [scan, ofPunctuation?_eq_none hpunctuation, hquote]
  simp only [Bool.false_eq_true, if_false, hnumber, hword, hoperator, Option.none_or]
  simp

/-! ## Words -/

/-- The characters that continue a word that starts with a character, if a word does. -/
def wordTail? (c : Char) : Option (Char → Bool) :=
  if Text.isCurrencySign c then some Text.isLetter else if startsName c then some continuesName else none

/-- A word goes as far as its characters do. -/
theorem scanWord?_eq (c : Char) (cs : List Char) : scanWord? (F := F) c cs = (wordTail? c).map fun continues =>
    (ofWord (String.ofList (c :: cs.takeWhile continues)), (cs.takeWhile continues).length) := by
  unfold scanWord? wordTail?
  split
  · rfl
  split <;> rfl

/-- A delimiter continues no word. -/
theorem wordTail?_delimiter {c d : Char} {continues : Char → Bool} (h : wordTail? c = some continues)
    (hd : d ∈ delimiters) : continues d = false := by
  obtain ⟨-, hname, hletter, -⟩ := not_continues_of_mem_delimiters hd
  unfold wordTail? at h
  split at h
  · obtain rfl := Option.some.inj h
    exact hletter
  split at h
  · obtain rfl := Option.some.inj h
    exact hname
  · nomatch h

/-- A character that opens a word is no part of an operator. -/
theorem continuesOperator_eq_false_of_wordTail? {c : Char} {continues : Char → Bool} (h : wordTail? c = some continues) :
    continuesOperator c = false := by
  rw [← Bool.not_eq_true]
  intro hc
  obtain ⟨symbol, hsymbol, hmem⟩ := List.any_eq_true.1 hc
  obtain ⟨-, hcurrency, hname, -⟩ := not_starts_of_mem_operatorSymbols hsymbol (List.contains_iff_mem.1 hmem)
  simp [wordTail?, hcurrency, hname] at h

/-- What follows a word that it does not continue. -/
theorem takeWhile_append_delimited {continues : Char → Bool} {cs rest : List Char} (hcs : ∀ c ∈ cs, continues c = true)
    (hdelimiter : ∀ d ∈ delimiters, continues d = false) (hrest : Delimited rest) :
    (cs ++ rest).takeWhile continues = cs := by
  rw [List.takeWhile_append_of_pos hcs]
  cases rest with
  | nil => simp
  | cons d rest => rw [List.takeWhile_cons_of_neg (by simp [hdelimiter d hrest]), List.append_nil]

/-- A word is the token at the start of a text where nothing else starts and a delimiter follows it. -/
theorem scan_word {c : Char} {continues : Char → Bool} (htail : wordTail? c = some continues)
    (hpunctuation : ofPunctuation? (F := F) c = none) (hquote : isQuote c = false)
    (hdigit : Text.isDecimalDigit c = false) {cs rest : List Char} (hcs : ∀ c ∈ cs, continues c = true)
    (hrest : Delimited rest) : scan (F := F) .common c (cs ++ rest) = .ok (ofWord (String.ofList (c :: cs)), cs.length) := by
  have hpoint : c ≠ '.' := by
    rintro rfl
    have hclass : Text.isCurrencySign '.' = false ∧ startsName '.' = false := by decide +kernel
    simp [wordTail?, hclass] at htail
  have hword : scanWord? (F := F) c (cs ++ rest) = some (ofWord (String.ofList (c :: cs)), cs.length) := by
    rw [scanWord?_eq, htail, Option.map_some,
      takeWhile_append_delimited hcs (fun d hd => wordTail?_delimiter htail hd) hrest]
  rw [scan, hpunctuation, hquote, scanNumber?_eq_none hdigit fun h => absurd h hpoint, hword]
  rfl

/-! ## Texts of tokens -/

/-- The text is made of these lexemes wherever a delimiter or nothing follows. -/
def Spelled (cs : List Char) (w : List (Lexeme F)) : Prop :=
  ∀ rest v, Delimited rest → Spelling rest v → Spelling (cs ++ rest) (w ++ v)

/-- The text is made of these lexemes and starts with a character that continues no operator before it. -/
structure Operand (cs : List Char) (w : List (Lexeme F)) : Prop where
  head : ∃ c cs', cs = c :: cs' ∧ continuesOperator c = false
  spelled : Spelled cs w

/-- A token that is read before every delimiter is an operand. -/
theorem Operand.of_scan {c : Char} {cs : List Char} {lexeme : Lexeme F} (hblank : Text.isBlank c = false)
    (hoperator : continuesOperator c = false)
    (hscan : ∀ rest, Delimited rest → scan .common c (cs ++ rest) = .ok (lexeme, cs.length)) :
    Operand (c :: cs) [lexeme] := by
  refine ⟨⟨c, cs, rfl, hoperator⟩, fun rest v hrest hv => ?_⟩
  have hdrop : (cs ++ rest).drop cs.length = rest := List.drop_left
  exact .token hblank (hscan rest hrest) (hdrop.symm ▸ hv)

/-- The whole of a spelled text. -/
theorem Spelled.spelling {cs : List Char} {w : List (Lexeme F)} (h : Spelled cs w) : Spelling cs w := by
  have := h [] [] trivial .nil
  rwa [List.append_nil, List.append_nil] at this

/-- The empty text. -/
theorem spelled_nil : Spelled (F := F) [] [] := fun _ _ _ h => h

/-- Punctuation before a text. -/
theorem Spelling.punctuation {c : Char} {cs : List Char} {lexeme : Lexeme F} {w : List (Lexeme F)}
    (hc : ofPunctuation? c = some lexeme) (h : Spelling cs w) : Spelling (c :: cs) (lexeme :: w) := by
  have hscan : scan .common c cs = .ok (lexeme, 0) := by rw [scan, hc]
  exact .token (class_of_mem_punctuationMarks (mem_punctuationMarks hc)).1 hscan h

/-- A space before a text. -/
theorem Spelling.space {cs : List Char} {w : List (Lexeme F)} (h : Spelling cs w) : Spelling (' ' :: cs) w :=
  .blank (by decide +kernel) h

/-- Two texts with a space between them. -/
theorem Spelled.space {cs cs' : List Char} {w w' : List (Lexeme F)} (h : Spelled cs w) (h' : Spelled cs' w') :
    Spelled (cs ++ ' ' :: cs') (w ++ w') := by
  intro rest v hrest hv
  have hspace : Delimited (' ' :: (cs' ++ rest)) := List.mem_cons_self ..
  rw [List.append_assoc, List.append_assoc, List.cons_append]
  exact h _ _ hspace (h' rest v hrest hv).space

/-- Two texts with a separator and a space between them. -/
theorem Spelled.separate {cs cs' : List Char} {w w' : List (Lexeme F)} (h : Spelled cs w) {c : Char} {lexeme : Lexeme F}
    (hc : ofPunctuation? c = some lexeme) (hdelimiter : c ∈ delimiters) (h' : Spelled cs' w') :
    Spelled (cs ++ c :: ' ' :: cs') (w ++ lexeme :: w') := by
  intro rest v hrest hv
  rw [List.append_assoc, List.append_assoc, List.cons_append, List.cons_append, List.cons_append]
  exact h _ _ hdelimiter ((h' rest v hrest hv).space.punctuation hc)

/-- A text between brackets. -/
theorem Spelled.enclose {cs : List Char} {w : List (Lexeme F)} (h : Spelled cs w) {opening closing : Char}
    {left right : Lexeme F} (hopening : ofPunctuation? opening = some left) (hclosing : ofPunctuation? closing = some right)
    (hdelimiter : closing ∈ delimiters) : Operand (opening :: (cs ++ [closing])) (left :: (w ++ [right])) := by
  refine ⟨⟨_, _, rfl, (class_of_mem_punctuationMarks (mem_punctuationMarks hopening)).2⟩, fun rest v _ hv => ?_⟩
  rw [List.cons_append, List.cons_append, List.append_assoc, List.append_assoc]
  exact (h (closing :: rest) (right :: v) hdelimiter (hv.punctuation hclosing)).punctuation hopening

/-- A delimiter ends an operator symbol. -/
theorem Delimited.endsOperator {rest : List Char} (h : Delimited rest) : EndsOperator rest := by
  cases rest with
  | nil => trivial
  | cons d rest => exact (not_continues_of_mem_delimiters h).1

/-- An operator symbol before what does not continue it. A point is no operator before a digit. -/
theorem Spelling.operator {symbol : String} (hsymbol : symbol ∈ operatorSymbols .common) {rest : List Char}
    {v : List (Lexeme F)} (hrest : EndsOperator rest)
    (hpoint : '.' ∈ symbol.toList → rest.takeWhile Text.isDecimalDigit = []) (hv : Spelling rest v) :
    Spelling (symbol.toList ++ rest) (.operator symbol :: v) := by
  cases hcs : symbol.toList with
  | nil => exact absurd hcs (operatorSymbols_ne_nil symbol hsymbol)
  | cons c cs =>
    have hmem : ∀ d ∈ c :: cs, Text.isDecimalDigit d = false := by
      intro d hd
      obtain ⟨-, -, -, hdigit, -⟩ := not_starts_of_mem_operatorSymbols hsymbol (hcs ▸ hd)
      exact hdigit
    have hnumber : scanNumber? (F := F) (c :: (cs ++ rest)) = none := by
      refine scanNumber?_eq_none (hmem c (List.mem_cons_self ..)) fun hc => ?_
      cases cs with
      | nil => exact hpoint (by rw [hcs, hc]; exact List.mem_cons_self ..)
      | cons d cs => exact List.takeWhile_cons_of_neg (by simp [hmem d (by simp)])
    obtain ⟨hblank, hscan⟩ := scan_operator hsymbol hcs hrest hnumber
    have hdrop : (cs ++ rest).drop cs.length = rest := List.drop_left
    exact .token hblank hscan (hdrop.symm ▸ hv)

/-- An operator symbol before an operand. -/
theorem Operand.signed {cs : List Char} {w : List (Lexeme F)} (h : Operand cs w) {symbol : String}
    (hsymbol : symbol ∈ operatorSymbols .common) (hpoint : '.' ∉ symbol.toList) :
    Spelled (symbol.toList ++ cs) (.operator symbol :: w) := by
  intro rest v hrest hv
  obtain ⟨c, cs', rfl, hc⟩ := h.head
  rw [List.append_assoc]
  exact Spelling.operator hsymbol hc (fun h => absurd h hpoint) (h.spelled rest v hrest hv)

/-- An operator symbol alone. -/
theorem spelled_operator {symbol : String} (hsymbol : symbol ∈ operatorSymbols .common) :
    Spelled (F := F) symbol.toList [.operator symbol] := by
  intro rest v hrest hv
  refine Spelling.operator hsymbol hrest.endsOperator (fun _ => ?_) hv
  cases rest with
  | nil => rfl
  | cons d rest =>
    obtain ⟨-, -, -, hdigit⟩ := not_continues_of_mem_delimiters hrest
    exact List.takeWhile_cons_of_neg (by simp [hdigit])

end QuantityCalculus.Lexeme
