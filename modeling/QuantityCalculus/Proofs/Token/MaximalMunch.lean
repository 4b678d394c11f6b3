import QuantityCalculus.Numeric.Binary64
import QuantityCalculus.Proofs.Text.LongestMatch
import QuantityCalculus.Token.Scan

/-!
# Operators are as long as they can be

Where an operator is read, it is the longest symbol at the start of the text, and all of that symbol is read. The symbols are those of
the table that are no words, in whatever order the table has them, and those of the unary operations.
-/

namespace QuantityCalculus

/-! ## Symbols -/

/-- A text is the symbol of a unary operation if it is among their symbols. -/
theorem UnaryOp.mem_symbols_iff {symbol : String} : symbol ∈ UnaryOp.symbols ↔ (UnaryOp.ofSymbol? symbol).isSome := by
  constructor
  · intro h
    simp only [UnaryOp.symbols, List.mem_cons, List.not_mem_nil, or_false] at h
    rcases h with rfl | rfl | rfl | rfl | rfl | rfl | rfl | rfl | rfl <;> rfl
  · intro h
    unfold UnaryOp.ofSymbol? at h
    split at h
    case h_10 => nomatch h
    all_goals simp [UnaryOp.symbols]

namespace OperatorTable

variable {table table' : OperatorTable} {cs : List Char} {symbol : String}

/-- What is read as an operator: a symbol of the table that is no word, or the symbol of a unary operation. -/
def IsSymbol (table : OperatorTable) (symbol : String) : Prop :=
  (∃ o ∈ table.operators, o.symbol = symbol ∧ o.isWord = false) ∨ (UnaryOp.ofSymbol? symbol).isSome

/-- The symbol is the longest one at the start of a text. -/
structure IsLongest (table : OperatorTable) (cs : List Char) (symbol : String) : Prop where
  isSymbol : table.IsSymbol symbol
  atStart : symbol.toList <+: cs
  length_le : ∀ other, table.IsSymbol other → other.toList <+: cs → other.length ≤ symbol.length

/-- The operator symbols are those of the table and of the unary operations. -/
theorem mem_operatorSymbols_iff : symbol ∈ Lexeme.operatorSymbols table ↔ table.IsSymbol symbol := by
  unfold Lexeme.operatorSymbols IsSymbol
  rw [List.mem_append, UnaryOp.mem_symbols_iff]
  simp only [List.mem_map, List.mem_filter, Bool.not_eq_true', and_assoc]
  exact or_congr_left (exists_congr fun o => and_congr_right fun _ => and_comm)

/-- No symbol is empty: an operator without characters counts as a word. -/
theorem IsSymbol.length_pos (h : table.IsSymbol symbol) : 0 < symbol.toList.length := by
  refine List.length_pos_iff.2 fun hnil => ?_
  obtain rfl : symbol = "" := String.toList_inj.1 hnil
  rcases h with ⟨o, -, hempty, hword⟩ | h
  · unfold Operator.isWord at hword
    rw [hempty] at hword
    nomatch hword
  · nomatch h

/-- The order of the operators in a table makes no difference to what is a symbol. -/
theorem isSymbol_congr (h : table'.operators.Perm table.operators) : table'.IsSymbol symbol ↔ table.IsSymbol symbol := by
  unfold IsSymbol
  simp only [h.mem_iff]

/-- The first of the symbols, from the longest to the shortest, is the longest symbol at the start. -/
theorem longestMatch?_operatorSymbols {s : List Char} :
    Text.longestMatch? ((Lexeme.operatorSymbols table).map String.toList) cs = some s ↔
      ∃ symbol, table.IsLongest cs symbol ∧ symbol.toList = s := by
  rw [Text.longestMatch?_eq_some_iff]
  constructor
  · rintro ⟨hmem, hstart, hlongest⟩
    obtain ⟨symbol, hsymbol, rfl⟩ := List.mem_map.1 hmem
    refine ⟨symbol, ⟨mem_operatorSymbols_iff.1 hsymbol, hstart, fun other hother hat => ?_⟩, rfl⟩
    exact hlongest _ (List.mem_map_of_mem (mem_operatorSymbols_iff.2 hother)) hat
  · rintro ⟨symbol, hlongest, rfl⟩
    refine ⟨List.mem_map_of_mem (mem_operatorSymbols_iff.2 hlongest.isSymbol), hlongest.atStart, ?_⟩
    refine List.forall_mem_map.2 fun other hother hat => ?_
    exact hlongest.length_le other (mem_operatorSymbols_iff.1 hother) hat

end OperatorTable

namespace Lexeme

variable {F : Type} {table table' : OperatorTable} {c : Char} {cs : List Char}

/-! ## Reading an operator -/

/-- The longest symbol at the start is read, with all of its characters. -/
theorem scanOperator?_eq_some_iff {lexeme : Lexeme F} {more : Nat} : scanOperator? table cs = some (lexeme, more) ↔
    ∃ symbol, table.IsLongest cs symbol ∧ lexeme = .operator symbol ∧ more + 1 = symbol.length := by
  unfold scanOperator?
  simp only [Option.map_eq_some_iff, OperatorTable.longestMatch?_operatorSymbols, Prod.mk.injEq]
  constructor
  · rintro ⟨_, ⟨symbol, hlongest, rfl⟩, rfl, rfl⟩
    refine ⟨symbol, hlongest, by rw [String.ofList_toList], ?_⟩
    rw [← String.length_toList]
    exact Nat.sub_add_cancel hlongest.isSymbol.length_pos
  · rintro ⟨symbol, hlongest, rfl, hmore⟩
    refine ⟨_, ⟨symbol, hlongest, rfl⟩, by rw [String.ofList_toList], ?_⟩
    rw [String.length_toList]
    exact (Nat.eq_sub_of_add_eq hmore).symm

/-- Nothing is read where no symbol is at the start. -/
theorem scanOperator?_eq_none_iff :
    scanOperator? (F := F) table cs = none ↔ ∀ symbol, table.IsSymbol symbol → ¬symbol.toList <+: cs := by
  unfold scanOperator?
  rw [Option.map_eq_none_iff, Text.longestMatch?_eq_none_iff, List.forall_mem_map]
  simp only [OperatorTable.mem_operatorSymbols_iff]

/-- Tables with the same operators read the same operators. -/
theorem scanOperator?_perm (h : table'.operators.Perm table.operators) (cs : List Char) :
    scanOperator? (F := F) table' cs = scanOperator? table cs := by
  refine congrArg (Option.map _) (Text.longestMatch?_congr fun o => and_congr_left fun _ => ?_)
  simp only [List.mem_map, OperatorTable.mem_operatorSymbols_iff, OperatorTable.isSymbol_congr h]

variable [Numeric F]

/-- An operator is tried at a character that is not blank, and at which no other token starts. -/
structure TriesOperator (F : Type) [Numeric F] (c : Char) (cs : List Char) : Prop where
  notBlank : Text.isBlank c = false
  notPunctuation : ofPunctuation? (F := F) c = none
  notQuote : isQuote c = false
  notNumber : scanNumber? (F := F) (c :: cs) = none
  notWord : scanWord? (F := F) c cs = none

/-- Where an operator is tried, there is no other token. -/
theorem TriesOperator.scan_eq (h : TriesOperator F c cs) (table : OperatorTable) :
    scan (F := F) table c cs = (scanOperator? table (c :: cs)).elim (.error (.unexpectedChar c)) .ok := by
  unfold scan
  rw [h.notPunctuation, h.notQuote, h.notNumber, h.notWord, Option.none_or]
  cases scanOperator? (F := F) table (c :: cs) <;> rfl

/-- Tables with the same operators read the same token. -/
theorem scan_perm (h : table'.operators.Perm table.operators) (c : Char) (cs : List Char) :
    scan (F := F) table' c cs = scan table c cs := by
  unfold scan
  rw [scanOperator?_perm h]

end Lexeme

namespace Token

open Lexeme

variable {F : Type} [Numeric F] {table table' : OperatorTable} {c : Char} {cs : List Char}

/-! ## Tokens -/

/-- The token of the longest symbol covers that symbol, and reading goes on behind it. -/
theorem scanFrom_of_isLongest (h : TriesOperator F c cs) {symbol : String} {rest : List Char}
    (hlongest : table.IsLongest (symbol.toList ++ rest) symbol) (hrest : c :: cs = symbol.toList ++ rest) (offset : Nat) :
    scanFrom (F := F) table offset (c :: cs) =
      (scanFrom table (offset + byteLength symbol.toList) rest).map
        (⟨.operator symbol, offset, offset + byteLength symbol.toList⟩ :: ·) := by
  have hpos := hlongest.isSymbol.length_pos
  have hmore : symbol.toList.length - 1 + 1 = symbol.length := by rw [Nat.sub_add_cancel hpos, String.length_toList]
  have hread : scanOperator? (F := F) table (c :: cs) = some (.operator symbol, symbol.toList.length - 1) :=
    scanOperator?_eq_some_iff.2 ⟨symbol, hrest ▸ hlongest, rfl, hmore⟩
  have htake : c :: cs.take (symbol.toList.length - 1) = symbol.toList := by
    rw [← List.take_succ_cons, Nat.sub_add_cancel hpos, hrest, List.take_left]
  have hdrop : cs.drop (symbol.toList.length - 1) = rest := by
    rw [← List.drop_succ_cons (a := c), Nat.sub_add_cancel hpos, hrest, List.drop_left]
  rw [scanFrom, h.notBlank, h.scan_eq, hread]
  simp only [Bool.false_eq_true, if_false, Option.elim_some, htake, hdrop]
  cases scanFrom (F := F) table (offset + byteLength symbol.toList) rest <;> rfl

/-- Where an operator is tried and no symbol is there, the character is no part of a token. -/
theorem scanFrom_of_no_symbol (h : TriesOperator F c cs) (hnone : ∀ symbol, table.IsSymbol symbol → ¬symbol.toList <+: c :: cs)
    (offset : Nat) : scanFrom (F := F) table offset (c :: cs) = .error ⟨.unexpectedChar c, offset⟩ := by
  rw [scanFrom, h.notBlank, h.scan_eq, scanOperator?_eq_none_iff.2 hnone]
  rfl

/-- Tables with the same operators read the same tokens. -/
theorem scanFrom_perm (h : table'.operators.Perm table.operators) (offset : Nat) (cs : List Char) :
    scanFrom (F := F) table' offset cs = scanFrom table offset cs := by
  induction offset, cs using scanFrom.induct (F := F) table with
  | case1 => rw [scanFrom, scanFrom]
  | case2 offset c cs hblank ih => rw [scanFrom, scanFrom, if_pos hblank, if_pos hblank, ih]
  | case3 offset c cs hblank reason hscan => rw [scanFrom, scanFrom, if_neg hblank, if_neg hblank, scan_perm h, hscan]
  | case4 offset c cs hblank lexeme more hscan stop _ _ ih
  | case5 offset c cs hblank lexeme more hscan stop _ _ ih =>
    have hrest : scanFrom table' (offset + byteLength (c :: cs.take more)) (cs.drop more) =
        scanFrom table (offset + byteLength (c :: cs.take more)) (cs.drop more) := ih
    rw [scanFrom, scanFrom, if_neg hblank, if_neg hblank, scan_perm h, hscan]
    simp only [hrest]

/-- Operators are read by maximal munch. What is read is the longest symbol at the start of the text, all of it and nothing more, and
nothing is read where no symbol is there; so the token covers that symbol, and the character is unexpected where there is none. The
order of the operators in the table makes no difference to any text. -/
theorem operators_by_maximal_munch (table : OperatorTable) :
    (∀ (cs : List Char) (lexeme : Lexeme F) (more : Nat), scanOperator? table cs = some (lexeme, more) ↔
      ∃ symbol, table.IsLongest cs symbol ∧ lexeme = .operator symbol ∧ more + 1 = symbol.length) ∧
    (∀ cs, scanOperator? (F := F) table cs = none ↔ ∀ symbol, table.IsSymbol symbol → ¬symbol.toList <+: cs) ∧
    (∀ c cs, TriesOperator F c cs → ∀ offset,
      (∀ symbol rest, c :: cs = symbol.toList ++ rest → table.IsLongest (c :: cs) symbol →
        scanFrom (F := F) table offset (c :: cs) =
          (scanFrom table (offset + byteLength symbol.toList) rest).map
            (⟨.operator symbol, offset, offset + byteLength symbol.toList⟩ :: ·)) ∧
      ((∀ symbol, table.IsSymbol symbol → ¬symbol.toList <+: c :: cs) →
        scanFrom (F := F) table offset (c :: cs) = .error ⟨.unexpectedChar c, offset⟩)) ∧
    ∀ table' : OperatorTable, table'.operators.Perm table.operators → ∀ (offset : Nat) (cs : List Char),
      scanFrom (F := F) table' offset cs = scanFrom table offset cs := by
  refine ⟨fun _ _ _ => scanOperator?_eq_some_iff, fun _ => scanOperator?_eq_none_iff, fun c cs htries offset => ⟨?_, ?_⟩,
    fun _ hperm => scanFrom_perm hperm⟩
  · intro symbol rest hrest hlongest
    exact scanFrom_of_isLongest htries (hrest ▸ hlongest) hrest offset
  · exact fun hnone => scanFrom_of_no_symbol htries hnone offset

/-- The operators of the language and a double arrow for conversions. -/
def withDoubleArrow : OperatorTable := OperatorTable.common.insert ⟨"→→", .convert, .left, 160⟩

/-- Of three arrows, the double arrow takes two, six bytes; it is listed after the single one, or before it. -/
theorem double_arrow_before_arrow :
    (TriesOperator Float '→' ['→', '→', '2'] ∧ withDoubleArrow.IsLongest ['→', '→', '→', '2'] "→→") ∧
      (⟨withDoubleArrow.operators.reverse⟩ : OperatorTable).operators.Perm withDoubleArrow.operators ∧
      scanFrom (F := Float) ⟨withDoubleArrow.operators.reverse⟩ 0 ['→', '→', '→', '2'] =
        (scanFrom withDoubleArrow 6 ['→', '2']).map (⟨.operator "→→", 0, 6⟩ :: ·) := by
  obtain ⟨-, -, htokens, hperm⟩ := operators_by_maximal_munch (F := Float) withDoubleArrow
  have hword : (scanWord? (F := Float) '→' ['→', '→', '2']).isNone = true := by decide +kernel
  have htries : TriesOperator Float '→' ['→', '→', '2'] :=
    ⟨by decide +kernel, rfl, by decide +kernel, rfl, Option.isNone_iff_eq_none.1 hword⟩
  have hmatch : Text.longestMatch? ((operatorSymbols withDoubleArrow).map String.toList) ['→', '→', '→', '2'] =
      some "→→".toList := by decide +kernel
  obtain ⟨symbol, hlongest, hsymbol⟩ := OperatorTable.longestMatch?_operatorSymbols.1 hmatch
  obtain rfl := String.toList_inj.1 hsymbol
  have hreverse := withDoubleArrow.operators.reverse_perm
  refine ⟨⟨htries, hlongest⟩, hreverse, ?_⟩
  rw [hperm ⟨withDoubleArrow.operators.reverse⟩ hreverse]
  exact (htokens _ _ htries 0).1 "→→" ['→', '2'] rfl hlongest

end Token

end QuantityCalculus
