import QuantityCalculus.Proofs.Expression.Recognition
import QuantityCalculus.Proofs.Token.Leaves

/-!
# The text of an expression is read as that expression

Every operation is printed in parentheses, so the text of any expression is a factor of the grammar, whatever stands around it. What
was read from a text is printable: its operations have canonical symbols, a sequence never has exactly one element, rows are not
empty, and its names are words that were read before. Only its numbers and strings need to be assumed readable.
-/

namespace QuantityCalculus.Expression

variable {F : Type} [Numeric F]

mutual

/-- The literals and names of an expression, from left to right. -/
def leaves : Expression F → List (Lexeme F)
  | .number x => [.number x]
  | .string s => [.string s]
  | .boolean b => [.boolean b]
  | .identifier name => [.identifier name]
  | .list rows => leavesOfRows rows
  | .sequence elems => leavesOfElems elems
  | .unary _ operand => operand.leaves
  | .binary _ left right => left.leaves ++ right.leaves
  | .juxtapose left right => left.leaves ++ right.leaves
  | .assign name value => .identifier name :: value.leaves

/-- The literals and names of several expressions. -/
def leavesOfElems : List (Expression F) → List (Lexeme F)
  | [] => []
  | e :: es => e.leaves ++ leavesOfElems es

/-- The literals and names of the rows of a list. -/
def leavesOfRows : List (List (Expression F)) → List (Lexeme F)
  | [] => []
  | row :: rows => leavesOfElems row ++ leavesOfRows rows

end

omit [Numeric F] in
/-- A leaf of several expressions is a leaf of one of them. -/
theorem mem_leavesOfElems {lexeme : Lexeme F} {es : List (Expression F)} :
    lexeme ∈ leavesOfElems es ↔ ∃ e ∈ es, lexeme ∈ e.leaves := by
  induction es with
  | nil => simp [leavesOfElems]
  | cons e es ih => simp [leavesOfElems, ih]

omit [Numeric F] in
/-- A leaf of rows is a leaf of an element of one of them. -/
theorem mem_leavesOfRows {lexeme : Lexeme F} {rows : List (List (Expression F))} :
    lexeme ∈ leavesOfRows rows ↔ ∃ row ∈ rows, ∃ e ∈ row, lexeme ∈ e.leaves := by
  induction rows with
  | nil => simp [leavesOfRows]
  | cons row rows ih => simp [leavesOfRows, ih, mem_leavesOfElems]

omit [Numeric F] in
/-- The leaves of further expressions come after those of the first ones. -/
theorem leavesOfElems_append (es es' : List (Expression F)) :
    leavesOfElems (es ++ es') = leavesOfElems es ++ leavesOfElems es' := by
  induction es with
  | nil => rfl
  | cons e es ih => rw [List.cons_append, leavesOfElems, leavesOfElems, ih, List.append_assoc]

omit [Numeric F] in
/-- The leaves of one expression. -/
theorem leavesOfElems_singleton (e : Expression F) : leavesOfElems [e] = e.leaves := by
  simp [leavesOfElems]

omit [Numeric F] in
/-- The leaves of a further row come after those of the first ones. -/
theorem leavesOfRows_snoc (rows : List (List (Expression F))) (row : List (Expression F)) :
    leavesOfRows (rows ++ [row]) = leavesOfRows rows ++ leavesOfElems row := by
  induction rows with
  | nil => simp [leavesOfRows]
  | cons row' rows ih => rw [List.cons_append, leavesOfRows, leavesOfRows, ih, List.append_assoc]

omit [Numeric F] in
/-- The leaves of a phrase are among its lexemes. -/
theorem Derives.mem_of_mem_leaves {p : Phrase} {w : List (Lexeme F)} {e : Expression F} (h : Derives p w e)
    {lexeme : Lexeme F} (hmem : lexeme ∈ e.leaves) : lexeme ∈ w := by
  induction h with
  | number | string | boolean | identifier => exact hmem
  | nothing | emptyList => nomatch hmem
  | single _ ih =>
    rw [leaves, leavesOfElems_singleton] at ih
    exact ih hmem
  | element _ ih =>
    rw [leaves, leavesOfElems_singleton] at hmem
    exact ih hmem
  | row _ ih =>
    rw [leaves, leavesOfRows, leavesOfElems_singleton, leavesOfRows, List.append_nil] at hmem
    exact ih hmem
  | furtherElement _ _ _ ih ihe =>
    rw [leaves, leavesOfElems_append, leavesOfElems_singleton] at hmem
    rcases List.mem_append.1 hmem with hmem | hmem
    · exact List.mem_append_left _ (ih hmem)
    · exact List.mem_append_right _ (List.mem_cons_of_mem _ (ihe hmem))
  | rowElement _ _ ih ihe =>
    rw [leaves, leavesOfRows_snoc] at ih
    rw [leaves, leavesOfRows_snoc, leavesOfElems_append, leavesOfElems_singleton, ← List.append_assoc] at hmem
    rcases List.mem_append.1 hmem with hmem | hmem
    · exact List.mem_append_left _ (ih hmem)
    · exact List.mem_append_right _ (List.mem_cons_of_mem _ (ihe hmem))
  | furtherRow _ _ ih ihe =>
    rw [leaves, leavesOfRows_snoc, leavesOfElems_singleton] at hmem
    rcases List.mem_append.1 hmem with hmem | hmem
    · exact List.mem_append_left _ (ih hmem)
    · exact List.mem_append_right _ (List.mem_cons_of_mem _ (ihe hmem))
  | assign _ _ _ ih ihe =>
    rcases List.mem_cons.1 hmem with rfl | hmem
    · exact List.mem_append_left _ (ih (List.mem_singleton_self _))
    · exact List.mem_append_right _ (List.mem_cons_of_mem _ (ihe hmem))
  | binary _ _ _ _ ihl ihr | power _ _ _ ihl ihr =>
    rcases List.mem_append.1 hmem with hmem | hmem
    · exact List.mem_append_left _ (ihl hmem)
    · exact List.mem_append_right _ (List.mem_cons_of_mem _ (ihr hmem))
  | juxtapose _ _ ihl ihr =>
    rcases List.mem_append.1 hmem with hmem | hmem
    · exact List.mem_append_left _ (ihl hmem)
    · exact List.mem_append_right _ (ihr hmem)
  | unary _ _ ih | sign _ _ ih => exact List.mem_cons_of_mem _ (ih hmem)
  | parenthesized _ ih | list _ _ ih => exact List.mem_cons_of_mem _ (List.mem_append_left _ (ih hmem))
  | several _ ih | unassigned _ ih | tighter _ _ ih | tightest _ ih | unsigned _ ih | alone _ ih | base _ ih
  | signless _ ih => exact ih hmem

/-! ## Well-formed expressions -/

/-- An expression that can be the tree of a text: no binary operation is an assignment, no sequence has one element, and no row is
empty. -/
inductive WellFormed : Expression F → Prop
  | number (x) : WellFormed (.number x)
  | string (s) : WellFormed (.string s)
  | boolean (b) : WellFormed (.boolean b)
  | identifier (name) : WellFormed (.identifier name)
  | list {rows} : (∀ row ∈ rows, row ≠ []) → (∀ row ∈ rows, ∀ e ∈ row, WellFormed e) → WellFormed (.list rows)
  | sequence {es} : es.length ≠ 1 → (∀ e ∈ es, WellFormed e) → WellFormed (.sequence es)
  | unary (op) {e} : WellFormed e → WellFormed (.unary op e)
  | binary {op l r} : op ≠ .assign → WellFormed l → WellFormed r → WellFormed (.binary op l r)
  | juxtapose {l r} : WellFormed l → WellFormed r → WellFormed (.juxtapose l r)
  | assign (name) {e} : WellFormed e → WellFormed (.assign name e)

omit [Numeric F] in
/-- A further row of a list is not empty, and its elements are well-formed. -/
theorem wellFormed_list_snoc {rows : List (List (Expression F))} {row : List (Expression F)} :
    WellFormed (.list (rows ++ [row])) ↔ WellFormed (.list rows) ∧ row ≠ [] ∧ ∀ e ∈ row, WellFormed e := by
  constructor
  · intro h
    cases h with
    | list hne hrows =>
      have hmem : row ∈ rows ++ [row] := List.mem_append_right _ (List.mem_singleton_self row)
      refine ⟨.list (fun row' hrow' => ?_) fun row' hrow' => ?_, hne row hmem, hrows row hmem⟩
      · exact hne row' (List.mem_append_left _ hrow')
      · exact hrows row' (List.mem_append_left _ hrow')
  · rintro ⟨h, hne, hrow⟩
    cases h with
    | list hnes hrows =>
      refine .list (fun row' hrow' => ?_) fun row' hrow' => ?_
      · rcases List.mem_append.1 hrow' with hrow' | hrow'
        · exact hnes row' hrow'
        · rwa [List.mem_singleton.1 hrow']
      · rcases List.mem_append.1 hrow' with hrow' | hrow'
        · exact hrows row' hrow'
        · rwa [List.mem_singleton.1 hrow']

/-- Only the sign of an assignment stands for one. -/
theorem precedence_of_op_eq_assign : ∀ o ∈ OperatorTable.common.operators, o.op = .assign →
    o.precedence = OperatorTable.assignPrecedence := by
  decide

/-- An operator of another precedence is no assignment. -/
theorem IsOperator.ne_assign {p : Nat} {s : String} {op : BinaryOp} (h : IsOperator p s op)
    (hp : p ≠ OperatorTable.assignPrecedence) : op ≠ .assign := by
  rintro rfl
  obtain ⟨o, ho, -, hprecedence, hop⟩ := h
  exact hp (hprecedence ▸ precedence_of_op_eq_assign o ho hop)

/-- No level is that of assignments. -/
theorem ne_assignPrecedence_of_level {i p : Nat} (h : levelPrecedences[i]? = some p) :
    p ≠ OperatorTable.assignPrecedence := by
  rintro rfl
  exact absurd (List.mem_of_getElem? h) (by decide)

/-- The tree of a phrase is well-formed, or the sequence of its elements, of which there may be one. -/
def WellFormedAs : Phrase → Expression F → Prop
  | .elements, .sequence es => ∀ e ∈ es, WellFormed e
  | _, e => WellFormed e

omit [Numeric F] in
/-- What the grammar derives is well-formed. -/
theorem Derives.wellFormed {p : Phrase} {w : List (Lexeme F)} {e : Expression F} (h : Derives p w e) :
    WellFormedAs p e := by
  induction h with
  | number x => exact .number x
  | string s => exact .string s
  | identifier name => exact .identifier name
  | boolean b => exact .boolean b
  | nothing => exact .sequence (by simp) (by simp)
  | emptyList => exact .list (by simp) (by simp)
  | single _ ih => exact ih _ (List.mem_singleton_self _)
  | several _ ih => exact .sequence (by simp) ih
  | element _ ih =>
    intro e he
    obtain rfl := List.mem_singleton.1 he
    exact ih
  | furtherElement _ _ _ ih ihe =>
    intro e' he'
    rcases List.mem_append.1 he' with he' | he'
    · exact ih e' he'
    · obtain rfl := List.mem_singleton.1 he'
      exact ihe
  | row _ ih =>
    have ih : WellFormed _ := ih
    exact .list (by simp) (by simpa using ih)
  | rowElement _ _ ih ihe =>
    obtain ⟨hrows, -, hrow⟩ := wellFormed_list_snoc.1 ih
    refine wellFormed_list_snoc.2 ⟨hrows, List.append_ne_nil_of_right_ne_nil _ (List.cons_ne_nil _ _), fun e' he' => ?_⟩
    rcases List.mem_append.1 he' with he' | he'
    · exact hrow e' he'
    · obtain rfl := List.mem_singleton.1 he'
      exact ihe
  | furtherRow _ _ ih ihe =>
    refine wellFormed_list_snoc.2 ⟨ih, List.cons_ne_nil _ _, fun e' he' => ?_⟩
    obtain rfl := List.mem_singleton.1 he'
    exact ihe
  | binary hp _ hop _ ihl ihr => exact .binary (hop.ne_assign (ne_assignPrecedence_of_level hp)) ihl ihr
  | power _ hop _ ihl ihr => exact .binary (hop.ne_assign (by decide)) ihl ihr
  | juxtapose _ _ ihl ihr => exact .juxtapose ihl ihr
  | unary _ _ ih | sign _ _ ih => exact .unary _ ih
  | assign _ _ _ _ ihe => exact .assign _ ihe
  | parenthesized _ ih | list _ _ ih | unassigned _ ih | tighter _ _ ih | tightest _ ih | unsigned _ ih | alone _ ih
  | base _ ih | signless _ ih => exact ih

/-! ## Phrases of a factor -/

omit [Numeric F] in
/-- A factor is a phrase under signs. -/
theorem Derives.unary_of_factor {w : List (Lexeme F)} {e : Expression F} (h : Derives .factor w e) : Derives .unary w e :=
  .unsigned (.alone (.base h))

omit [Numeric F] in
/-- A phrase under signs is a phrase of every level. -/
theorem Derives.level_of_unary {w : List (Lexeme F)} {e : Expression F} (h : Derives .unary w e) {i : Nat}
    (hi : i ≤ levelPrecedences.length) : Derives (.level i) w e := by
  induction hi using Nat.decreasingInduction with
  | self => exact .tightest h
  | of_succ i hi ih => exact .tighter hi ih

omit [Numeric F] in
/-- A phrase of a level is a phrase of every looser one. -/
theorem Derives.level_of_level {w : List (Lexeme F)} {e : Expression F} {i j : Nat} (hij : i ≤ j)
    (hj : j ≤ levelPrecedences.length) (h : Derives (.level j) w e) : Derives (.level i) w e := by
  induction hij using Nat.decreasingInduction with
  | self => exact h
  | of_succ k hk ih => exact .tighter (Nat.lt_of_lt_of_le hk hj) ih

omit [Numeric F] in
/-- A factor is an element. -/
theorem Derives.assignment_of_factor {w : List (Lexeme F)} {e : Expression F} (h : Derives .factor w e) :
    Derives .assignment w e :=
  .unassigned (h.unary_of_factor.level_of_unary (Nat.zero_le _))

omit [Numeric F] in
/-- An element in parentheses is a factor. -/
theorem Derives.parenthesized_assignment {w : List (Lexeme F)} {e : Expression F} (h : Derives .assignment w e) :
    Derives .factor (.leftParen :: (w ++ [.rightParen])) e :=
  .parenthesized (.single (.element h))

/-- The table has every binary operation under its symbol. -/
theorem exists_operator_symbol (op : BinaryOp) :
    ∃ o ∈ OperatorTable.common.operators, o.symbol = op.symbol ∧ o.op = op := by
  cases op <;> decide

/-- Every operation of the table but the assignment is at some level or among the exponents. -/
theorem precedence_of_op_ne_assign : ∀ o ∈ OperatorTable.common.operators, o.op ≠ .assign →
    (∃ i < levelPrecedences.length, o.precedence = levelBinding i) ∨
      o.precedence = OperatorTable.exponentPrecedence := by
  decide

/-- The symbol of a binary operation stands for it at some level or among the exponents. -/
theorem exists_isOperator {op : BinaryOp} (h : op ≠ .assign) :
    (∃ i < levelPrecedences.length, IsOperator (levelBinding i) op.symbol op) ∨
      IsOperator OperatorTable.exponentPrecedence op.symbol op := by
  obtain ⟨o, ho, hsymbol, hop⟩ := exists_operator_symbol op
  rcases precedence_of_op_ne_assign o ho (hop ▸ h) with ⟨i, hi, hprecedence⟩ | hprecedence
  · exact .inl ⟨i, hi, o, ho, hsymbol, hprecedence, hop⟩
  · exact .inr ⟨o, ho, hsymbol, hprecedence, hop⟩

omit [Numeric F] in
/-- A binary operation on factors is a phrase of the loosest level. -/
theorem Derives.binary_of_factor {op : BinaryOp} (hop : op ≠ .assign) {v w : List (Lexeme F)} {l r : Expression F}
    (hl : Derives .factor v l) (hr : Derives .factor w r) :
    Derives .assignment (v ++ .operator op.symbol :: w) (.binary op l r) := by
  refine .unassigned ?_
  rcases exists_isOperator hop with ⟨i, hi, hop⟩ | hop
  · have hl := hl.unary_of_factor.level_of_unary (Nat.le_of_lt hi)
    have hr := hr.unary_of_factor.level_of_unary (Nat.succ_le_of_lt hi)
    exact (Derives.binary (getElem?_levelPrecedences hi) hl hop hr).level_of_level (Nat.zero_le _) (Nat.le_of_lt hi)
  · exact (Derives.unsigned (.alone (.power hl hop (.signless (.base hr))))).level_of_unary (Nat.zero_le _)

/-! ## Texts -/

/-- A literal or a name that is read from its own text. -/
def Legible : Lexeme F → Prop
  | .number x => Lexeme.Operand (Numeric.text x).toList [.number x]
  | .string s => Lexeme.Operand (F := F) (Text.quoted s).toList [.string s]
  | .identifier name => Lexeme.Operand (F := F) name.toList [.identifier name]
  | _ => True

/-- The text is read as lexemes that derive the expression as a factor. -/
def Readable (cs : List Char) (e : Expression F) : Prop :=
  ∃ w, Derives .factor w e ∧ Lexeme.Operand cs w

/-- The symbol of a unary operation stands for it. -/
theorem ofSymbol?_symbol (op : UnaryOp) : UnaryOp.ofSymbol? op.symbol = some op := by
  cases op <;> rfl

/-- The symbol of a unary operation is an operator without a point. -/
theorem symbol_unary (op : UnaryOp) :
    op.symbol ∈ Lexeme.operatorSymbols .common ∧ '.' ∉ op.symbol.toList := by
  have hmem : op.symbol ∈ UnaryOp.symbols := by cases op <;> decide
  refine ⟨List.mem_append_right _ hmem, ?_⟩
  cases op <;> decide

/-- Only the symbol of conversions is a word. -/
theorem all_isAlphabetic_symbol {op : BinaryOp} (h : op ≠ .convert) : op.symbol.toList.all Text.isAlphabetic = false := by
  revert h
  cases op <;> decide +kernel

/-- The symbol of any other binary operation is read as an operator. -/
theorem symbol_binary {op : BinaryOp} (h : op ≠ .convert) : op.symbol ∈ Lexeme.operatorSymbols .common := by
  obtain ⟨o, ho, hsymbol, -⟩ := exists_operator_symbol op
  have hword : (!o.isWord) = true := by
    rw [Operator.isWord, hsymbol, all_isAlphabetic_symbol h]
    rfl
  exact List.mem_append_left _ (List.mem_map.2 ⟨o, List.mem_filter.2 ⟨ho, hword⟩, hsymbol⟩)

/-- The symbol of a binary operation is read. -/
theorem spelled_symbol (op : BinaryOp) : Lexeme.Spelled (F := F) op.symbol.toList [.operator op.symbol] := by
  by_cases h : op = .convert
  · subst h
    have hto : "to".toList = 't' :: ['o'] := rfl
    exact (Lexeme.operand_word hto (by decide) (by decide)).spelled
  · exact Lexeme.spelled_operator (symbol_binary h)

/-- The text of one element. -/
theorem textOfElems_singleton (e : Expression F) : textOfElems [e] = e.text := by rw [textOfElems]

/-- The text of several elements. -/
theorem textOfElems_cons_cons (e e' : Expression F) (es : List (Expression F)) :
    textOfElems (e :: e' :: es) = e.text ++ String.ofList [',', ' '] ++ textOfElems (e' :: es) := by
  rw [textOfElems]
  exact List.cons_ne_nil _ _

/-- The text of one row. -/
theorem textOfRows_singleton (row : List (Expression F)) : textOfRows [row] = textOfElems row := by rw [textOfRows]

/-- The text of several rows. -/
theorem textOfRows_cons_cons (row row' : List (Expression F)) (rows : List (List (Expression F))) :
    textOfRows (row :: row' :: rows) = textOfElems row ++ String.ofList [';', ' '] ++ textOfRows (row' :: rows) := by
  rw [textOfRows]
  exact List.cons_ne_nil _ _

/-- Items with marks between them are read one after another, each of them continuing what was derived before it. -/
theorem exists_separated {α : Type} (text : α → String) {joined : List α → String} {mark : Char} {separator : Lexeme F}
    (hmark : Lexeme.ofPunctuation? mark = some separator) (hdelimiter : mark ∈ Lexeme.delimiters)
    (hone : ∀ x, joined [x] = text x)
    (hmore : ∀ x y xs, joined (x :: y :: xs) = text x ++ String.ofList [mark, ' '] ++ joined (y :: xs))
    {L : List (Lexeme F) → List α → Prop} {x : α} {xs : List α}
    (hfirst : ∃ w, L w [x] ∧ Lexeme.Spelled (text x).toList w)
    (hnext : ∀ y ∈ xs, ∀ w ys, L w ys → ∃ v, L (w ++ separator :: v) (ys ++ [y]) ∧ Lexeme.Spelled (text y).toList v) :
    ∃ w, L w (x :: xs) ∧ Lexeme.Spelled (joined (x :: xs)).toList w := by
  induction xs generalizing x L with
  | nil =>
    rw [hone]
    exact hfirst
  | cons y xs ih =>
    obtain ⟨w, hw, hx⟩ := hfirst
    -- what was derived so far is put into the relation for the rest
    have hrest := ih (L := fun v ys => L (w ++ separator :: v) (x :: ys)) (x := y)
      (hnext y (List.mem_cons_self ..) w [x] hw) fun z hz v ys hv => by
        have hz := hnext z (List.mem_cons_of_mem _ hz) (w ++ separator :: v) (x :: ys) hv
        simpa only [List.append_assoc, List.cons_append] using hz
    obtain ⟨v, hv, hxs⟩ := hrest
    refine ⟨w ++ separator :: v, hv, ?_⟩
    rw [hmore, String.toList_append, String.toList_append, String.toList_ofList, List.append_assoc]
    exact hx.separate hmark hdelimiter hxs

/-- Elements between commas are read. -/
theorem exists_elements {L : List (Lexeme F) → List (Expression F) → Prop}
    (hfirst : ∀ {v e}, Derives .assignment v e → L v [e])
    (hnext : ∀ {w es v e}, L w es → Derives .assignment v e → L (w ++ .comma :: v) (es ++ [e]))
    {es : List (Expression F)} (hne : es ≠ []) (hes : ∀ e ∈ es, Readable e.text.toList e) :
    ∃ w, L w es ∧ Lexeme.Spelled (textOfElems es).toList w := by
  cases es with
  | nil => exact absurd rfl hne
  | cons e es =>
    have hcomma : Lexeme.ofPunctuation? ',' = some (Lexeme.comma : Lexeme F) := rfl
    refine exists_separated text hcomma (by decide) textOfElems_singleton textOfElems_cons_cons ?_ fun e' he' w ys hw => ?_
    · obtain ⟨v, hv, hspelled⟩ := hes e (List.mem_cons_self ..)
      exact ⟨v, hfirst hv.assignment_of_factor, hspelled.spelled⟩
    · obtain ⟨v, hv, hspelled⟩ := hes e' (List.mem_cons_of_mem _ he')
      exact ⟨v, hnext hw hv.assignment_of_factor, hspelled.spelled⟩

/-- Rows between semicolons are read. -/
theorem exists_rows {rows : List (List (Expression F))} (hne : rows ≠ []) (hrows : ∀ row ∈ rows, row ≠ [])
    (hes : ∀ row ∈ rows, ∀ e ∈ row, Readable e.text.toList e) :
    ∃ w, Derives .rows w (.list rows) ∧ Lexeme.Spelled (textOfRows rows).toList w := by
  cases rows with
  | nil => exact absurd rfl hne
  | cons row rows =>
    have hsemicolon : Lexeme.ofPunctuation? ';' = some (Lexeme.semicolon : Lexeme F) := rfl
    refine exists_separated (L := fun w rows => Derives .rows w (.list rows)) textOfElems hsemicolon (by decide)
      textOfRows_singleton textOfRows_cons_cons ?_ fun row' hrow' w ys hw => ?_
    · refine exists_elements (L := fun w es => Derives .rows w (.list [es])) .row (fun {w es v e} hw hv => ?_)
        (hrows row (List.mem_cons_self ..)) (hes row (List.mem_cons_self ..))
      rw [← List.nil_append [es]] at hw
      exact .rowElement hw hv
    · have hmem := List.mem_cons_of_mem row hrow'
      refine exists_elements (L := fun v es => Derives .rows (w ++ .semicolon :: v) (.list (ys ++ [es]))) (.furtherRow hw)
        (fun {v es u e} hv hu => ?_) (hrows row' hmem) (hes row' hmem)
      have := Derives.rowElement hv hu
      simpa only [List.append_assoc, List.cons_append] using this

/-- The text of a well-formed expression with legible leaves is read as that expression, by induction on the expression. -/
theorem WellFormed.readable {e : Expression F} (h : WellFormed e) (hleaves : ∀ leaf ∈ e.leaves, Legible leaf) :
    Readable e.text.toList e := by
  induction h with
  | number x =>
    have hx : Legible (.number x) := hleaves _ (by simp [leaves])
    exact ⟨_, .number x, by rw [text]; exact hx⟩
  | string s =>
    have hs : Legible (F := F) (.string s) := hleaves _ (by simp [leaves])
    exact ⟨_, .string s, by rw [text]; exact hs⟩
  | boolean b => exact ⟨_, .boolean b, by rw [text]; exact Lexeme.operand_boolean b⟩
  | identifier name =>
    have hname : Legible (F := F) (.identifier name) := hleaves _ (by simp [leaves])
    exact ⟨_, .identifier name, by rw [text]; exact hname⟩
  | @list rows hrows _ ih =>
    have hes : ∀ row ∈ rows, ∀ e ∈ row, Readable e.text.toList e := fun row hrow e he =>
      ih row hrow e he fun leaf hleaf => hleaves leaf (mem_leavesOfRows.2 ⟨row, hrow, e, he, hleaf⟩)
    have htext : (text (.list rows)).toList = '[' :: ((textOfRows rows).toList ++ [']']) := by simp [text]
    rw [htext]
    cases rows with
    | nil => exact ⟨_, .emptyList .square, Lexeme.spelled_nil.enclose rfl rfl (by decide)⟩
    | cons row rows =>
      obtain ⟨w, hw, hspelled⟩ := exists_rows (List.cons_ne_nil _ _) hrows hes
      exact ⟨_, .list .square hw, hspelled.enclose rfl rfl (by decide)⟩
  | @sequence es hlength _ ih =>
    have hes : ∀ e ∈ es, Readable e.text.toList e := fun e he =>
      ih e he fun leaf hleaf => hleaves leaf (mem_leavesOfElems.2 ⟨e, he, hleaf⟩)
    have htext : (text (.sequence es)).toList = '(' :: ((textOfElems es).toList ++ [')']) := by simp [text]
    rw [htext]
    match es, hlength with
    | [], _ => exact ⟨_, .nothing, Lexeme.spelled_nil.enclose rfl rfl (by decide)⟩
    | e :: e' :: es, _ =>
      obtain ⟨w, hw, hspelled⟩ := exists_elements (L := fun w es => Derives .elements w (.sequence es)) .element
        (fun hw hv => .furtherElement hw (.inl rfl) hv) (List.cons_ne_nil _ _) hes
      exact ⟨_, .parenthesized (.several hw), hspelled.enclose rfl rfl (by decide)⟩
  | @unary op e _ ih =>
    obtain ⟨w, hw, hspelled⟩ := ih hleaves
    obtain ⟨hsymbol, hpoint⟩ := symbol_unary op
    have hunary := (Derives.unary (ofSymbol?_symbol op) hw.unary_of_factor).level_of_unary (Nat.zero_le _)
    have htext : (text (.unary op e)).toList = '(' :: (op.symbol.toList ++ e.text.toList ++ [')']) := by simp [text]
    rw [htext]
    exact ⟨_, (Derives.unassigned hunary).parenthesized_assignment,
      (hspelled.signed hsymbol hpoint).enclose rfl rfl (by decide)⟩
  | @binary op l r hop _ _ ihl ihr =>
    obtain ⟨v, hv, hl⟩ := ihl fun leaf hleaf => hleaves leaf (List.mem_append_left _ hleaf)
    obtain ⟨w, hw, hr⟩ := ihr fun leaf hleaf => hleaves leaf (List.mem_append_right _ hleaf)
    have htext : (text (.binary op l r)).toList =
        '(' :: (l.text.toList ++ ' ' :: (op.symbol.toList ++ ' ' :: r.text.toList) ++ [')']) := by simp [text]
    rw [htext]
    exact ⟨_, (Derives.binary_of_factor hop hv hw).parenthesized_assignment,
      (hl.spelled.space ((spelled_symbol op).space hr.spelled)).enclose rfl rfl (by decide)⟩
  | @juxtapose l r _ _ ihl ihr =>
    obtain ⟨v, hv, hl⟩ := ihl fun leaf hleaf => hleaves leaf (List.mem_append_left _ hleaf)
    obtain ⟨w, hw, hr⟩ := ihr fun leaf hleaf => hleaves leaf (List.mem_append_right _ hleaf)
    have hunary := (Derives.unsigned (.juxtapose (.alone (.base hv)) (.base hw))).level_of_unary (Nat.zero_le _)
    have htext : (text (.juxtapose l r)).toList = '(' :: (l.text.toList ++ ' ' :: r.text.toList ++ [')']) := by simp [text]
    rw [htext]
    exact ⟨_, (Derives.unassigned hunary).parenthesized_assignment,
      (hl.spelled.space hr.spelled).enclose rfl rfl (by decide)⟩
  | @assign name e _ ih =>
    have hname : Legible (F := F) (.identifier name) := hleaves _ (by simp [leaves])
    obtain ⟨w, hw, hvalue⟩ := ih fun leaf hleaf => hleaves leaf (List.mem_cons_of_mem _ hleaf)
    have hop : IsOperator OperatorTable.assignPrecedence "=" .assign := by
      unfold IsOperator
      decide
    have hleft := (Derives.identifier name (F := F)).unary_of_factor.level_of_unary (Nat.zero_le _)
    have hsign : Lexeme.Spelled (F := F) "=".toList [.operator "="] := spelled_symbol .assign
    have htext : (text (.assign name e)).toList = '(' :: (name.toList ++ ' ' :: ("=".toList ++ ' ' :: e.text.toList) ++ [')']) := by
      simp [text]
    rw [htext]
    exact ⟨_, (Derives.assign hleft hop hw.assignment_of_factor).parenthesized_assignment,
      (hname.spelled.space (hsign.space hvalue.spelled)).enclose rfl rfl (by decide)⟩

/-- A text of tokens that derive an expression is read as that expression. -/
theorem read_of_spelling {text : String} {w : List (Lexeme F)} {e : Expression F}
    (htext : Lexeme.Spelling text.toList w) (he : Derives .sequence w e) : read .common text = .ok e := by
  obtain ⟨tokens, htokens, rfl⟩ := htext.exists_scanFrom 0
  rw [read, Token.scanAll, htokens]
  exact (parse_common_eq_ok_iff tokens e).2 he

/-- What was read from a text is read from its own text if its numbers are, given that they were read before, and if its strings have
simple escapes only. -/
theorem read_text_of_legible {text : String} {e : Expression F} (h : read .common text = .ok e)
    (hnumbers : ∀ x, .number x ∈ e.leaves →
      (∃ c cs more, Lexeme.scan .common c cs = .ok (.number x, more)) → Legible (.number x))
    (hstrings : ∀ s, .string s ∈ e.leaves → ∀ c ∈ s.toList, Text.EscapesSimply c) : read .common e.text = .ok e := by
  unfold read at h
  split at h
  · cases h
  rename_i tokens htokens
  have hspelling := Lexeme.spelling_of_scanFrom htokens
  have hderives := (parse_common_eq_ok_iff tokens e).1 h
  have hleaves : ∀ leaf ∈ e.leaves, Legible leaf := by
    intro leaf hleaf
    obtain ⟨c, cs, more, hblank, hscan⟩ := hspelling.exists_scan_of_mem (hderives.mem_of_mem_leaves hleaf)
    cases leaf with
    | number x => exact hnumbers x hleaf ⟨c, cs, more, hscan⟩
    | string s => exact Lexeme.operand_string (hstrings s hleaf)
    | identifier name => exact Lexeme.operand_identifier hblank hscan
    | boolean | operator | leftParen | rightParen | leftBracket | rightBracket | comma | semicolon => trivial
  obtain ⟨w, hw, hoperand⟩ := WellFormed.readable hderives.wellFormed hleaves
  exact read_of_spelling hoperand.spelled.spelling (.single (.element hw.assignment_of_factor))

end QuantityCalculus.Expression
