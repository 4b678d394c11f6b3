import QuantityCalculus.Expression.Parse

/-!
# The grammar of expressions

Which lists of lexemes are expressions by the common table of operators, and which tree each of them is: `Derives`. The grammar says
nothing of lookahead or of the order in which alternatives are tried. Chains that group to the left are left-recursive rules,
and chains that group to the right are right-recursive ones, so that the shape of a tree is the shape of its derivation.
-/

namespace QuantityCalculus.Expression

variable {F : Type}

/-- The kinds of phrase, the loosest first. What stands between parentheses is `elements`, and what stands between brackets
is `rows`. -/
inductive Phrase where
  | sequence | elements | rows | assignment
  /-- Chains of left-associative operators: eleven levels of the table, then conversions, then bindings of a variable. -/
  | level (index : Nat)
  | unary | juxtaposition | exponent
  /-- What stands to the right of an exponent operator: an exponent under signs of its own. -/
  | signed
  | factor
  deriving DecidableEq, Repr

/-- The precedences of the levels, the loosest first. -/
def levelPrecedences : List Nat :=
  [50, 60, 70, 80, 90, 100, 110, 120, 130, 140, 150] ++ [OperatorTable.convertPrecedence, OperatorTable.atPrecedence]

/-- The symbol stands for the operation at a precedence of the common table. -/
def IsOperator (precedence : Nat) (symbol : String) (op : BinaryOp) : Prop :=
  ∃ o ∈ OperatorTable.common.operators, o.symbol = symbol ∧ o.precedence = precedence ∧ o.op = op

/-- The lexemes are a phrase of a kind with a tree. The tree of `elements` is a sequence also where there is only one of them, and
the tree of `rows` is a list. -/
inductive Derives : Phrase → List (Lexeme F) → Expression F → Prop
  | single {w e} : Derives .elements w (.sequence [e]) → Derives .sequence w e
  | several {w e e' es} : Derives .elements w (.sequence (e :: e' :: es)) →
      Derives .sequence w (.sequence (e :: e' :: es))
  | element {w e} : Derives .assignment w e → Derives .elements w (.sequence [e])
  | furtherElement {w s v es e} : Derives .elements w (.sequence es) → s = .comma ∨ s = .semicolon →
      Derives .assignment v e → Derives .elements (w ++ s :: v) (.sequence (es ++ [e]))
  | row {w e} : Derives .assignment w e → Derives .rows w (.list [[e]])
  | rowElement {w v rows row e} : Derives .rows w (.list (rows ++ [row])) → Derives .assignment v e →
      Derives .rows (w ++ .comma :: v) (.list (rows ++ [row ++ [e]]))
  | furtherRow {w v rows e} : Derives .rows w (.list rows) → Derives .assignment v e →
      Derives .rows (w ++ .semicolon :: v) (.list (rows ++ [[e]]))
  | unassigned {w e} : Derives (.level 0) w e → Derives .assignment w e
  | assign {w name s v e} : Derives (.level 0) w (.identifier name) →
      IsOperator OperatorTable.assignPrecedence s .assign → Derives .assignment v e →
      Derives .assignment (w ++ .operator s :: v) (.assign name e)
  | tighter {i w e} : i < levelPrecedences.length → Derives (.level (i + 1)) w e → Derives (.level i) w e
  | binary {i p w l s op v r} : levelPrecedences[i]? = some p → Derives (.level i) w l → IsOperator p s op →
      Derives (.level (i + 1)) v r → Derives (.level i) (w ++ .operator s :: v) (.binary op l r)
  | tightest {w e} : Derives .unary w e → Derives (.level levelPrecedences.length) w e
  | unsigned {w e} : Derives .juxtaposition w e → Derives .unary w e
  | unary {s op w e} : UnaryOp.ofSymbol? s = some op → Derives .unary w e →
      Derives .unary (.operator s :: w) (.unary op e)
  | alone {w e} : Derives .exponent w e → Derives .juxtaposition w e
  | juxtapose {w l v r} : Derives .juxtaposition w l → Derives .exponent v r →
      Derives .juxtaposition (w ++ v) (.juxtapose l r)
  | base {w e} : Derives .factor w e → Derives .exponent w e
  | power {w l s op v r} : Derives .factor w l → IsOperator OperatorTable.exponentPrecedence s op →
      Derives .signed v r → Derives .exponent (w ++ .operator s :: v) (.binary op l r)
  | signless {w e} : Derives .exponent w e → Derives .signed w e
  | sign {s op w e} : UnaryOp.ofSymbol? s = some op → Derives .signed w e →
      Derives .signed (.operator s :: w) (.unary op e)
  | number (x) : Derives .factor [.number x] (.number x)
  | string (s) : Derives .factor [.string s] (.string s)
  | boolean (b) : Derives .factor [.boolean b] (.boolean b)
  | identifier (name) : Derives .factor [.identifier name] (.identifier name)
  | nothing : Derives .factor [.leftParen, .rightParen] (.sequence [])
  | parenthesized {w e} : Derives .sequence w e → Derives .factor (.leftParen :: w ++ [.rightParen]) e
  | emptyList (b) : Derives .factor [.leftBracket b, .rightBracket b] (.list [])
  | list {w rows} (b) : Derives .rows w (.list rows) →
      Derives .factor (.leftBracket b :: w ++ [.rightBracket b]) (.list rows)

namespace Phrase

/-- The kinds of phrase that start with a factor. -/
def StartsTightly : Phrase → Prop
  | .juxtaposition | .exponent | .factor => True
  | _ => False

end Phrase

/-! ## The first lexeme of a phrase -/

/-- A lexeme that starts a factor is not a prefix operator. -/
theorem signOf_of_startsFactor {lexeme : Lexeme F} (h : startsFactor lexeme = true) : signOf lexeme = none := by
  cases lexeme <;> simp [startsFactor, signOf] at h ⊢

/-- A phrase starts with a factor or with a prefix operator, and the tight kinds start with a factor. -/
theorem Derives.exists_head {p : Phrase} {w : List (Lexeme F)} {e : Expression F} (h : Derives p w e) :
    ∃ lexeme v, w = lexeme :: v ∧
      (startsFactor lexeme = true ∨ ¬p.StartsTightly ∧ (signOf lexeme).isSome = true) := by
  induction h with
  | number | string | boolean | identifier | nothing | emptyList => exact ⟨_, _, rfl, .inl rfl⟩
  | parenthesized | list => exact ⟨_, _, rfl, .inl rfl⟩
  | unary hs _ _ | sign hs _ _ => exact ⟨_, _, rfl, .inr ⟨id, by simp [signOf, hs]⟩⟩
  | alone _ ih | base _ ih => exact ih
  | single _ ih | several _ ih | element _ ih | row _ ih | unassigned _ ih | tighter _ _ ih | tightest _ ih
  | unsigned _ ih | signless _ ih =>
    obtain ⟨lexeme, v, rfl, h | ⟨-, h⟩⟩ := ih
    · exact ⟨_, _, rfl, .inl h⟩
    · exact ⟨_, _, rfl, .inr ⟨id, h⟩⟩
  | furtherElement _ _ _ ih | rowElement _ _ ih | furtherRow _ _ ih | assign _ _ _ ih | binary _ _ _ _ ih
  | juxtapose _ _ ih | power _ _ _ ih =>
    obtain ⟨lexeme, v, rfl, h⟩ := ih
    exact ⟨lexeme, _, rfl, h⟩

/-- A phrase of a tight kind starts with a factor. -/
theorem Derives.exists_head_of_startsTightly {p : Phrase} {w : List (Lexeme F)} {e : Expression F} (h : Derives p w e)
    (hp : p.StartsTightly) : ∃ lexeme v, w = lexeme :: v ∧ startsFactor lexeme = true := by
  obtain ⟨lexeme, v, rfl, h | h⟩ := h.exists_head
  · exact ⟨lexeme, v, rfl, h⟩
  · exact absurd hp h.1

/-- A lexeme that closes something starts no phrase. -/
theorem Derives.ne_closing {p : Phrase} {lexeme : Lexeme F} {v : List (Lexeme F)} {e : Expression F}
    (h : Derives p (lexeme :: v) e) : lexeme ≠ .rightParen ∧ ∀ b, lexeme ≠ .rightBracket b := by
  obtain ⟨lexeme', v', hw, h⟩ := h.exists_head
  obtain ⟨rfl, rfl⟩ := List.cons.inj hw
  constructor
  · rintro rfl
    simp [startsFactor, signOf] at h
  · rintro b rfl
    simp [startsFactor, signOf] at h

end QuantityCalculus.Expression
