import QuantityCalculus.Expression
import QuantityCalculus.Token.Scan

/-!
# Parsing expressions

From the loosest to the tightest: sequences, assignments, the levels of the operator table, conversions, bindings, prefix
operators, juxtaposition, exponents, and factors. Every level is a chain of operands of the next tighter one with operators
between them, so a level is made from the parser of its operands (`chain`), and the operands are grouped afterwards by a
function on the finished chain. Only brackets and assignments lead back to the loosest level.
-/

namespace QuantityCalculus

/-- What a parser would have accepted instead of what it met. -/
inductive Expected where
  | expression
  | closingParen
  | listContinuation (b : Bracket)
  | endOfInput
  deriving DecidableEq, Repr

/-- The words for what was expected. -/
def Expected.text : Expected → String
  | .expression => "an expression"
  | .closingParen => "')'"
  | .listContinuation b => "',', ';' or '" ++ b.closing ++ "'"
  | .endOfInput => "end of input"

/-- Why tokens are not an expression. -/
inductive ParseError (F : Type) where
  | unexpected (found : Token F) (expected : Expected)
  | unexpectedEnd (expected : Expected)
  | invalidAssignment (span : Span)
  | lex (error : LexError)
  deriving Repr

/-- The text of a parsing error. -/
def ParseError.message {F : Type} [Numeric F] : ParseError F → String
  | .unexpected found expected =>
    "Unexpected '" ++ found.lexeme.text ++ "' at " ++ found.span.text ++ ", expected " ++ expected.text
  | .unexpectedEnd expected => "Unexpected end of input, expected " ++ expected.text
  | .invalidAssignment span => "Only a bare identifier can be assigned to (at " ++ span.text ++ ")"
  | .lex error => error.message

namespace Expression

variable {F : Type}

/-- A parser reads something at the start of a list of tokens and answers it with the tokens that follow. -/
abbrev Parser (F α : Type) := List (Token F) → Except (ParseError F) (α × List (Token F))

/-- The error of a parser at the first token that it cannot accept. -/
def unexpected {α : Type} (expected : Expected) : List (Token F) → Except (ParseError F) α
  | [] => .error (.unexpectedEnd expected)
  | t :: _ => .error (.unexpected t expected)

/-- A separator at the start of the tokens, as something that a lexeme may stand for. -/
def separator? {β : Type} (isSeparator : Lexeme F → Option β) : List (Token F) → Option (β × List (Token F))
  | [] => none
  | t :: rest => (isSeparator t.lexeme).map (·, rest)

/-- The separators and operands that continue a chain. There are no more of them than there are tokens. -/
def chainRest {α β : Type} (isSeparator : Lexeme F → Option β) (operand : Parser F α) :
    Nat → Parser F (List (β × α))
  | 0, tokens => .ok ([], tokens)
  | fuel + 1, tokens =>
    match separator? isSeparator tokens with
    | none => .ok ([], tokens)
    | some (separator, rest) =>
      match operand rest with
      | .error e => .error e
      | .ok (x, rest) =>
        match chainRest isSeparator operand fuel rest with
        | .error e => .error e
        | .ok (links, rest) => .ok ((separator, x) :: links, rest)

/-- An operand, and separators with further operands after it as long as there are separators. -/
def chain {α β γ : Type} (first : Parser F α) (isSeparator : Lexeme F → Option β) (operand : Parser F γ) :
    Parser F (α × List (β × γ)) := fun tokens =>
  match first tokens with
  | .error e => .error e
  | .ok (x, rest) =>
    match chainRest isSeparator operand rest.length rest with
    | .error e => .error e
    | .ok (links, rest) => .ok ((x, links), rest)

/-- What a parser reads, changed by a function. -/
def Parser.map {α β : Type} (f : α → β) (p : Parser F α) : Parser F β := fun tokens =>
  match p tokens with
  | .error e => .error e
  | .ok (x, rest) => .ok (f x, rest)

/-- The operator of a precedence that a lexeme is. -/
def operatorAt (table : OperatorTable) (precedence : Nat) : Lexeme F → Option Operator
  | .operator symbol => (table.get? symbol).filter (·.precedence == precedence)
  | _ => none

/-- The prefix operator that a lexeme is. -/
def signOf : Lexeme F → Option UnaryOp
  | .operator symbol => UnaryOp.ofSymbol? symbol
  | _ => none

/-- The prefix operators at the start of the tokens, with the tokens after them. -/
def splitSigns : List (Token F) → List UnaryOp × List (Token F)
  | [] => ([], [])
  | t :: rest =>
    match signOf t.lexeme with
    | none => ([], t :: rest)
    | some op => (op :: (splitSigns rest).1, (splitSigns rest).2)

/-- An expression under prefix operators, the last of which is the innermost. -/
def applySigns (signs : List UnaryOp) (e : Expression F) : Expression F :=
  signs.foldr .unary e

/-- Prefix operators and what they are applied to. -/
def signed (operand : Parser F (Expression F)) : Parser F (List UnaryOp × Expression F) := fun tokens =>
  Parser.map ((splitSigns tokens).1, ·) operand (splitSigns tokens).2

/-- The tree of a chain of operators with signs before the later operands: a right-associative operator takes all that follows as
its right operand, under the signs. -/
def groupSigned : Expression F → List (Operator × List UnaryOp × Expression F) → Expression F
  | left, [] => left
  | left, (o, signs, right) :: links =>
    match o.associativity with
    | .left => groupSigned (.binary o.op left (applySigns signs right)) links
    | .right => .binary o.op left (applySigns signs (groupSigned right links))

/-- The tree of a chain of operators, each of which groups as it says. -/
def group : Expression F → List (Operator × Expression F) → Expression F
  | left, [] => left
  | left, (o, right) :: links =>
    match o.associativity with
    | .left => group (.binary o.op left right) links
    | .right => .binary o.op left (group right links)

/-- The tree of a chain of operators that groups to the left whatever the operators say. -/
def groupLeft (first : Expression F) (links : List (Operator × Expression F)) : Expression F :=
  links.foldl (fun left (o, right) => .binary o.op left right) first

/-- Whether a lexeme starts a factor. -/
def startsFactor : Lexeme F → Bool
  | .number _ | .string _ | .boolean _ | .identifier _ | .leftParen | .leftBracket _ => true
  | _ => false

/-- A comma or a semicolon; the latter is marked by `true`. -/
def separatorOf : Lexeme F → Option Bool
  | .comma => some false
  | .semicolon => some true
  | _ => none

/-- The tree of expressions with separators between them; a single one stands for itself. -/
def ofSequence : Expression F × List (Bool × Expression F) → Expression F
  | (e, []) => e
  | (e, links) => .sequence (e :: links.map (·.2))

/-- Expressions with separators between them. -/
def sequenceOf (element : Parser F (Expression F)) : Parser F (Expression F) :=
  Parser.map ofSequence (chain element separatorOf element)

/-- The rows of a list: a semicolon starts another row. -/
def rowsOf : Expression F → List (Bool × Expression F) → List (List (Expression F))
  | e, [] => [[e]]
  | e, (true, e') :: links => [e] :: rowsOf e' links
  | e, (false, e') :: links =>
    match rowsOf e' links with
    | [] => [[e]]
    | row :: rows => (e :: row) :: rows

/-- What follows an opening parenthesis: a sequence, which may be empty, and the closing one. -/
def parenthesized (element : Parser F (Expression F)) : Parser F (Expression F)
  | ⟨.rightParen, _⟩ :: rest => .ok (.sequence [], rest)
  | tokens =>
    match sequenceOf element tokens with
    | .error e => .error e
    | .ok (e, ⟨.rightParen, _⟩ :: rest) => .ok (e, rest)
    | .ok (_, rest) => unexpected .closingParen rest

/-- The tokens after a closing bracket, if that is next. -/
def closing? (bracket : Bracket) : List (Token F) → Option (List (Token F))
  | ⟨.rightBracket b, _⟩ :: rest => if b = bracket then some rest else none
  | _ => none

/-- What follows an opening bracket: rows of expressions, or nothing, and the closing one. -/
def bracketed (element : Parser F (Expression F)) (bracket : Bracket) : Parser F (Expression F) := fun tokens =>
  match closing? bracket tokens with
  | some rest => .ok (.list [], rest)
  | none =>
    match chain element separatorOf element tokens with
    | .error e => .error e
    | .ok ((first, links), rest) =>
      match closing? bracket rest with
      | some rest => .ok (.list (rowsOf first links), rest)
      | none => unexpected (.listContinuation bracket) rest

/-- A literal, a name, a parenthesis or a list, given the parser of the elements of the latter two. -/
def factor (element : Parser F (Expression F)) : Parser F (Expression F)
  | [] => .error (.unexpectedEnd .expression)
  | t :: rest =>
    match t.lexeme with
    | .number x => .ok (.number x, rest)
    | .string s => .ok (.string s, rest)
    | .boolean b => .ok (.boolean b, rest)
    | .identifier name => .ok (.identifier name, rest)
    | .leftParen => parenthesized element rest
    | .leftBracket bracket => bracketed element bracket rest
    | _ => .error (.unexpected t .expression)

/-- Factors with exponent operators between them. -/
def exponent (table : OperatorTable) (element : Parser F (Expression F)) : Parser F (Expression F) :=
  Parser.map (fun (first, links) => groupSigned first links)
    (chain (factor element) (operatorAt table OperatorTable.exponentPrecedence) (signed (factor element)))

/-- The further expressions of a juxtaposition. There are no more of them than there are tokens. -/
def juxtaposedRest (operand : Parser F (Expression F)) : Nat → Parser F (List (Expression F))
  | 0, tokens => .ok ([], tokens)
  | fuel + 1, tokens =>
    if tokens.head?.any fun t => startsFactor t.lexeme then
      match operand tokens with
      | .error e => .error e
      | .ok (x, rest) =>
        match juxtaposedRest operand fuel rest with
        | .error e => .error e
        | .ok (xs, rest) => .ok (x :: xs, rest)
    else .ok ([], tokens)

/-- Expressions one after another without an operator. -/
def juxtaposition (operand : Parser F (Expression F)) : Parser F (Expression F) := fun tokens =>
  match operand tokens with
  | .error e => .error e
  | .ok (x, rest) =>
    match juxtaposedRest operand rest.length rest with
    | .error e => .error e
    | .ok (xs, rest) => .ok (xs.foldl .juxtapose x, rest)

/-- A juxtaposition under prefix operators. -/
def prefixed (table : OperatorTable) (element : Parser F (Expression F)) : Parser F (Expression F) :=
  Parser.map (fun (signs, e) => applySigns signs e) (signed (juxtaposition (exponent table element)))

/-- Operands with operators of one precedence between them, which group to the left. -/
def leftLevel (table : OperatorTable) (precedence : Nat) (operand : Parser F (Expression F)) :
    Parser F (Expression F) :=
  Parser.map (fun (first, links) => groupLeft first links) (chain operand (operatorAt table precedence) operand)

/-- Operands with operators of one precedence between them, which group as the operators say. -/
def level (table : OperatorTable) (precedence : Nat) (operand : Parser F (Expression F)) :
    Parser F (Expression F) :=
  Parser.map (fun (first, links) => group first links) (chain operand (operatorAt table precedence) operand)

/-- Conversions of bindings. -/
def conversion (table : OperatorTable) (element : Parser F (Expression F)) : Parser F (Expression F) :=
  leftLevel table OperatorTable.convertPrecedence
    (leftLevel table OperatorTable.atPrecedence (prefixed table element))

/-- The levels of the operator table, the loosest first, around conversions. -/
def levels (table : OperatorTable) (element : Parser F (Expression F)) : Parser F (Expression F) :=
  table.binaryLevels.foldr (level table) (conversion table element)

/-- The span of the tokens before a rest of them. -/
def spanBefore (tokens rest : List (Token F)) : Span :=
  match tokens.take (tokens.length - rest.length) with
  | [] => (tokens.head?.map (·.span)).getD ⟨0, 0⟩
  | first :: more => first.span.merge ((more.getLast?.getD first).span)

/-- An expression, or a name, the sign of an assignment and an element. -/
def assignment (table : OperatorTable) (element : Parser F (Expression F)) : Parser F (Expression F) := fun tokens =>
  match levels table element tokens with
  | .error e => .error e
  | .ok (left, rest) =>
    match separator? (operatorAt table OperatorTable.assignPrecedence) rest with
    | none => .ok (left, rest)
    | some (_, after) =>
      match left with
      | .identifier name => Parser.map (.assign name) element after
      | _ => .error (.invalidAssignment (spanBefore tokens rest))

/-- The parser of elements, which may be assignments, nested at most so deep. Brackets and assignments take a token for each step
into the depth. -/
def element (table : OperatorTable) : Nat → Parser F (Expression F)
  | 0 => unexpected .expression
  | depth + 1 => assignment table (element table depth)

/-- The expression that a list of tokens is. -/
def parse (table : OperatorTable) (tokens : List (Token F)) : Except (ParseError F) (Expression F) :=
  match sequenceOf (element table (tokens.length + 1)) tokens with
  | .error e => .error e
  | .ok (e, []) => .ok e
  | .ok (_, t :: _) => .error (.unexpected t .endOfInput)

/-- The expression that a list of tokens of the language is. -/
def ofTokens (tokens : List (Token F)) : Except (ParseError F) (Expression F) :=
  parse .common tokens

/-- The expression that a text is, by a table of operators. -/
def read [Numeric F] (table : OperatorTable) (text : String) : Except (ParseError F) (Expression F) :=
  match Token.scanAll table text with
  | .error e => .error (.lex e)
  | .ok tokens => parse table tokens

end Expression

end QuantityCalculus
