import QuantityCalculus.Text.Alphabetic

/-!
# Operators of the expression language

A binary operator is a symbol for one of the binary operations, with a precedence and an associativity; several symbols may
stand for one operation. The table of operators decides what the lexer reads as an operator and how the parser groups. Unary
operators have fixed symbols, some of which are also symbols of binary ones.
-/

namespace QuantityCalculus

/-- The operations on two operands. `decimalScale` and `binaryScale` multiply by a power of ten and of two, or attach the prefix
of that power to a unit; `root` takes its degree on the left. -/
inductive BinaryOp where
  | power | decimalScale | binaryScale | root | at | convert
  | mul | div | mod | intDiv | add | sub | shiftLeft | shiftRight | bitAnd | bitXor | bitOr | concat
  | lt | le | gt | ge | eq | ne | and | or | xor | assign
  deriving DecidableEq, Repr

/-- The canonical symbol of a binary operation. -/
def BinaryOp.symbol : BinaryOp → String
  | .power => "^" | .decimalScale => "_" | .binaryScale => "↓" | .root => "√" | .at => "@" | .convert => "to"
  | .mul => "*" | .div => "/" | .mod => "%" | .intDiv => "//" | .add => "+" | .sub => "-"
  | .shiftLeft => "<<" | .shiftRight => ">>" | .bitAnd => "&" | .bitXor => "⊕" | .bitOr => "|" | .concat => "."
  | .lt => "<" | .le => "<=" | .gt => ">" | .ge => ">=" | .eq => "==" | .ne => "!="
  | .and => "&&" | .or => "||" | .xor => "^^" | .assign => "="

/-- The operations on one operand. -/
inductive UnaryOp where
  | plus | neg | bitNot | not | sqrt | cbrt | fourthRoot
  deriving DecidableEq, Repr

/-- The canonical symbol of a unary operation. -/
def UnaryOp.symbol : UnaryOp → String
  | .plus => "+" | .neg => "-" | .bitNot => "~" | .not => "!" | .sqrt => "√" | .cbrt => "∛" | .fourthRoot => "∜"

/-- Every symbol of a unary operation. -/
def UnaryOp.symbols : List String :=
  ["+", "-", "−", "~", "!", "¬", "√", "∛", "∜"]

/-- The unary operation that a symbol stands for. -/
def UnaryOp.ofSymbol? : String → Option UnaryOp
  | "+" => some .plus
  | "-" | "−" => some .neg
  | "~" => some .bitNot
  | "!" | "¬" => some .not
  | "√" => some .sqrt
  | "∛" => some .cbrt
  | "∜" => some .fourthRoot
  | _ => none

/-- The side to which a chain of operators groups. -/
inductive Associativity where
  | left | right
  deriving DecidableEq, Repr

/-- The other side. -/
def Associativity.reverse : Associativity → Associativity
  | .left => .right
  | .right => .left

/-- A symbol for a binary operation; a larger precedence binds more tightly. -/
structure Operator where
  symbol : String
  op : BinaryOp
  associativity : Associativity
  precedence : Nat
  deriving DecidableEq, Repr

/-- An operator spelled with alphabetic characters is read as a word. -/
def Operator.isWord (o : Operator) : Bool :=
  o.symbol.toList.all Text.isAlphabetic

/-- Binary operators, of which a symbol has at most one. -/
structure OperatorTable where
  operators : List Operator
  deriving DecidableEq, Repr

namespace OperatorTable

/-- The precedence of exponents. -/
def exponentPrecedence : Nat := 200

/-- The precedence of the binding of a variable. -/
def atPrecedence : Nat := 170

/-- The precedence of conversions. -/
def convertPrecedence : Nat := 160

/-- The precedence of assignments. -/
def assignPrecedence : Nat := 40

/-- The operator that a symbol stands for. -/
def get? (t : OperatorTable) (symbol : String) : Option Operator :=
  t.operators.find? (·.symbol == symbol)

/-- The table with an operator in the place of the one that had its symbol. -/
def insert (t : OperatorTable) (o : Operator) : OperatorTable :=
  ⟨t.operators.filter (·.symbol != o.symbol) ++ [o]⟩

/-- The operators of one precedence. -/
def group (precedence : Nat) (associativity : Associativity) (ops : List (String × BinaryOp)) : List Operator :=
  ops.map fun (symbol, op) => ⟨symbol, op, associativity, precedence⟩

/-- The operators of the language. -/
def common : OperatorTable :=
  ⟨[group 200 .right
      [("**", .power), ("^", .power), ("↑", .power), ("_", .decimalScale), ("↓", .binaryScale), ("√", .root)],
    group 170 .left [("@", .at), ("at", .at)],
    group 160 .left [("=>", .convert), ("->", .convert), ("→", .convert), ("in", .convert), ("to", .convert)],
    group 150 .left
      [("*", .mul), ("/", .div), ("%", .mod), ("×", .mul), ("÷", .div), ("//", .intDiv), ("·", .mul)],
    group 140 .left [("+", .add), ("-", .sub), ("−", .sub)],
    group 130 .left [("<<", .shiftLeft), (">>", .shiftRight)],
    group 120 .left [("&", .bitAnd)],
    group 110 .left [("⊕", .bitXor)],
    group 100 .left [("|", .bitOr)],
    group 90 .left [(".", .concat), ("..", .concat)],
    group 80 .left [("<", .lt), ("<=", .le), (">", .gt), (">=", .ge), ("≤", .le), ("≥", .ge)],
    group 70 .left [("==", .eq), ("!=", .ne), ("≠", .ne), ("<>", .ne)],
    group 60 .left [("&&", .and), ("∧", .and)],
    group 50 .left [("||", .or), ("∨", .or), ("^^", .xor), ("⊻", .xor)],
    group 40 .right [("=", .assign)]].flatten⟩

/-- The table in which every operator for the operation of one of the symbols has the other associativity. A symbol that the table
does not have changes nothing. -/
def reverse (t : OperatorTable) (symbols : List String) : OperatorTable :=
  let ops := symbols.filterMap fun s => (t.get? s).map (·.op)
  ⟨t.operators.map fun o =>
    if ops.contains o.op then { o with associativity := o.associativity.reverse } else o⟩

/-- A number in its place in an increasing list, unless the list has it. -/
def insertIncreasing (n : Nat) : List Nat → List Nat
  | [] => [n]
  | m :: ms => if n < m then n :: m :: ms else if n == m then m :: ms else m :: insertIncreasing n ms

/-- The precedences between assignment and conversion, loosest first and each once. -/
def binaryLevels (t : OperatorTable) : List Nat :=
  ((t.operators.map (·.precedence)).filter fun p => assignPrecedence < p && p < convertPrecedence).foldr
    insertIncreasing []

end OperatorTable

end QuantityCalculus
