import QuantityCalculus.Numeric
import QuantityCalculus.Operator
import QuantityCalculus.Span
import QuantityCalculus.Text.Quoted

/-!
# Tokens of the expression language
-/

namespace QuantityCalculus

/-- The two kinds of bracket around a list. -/
inductive Bracket where
  | square | curly
  deriving DecidableEq, Repr

/-- The bracket that opens a list. -/
def Bracket.opening : Bracket → String
  | .square => "["
  | .curly => "\x7b"

/-- The bracket that closes a list. -/
def Bracket.closing : Bracket → String
  | .square => "]"
  | .curly => "\x7d"

/-- What a token stands for. An operator has its symbol, which may be a word. -/
inductive Lexeme (F : Type) where
  | number (x : F)
  | string (text : String)
  | boolean (b : Bool)
  | identifier (name : String)
  | operator (symbol : String)
  | leftParen
  | rightParen
  | leftBracket (b : Bracket)
  | rightBracket (b : Bracket)
  | comma
  | semicolon
  deriving Repr

/-- The words for the two truth values. -/
def truthText (b : Bool) : String := if b then "true" else "false"

/-- How a lexeme is shown. -/
def Lexeme.text {F : Type} [Numeric F] : Lexeme F → String
  | .number x => Numeric.text x
  | .string s => Text.quoted s
  | .boolean b => truthText b
  | .identifier name => name
  | .operator symbol => symbol
  | .leftParen => "("
  | .rightParen => ")"
  | .leftBracket b => b.opening
  | .rightBracket b => b.closing
  | .comma => ","
  | .semicolon => ";"

/-- A lexeme and where it stands in the text. -/
structure Token (F : Type) where
  lexeme : Lexeme F
  span : Span
  deriving Repr

end QuantityCalculus
