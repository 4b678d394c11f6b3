import QuantityCalculus.Token

/-!
# Expressions

The tree of an expression, and its text with every operation in parentheses, which is read back as the same tree.
-/

namespace QuantityCalculus

/-- An expression. -/
inductive Expression (F : Type) where
  | number (x : F)
  | string (text : String)
  | boolean (b : Bool)
  | identifier (name : String)
  /-- Rows between brackets; several of them make a matrix. -/
  | list (rows : List (List (Expression F)))
  /-- Expressions one after another, the last of which is the value, or the arguments of a call. -/
  | sequence (elems : List (Expression F))
  | unary (op : UnaryOp) (operand : Expression F)
  | binary (op : BinaryOp) (left right : Expression F)
  /-- Two expressions without an operator between them: a product, or a function and its arguments. -/
  | juxtapose (left right : Expression F)
  | assign (name : String) (value : Expression F)
  deriving Repr

namespace Expression

variable {F : Type} [Numeric F]

mutual

/-- The text of an expression. -/
def text : Expression F → String
  | .number x => Numeric.text x
  | .string s => Text.quoted s
  | .boolean b => truthText b
  | .identifier name => name
  | .list rows => "[" ++ textOfRows rows ++ "]"
  | .sequence elems => "(" ++ textOfElems elems ++ ")"
  | .unary op operand => "(" ++ op.symbol ++ operand.text ++ ")"
  | .binary op left right => "(" ++ left.text ++ " " ++ op.symbol ++ " " ++ right.text ++ ")"
  | .juxtapose left right => "(" ++ left.text ++ " " ++ right.text ++ ")"
  | .assign name value => "(" ++ name ++ " = " ++ value.text ++ ")"

/-- The text of expressions with commas between them. -/
def textOfElems : List (Expression F) → String
  | [] => ""
  | [e] => e.text
  | e :: es => e.text ++ ", " ++ textOfElems es

/-- The text of rows with semicolons between them. -/
def textOfRows : List (List (Expression F)) → String
  | [] => ""
  | [row] => textOfElems row
  | row :: rows => textOfElems row ++ "; " ++ textOfRows rows

end

end Expression

end QuantityCalculus
