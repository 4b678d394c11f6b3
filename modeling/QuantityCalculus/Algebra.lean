import QuantityCalculus.Algebra.Arithmetic
import QuantityCalculus.Algebra.Comparison

/-!
# Operations of the expression language

What each operator does to its operands.
-/

namespace QuantityCalculus.Algebra

variable {F : Type} [Numeric F] (c : Catalog F)

/-- A text as it is, and any other value by its text. -/
def textOf : Value F → String
  | .string s => s
  | a => a.text c.language

/-- Two arrays after one another, or the texts of two values if one of them is a text. -/
def concat (a b : Value F) : Outcome (Value F) :=
  match a, b with
  | .array xs, .array ys => .ok (.array (xs ++ ys))
  | .string s, b => .ok (.string (s ++ textOf c b))
  | a, .string t => .ok (.string (textOf c a ++ t))
  | a, b => .error (typeMismatch c BinaryOp.concat.symbol a b)

/-- An operation on truth values. -/
def logical (op : BinaryOp) (f : Bool → Bool → Bool) : Value F → Value F → Outcome (Value F)
  | .boolean p, .boolean q => .ok (.boolean (f p q))
  | a, b => .error (typeMismatch c op.symbol a b)

/-- The negation of a truth value, element by element. -/
def logicalNot : Value F → Outcome (Value F) :=
  mapElements fun
    | .boolean p => .ok (.boolean !p)
    | a => .error (unaryTypeMismatch c UnaryOp.not.symbol a)

/-- An operation on two integers, element by element. -/
def onIntegers (op : BinaryOp) (f : Int → Int → Int) : Value F → Value F → Outcome (Value F) :=
  onNumbers c op fun x y => do
    let i ← toInteger op.symbol x
    let j ← toInteger op.symbol y
    return Numeric.ofInt (f i j)

/-- The remainder of the division towards negative infinity. -/
def modulo (x y : F) : F := x - y * Numeric.floor (x / y)

/-- An operation on two values. Assignments are not operations on values. -/
def binary (op : BinaryOp) (a b : Value F) : Outcome (Value F) :=
  match op with
  | .power => pow c a b
  | .decimalScale => scale c op 10 a b
  | .binaryScale => scale c op 2 a b
  | .root => root c a b
  | .at => bind c a b
  | .convert =>
    match b with
    | .unit target => convert c a target none
    | _ => .error (typeMismatch c op.symbol a b)
  | .mul => mul c a b
  | .div => div c a b
  | .mod => onNumbers c op (fun x y => .ok (modulo x y)) a b
  | .intDiv => onNumbers c op (fun x y => .ok (Numeric.floor (x / y))) a b
  | .add => add c a b
  | .sub => sub c a b
  | .shiftLeft => onIntegers c op shiftLeft a b
  | .shiftRight => onIntegers c op shiftRight a b
  | .bitAnd => onIntegers c op (onBits (· &&& ·)) a b
  | .bitXor => onIntegers c op (onBits (· ^^^ ·)) a b
  | .bitOr => onIntegers c op (onBits (· ||| ·)) a b
  | .concat => concat c a b
  | .lt => compareValues c op Ordering.isLT a b
  | .le => compareValues c op Ordering.isLE a b
  | .gt => compareValues c op Ordering.isGT a b
  | .ge => compareValues c op Ordering.isGE a b
  | .eq => (equals c a b).map .boolean
  | .ne => (equals c a b).map fun equal => .boolean !equal
  | .and => logical c op and a b
  | .or => logical c op or a b
  | .xor => logical c op xor a b
  | .assign => .error (typeMismatch c op.symbol a b)

/-- A number, an array or a quantity as it is. -/
def plus : Value F → Outcome (Value F)
  | .number x => .ok (.number x)
  | .array elems => .ok (.array elems)
  | .quantity q => .ok (.quantity q)
  | a => .error (unaryTypeMismatch c UnaryOp.plus.symbol a)

/-- An operation on one value. -/
def unary (op : UnaryOp) (a : Value F) : Outcome (Value F) :=
  match op with
  | .plus => plus c a
  | .neg => neg c a
  | .bitNot => onNumber c op.symbol (fun x => (toInteger op.symbol x).map fun i => Numeric.ofInt (bitNot i)) a
  | .not => logicalNot c a
  | .sqrt => root c (.number (Numeric.ofNat 2)) a
  | .cbrt => root c (.number (Numeric.ofNat 3)) a
  | .fourthRoot => root c (.number (Numeric.ofNat 4)) a

end QuantityCalculus.Algebra
