import QuantityCalculus.Value.Text

/-!
# Operations element by element

Most operations extend to arrays: an operation on one operand is done on each element, and an operation on two operands goes through
arrays of one length together, or through one array with the other operand kept. Operands that an operation does not take are
named in the error.
-/

namespace QuantityCalculus.Algebra

variable {F : Type}

mutual

/-- An operation on every element of nested arrays, and on a value that is not an array. -/
def mapElements (f : Value F → Outcome (Value F)) : Value F → Outcome (Value F)
  | .array elems => (mapEach f elems).map .array
  | a => f a

/-- An operation on the elements of several values. -/
def mapEach (f : Value F → Outcome (Value F)) : List (Value F) → Outcome (List (Value F))
  | [] => .ok []
  | x :: xs => do
    let y ← mapElements f x
    let ys ← mapEach f xs
    return y :: ys

end

/-- The error for arrays of different lengths. -/
def lengthMismatch (op : BinaryOp) (xs ys : List (Value F)) : EvaluationError :=
  .domain op.symbol (.lengthsDiffer xs.length ys.length)

mutual

/-- An operation on two values that are not arrays, on arrays too. -/
def lift (op : BinaryOp) (f : Value F → Value F → Outcome (Value F)) : Value F → Value F → Outcome (Value F)
  | .array xs, .array ys =>
    if xs.length = ys.length then (liftPairs op f xs ys).map .array else .error (lengthMismatch op xs ys)
  | .array xs, b => (liftEach op f xs b).map .array
  | a, b => mapElements (f a) b

/-- An operation on the pairs of elements in the same place. -/
def liftPairs (op : BinaryOp) (f : Value F → Value F → Outcome (Value F)) :
    List (Value F) → List (Value F) → Outcome (List (Value F))
  | x :: xs, y :: ys => do
    let z ← lift op f x y
    let zs ← liftPairs op f xs ys
    return z :: zs
  | _, _ => .ok []

/-- An operation on each of several values and one other value. -/
def liftEach (op : BinaryOp) (f : Value F → Value F → Outcome (Value F)) :
    List (Value F) → Value F → Outcome (List (Value F))
  | [], _ => .ok []
  | x :: xs, b => do
    let z ← lift op f x b
    let zs ← liftEach op f xs b
    return z :: zs

end

variable [Numeric F] (c : Catalog F)

/-- The error for two operands that an operation does not take. -/
def typeMismatch (op : String) (a b : Value F) : EvaluationError :=
  .typeMismatch op (a.text c.language) (b.text c.language)

/-- The error for an operand that an operation does not take. -/
def unaryTypeMismatch (op : String) (a : Value F) : EvaluationError :=
  .unaryTypeMismatch op (a.text c.language)

/-- One level of an operation on arrays, where `f` is the operation on their elements. -/
def broadcast (op : BinaryOp) (f : Value F → Value F → Outcome (Value F)) : Value F → Value F → Outcome (Value F)
  | .array xs, .array ys =>
    if xs.length = ys.length then ((xs.zip ys).mapM fun (x, y) => f x y).map .array
    else .error (lengthMismatch op xs ys)
  | .array xs, b => (xs.mapM fun x => f x b).map .array
  | a, .array ys => (ys.mapM (f a)).map .array
  | a, b => .error (typeMismatch c op.symbol a b)

/-- An operation on two numbers, and on arrays of numbers. -/
def onNumbers (op : BinaryOp) (f : F → F → Outcome F) : Value F → Value F → Outcome (Value F) :=
  lift op fun
    | .number x, .number y => (f x y).map .number
    | a, b => .error (typeMismatch c op.symbol a b)

/-- An operation on a number, and on arrays of numbers. -/
def onNumber (name : String) (f : F → Outcome F) : Value F → Outcome (Value F) :=
  mapElements fun
    | .number x => (f x).map .number
    | a => .error (unaryTypeMismatch c name a)

mutual

/-- A function on every number of a value, in quantities too, whose units stay. -/
def mapPayload (name : String) (f : F → F) : Value F → Outcome (Value F)
  | .number x => .ok (.number (f x))
  | .array elems => (mapPayloads name f elems).map .array
  | .quantity q => (mapPayload name f q.payload).map fun payload => .quantity { q with payload }
  | a => .error (unaryTypeMismatch c name a)

/-- A function on every number of several values. -/
def mapPayloads (name : String) (f : F → F) : List (Value F) → Outcome (List (Value F))
  | [] => .ok []
  | x :: xs => do
    let y ← mapPayload name f x
    let ys ← mapPayloads name f xs
    return y :: ys

end

end QuantityCalculus.Algebra
