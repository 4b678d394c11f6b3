import QuantityCalculus.Algebra.Conversion
import QuantityCalculus.Algebra.Integer
import QuantityCalculus.Matrix.Algebra

/-!
# Arithmetic on values

Sums, products, quotients, powers and roots of numbers, arrays, matrices, units, quantities and functions. Quantities are added in the
unit of the first one. The product of quantities has the product of their units; the product of functions is their composition.
-/

namespace QuantityCalculus.Algebra

-- Powers of integers are those of the core library, whatever else is loaded.
attribute [local instance (1001)] instPowNat

variable {F : Type} [Numeric F] (c : Catalog F)

mutual

/-- The sum or the difference of two values, by `f` on numbers. -/
def additive (op : BinaryOp) (f : F → F → F) : Value F → Value F → Outcome (Value F)
  | .array xs, .array ys =>
    if xs.length = ys.length then (additivePairs op f xs ys).map .array else .error (lengthMismatch op xs ys)
  | .array xs, b => (additiveEach op f xs b).map .array
  | .number x, b => mapElements (fun
      | .number y => .ok (.number (f x y))
      | y => .error (typeMismatch c op.symbol (.number x) y)) b
  | .quantity p, b => mapElements (fun
      | .quantity q => do
        let payload ← additive op f p.payload (← align c p q)
        return .quantity { p with payload }
      | y => .error (typeMismatch c op.symbol (.quantity p) y)) b
  | a, b => mapElements (fun y => .error (typeMismatch c op.symbol a y)) b

/-- The sums or differences of the elements in the same place. -/
def additivePairs (op : BinaryOp) (f : F → F → F) : List (Value F) → List (Value F) → Outcome (List (Value F))
  | x :: xs, y :: ys => do
    let z ← additive op f x y
    let zs ← additivePairs op f xs ys
    return z :: zs
  | _, _ => .ok []

/-- The sums or differences of several values and one other value. -/
def additiveEach (op : BinaryOp) (f : F → F → F) : List (Value F) → Value F → Outcome (List (Value F))
  | [], _ => .ok []
  | x :: xs, b => do
    let z ← additive op f x b
    let zs ← additiveEach op f xs b
    return z :: zs

end

/-- The sum of two values. -/
def add (a b : Value F) : Outcome (Value F) := additive c .add (· + ·) a b

/-- The difference of two values. -/
def sub (a b : Value F) : Outcome (Value F) := additive c .sub (· - ·) a b

/-- The negative of a value. -/
def neg (a : Value F) : Outcome (Value F) := mapPayload c "-" (- ·) a

/-- Whether a value is zero, or zero of some unit. -/
def isZero : Value F → Bool
  | .number x => x == 0
  | .quantity q => q.payload.number?.any (· == 0)
  | _ => false

/-- Values as elements of matrices, given their product. -/
def valueRing (mul : Value F → Value F → Outcome (Value F)) : ElementRing (Value F) where
  zero := .number 0
  one := .number 1
  isZero := isZero
  add := add c
  sub := sub c
  mul := mul
  neg := neg c

/-- The product of values that is not taken element by element, where `mul` is the product of their parts. -/
def mulListed (mul : Value F → Value F → Outcome (Value F)) : Value F → Value F → Option (Outcome (Value F))
  | .number x, .number y => some (.ok (.number (x * y)))
  | .array xs, .array ys =>
    match (Value.array xs).toMatrix?, (Value.array ys).toMatrix? with
    | some m, some n => some ((Matrix.product (valueRing c mul) m n).map .ofMatrix)
    | _, _ => none
  | .number x, .unit u => some (.ok ((Value.number x).inUnit u))
  | .array xs, .unit u => some (.ok ((Value.array xs).inUnit u))
  | .string s, .unit u => some (.ok ((Value.string s).inUnit u))
  | .unit u, .number x => some (.ok ((Value.number x).inUnit u))
  | .unit u, .unit v => some ((Outcome.ofComposition (Composition.multiply c [u, v])).map .unit)
  | .quantity p, .quantity q => some do
    let u ← .ofComposition (Composition.multiply c [p.unit, q.unit])
    return (← mul p.payload q.payload).inUnit u
  | .quantity p, .number y => some do
    return .quantity { p with payload := ← mul p.payload (.number y) }
  | .number x, .quantity q => some do
    return .quantity { q with payload := ← mul (.number x) q.payload }
  | .quantity p, .unit v => some do
    return p.payload.inUnit (← .ofComposition (Composition.multiply c [p.unit, v]))
  | .unit u, .quantity q => some do
    return q.payload.inUnit (← .ofComposition (Composition.multiply c [u, q.unit]))
  | .function f, .function g => some (.ok (.function (f.compose g)))
  | _, _ => none

/-- The product of two values whose depths together are below a bound. -/
def mulWithin : Nat → Value F → Value F → Outcome (Value F)
  | 0, a, b => .error (typeMismatch c BinaryOp.mul.symbol a b)
  | n + 1, a, b =>
    match mulListed c (mulWithin n) a b with
    | some r => r
    | none => broadcast c .mul (mulWithin n) a b

/-- The product of two values. Each step goes to parts of one operand or of both. -/
def mul (a b : Value F) : Outcome (Value F) := mulWithin c (a.depth + b.depth + 1) a b

/-- The quotient by a square matrix, which is the product with its inverse. -/
def divByMatrix (div : Value F → Value F → Outcome (Value F)) (a b : Value F) : Option (Outcome (Value F)) :=
  match b.toMatrix? with
  | some divisor =>
    if divisor.isSquare && (a.toMatrix?.isSome || a.number?.isSome) then
      some do mul c a (.ofMatrix (← Matrix.inverse (valueRing c (mul c)) div divisor))
    else none
  | none => none

/-- The quotient of values that is not taken element by element, where `div` is the quotient of their parts. -/
def divListed (div : Value F → Value F → Outcome (Value F)) : Value F → Value F → Option (Outcome (Value F))
  | .number x, .number y => some (.ok (.number (x / y)))
  | .number x, .unit u => some do
    return (Value.number x).inUnit (← .ofComposition (Composition.power c u (-1)))
  | .array xs, .unit u => some do
    return (Value.array xs).inUnit (← .ofComposition (Composition.power c u (-1)))
  | .unit u, .number y => some (.ok ((Value.number (1 / y)).inUnit u))
  | .unit u, .unit v => some ((Outcome.ofComposition (Composition.divide c [u, v])).map .unit)
  | .quantity p, .quantity q => some do
    let u ← .ofComposition (Composition.divide c [p.unit, q.unit])
    return (← div p.payload q.payload).inUnit u
  | .quantity p, .number y => some do
    return .quantity { p with payload := ← div p.payload (.number y) }
  | .number x, .quantity q => some do
    let u ← .ofComposition (Composition.power c q.unit (-1))
    return (← div (.number x) q.payload).inUnit u
  | .quantity p, .unit v => some do
    return p.payload.inUnit (← .ofComposition (Composition.divide c [p.unit, v]))
  | .unit u, .quantity q => some do
    let v ← .ofComposition (Composition.divide c [u, q.unit])
    return (← div (.number 1) q.payload).inUnit v
  | .function f, .function g => some (g.invert.map fun h => .function (f.compose h))
  | _, _ => none

/-- The quotient of two values, in a bounded number of nested steps. -/
def divWithin : Nat → Value F → Value F → Outcome (Value F)
  | 0, a, b => .error (typeMismatch c BinaryOp.div.symbol a b)
  | n + 1, a, b =>
    match (divByMatrix c (divWithin n) a b).or (divListed c (divWithin n) a b) with
    | some r => r
    | none => broadcast c .div (divWithin n) a b

/-- The quotient of two values. A step goes to parts of the operands, or from a matrix to its determinant, which has no deeper nesting
of matrices than an element. -/
def div (a b : Value F) : Outcome (Value F) := divWithin c (a.depth + b.depth ^ (2 : Nat) + 1) a b

mutual

/-- The power of a value. -/
def pow : Value F → Value F → Outcome (Value F)
  | .array xs, .array ys =>
    if xs.length = ys.length then (powPairs xs ys).map .array else .error (lengthMismatch .power xs ys)
  | .array xs, .number n =>
    match (Value.array xs).toMatrix? with
    | some m => do
      let exponent ← toInteger BinaryOp.power.symbol n
      return .ofMatrix (← Matrix.power (valueRing c (mul c)) (div c) m exponent)
    | none => (powEach xs (.number n)).map .array
  | .array xs, b => (powEach xs b).map .array
  | .number x, b => mapElements (fun
      | .number y => .ok (.number (Numeric.pow x y))
      | y => .error (typeMismatch c BinaryOp.power.symbol (.number x) y)) b
  | .unit u, b => mapElements (fun
      | .number n => (Outcome.ofComposition (Composition.power c u n)).map .unit
      | y => .error (typeMismatch c BinaryOp.power.symbol (.unit u) y)) b
  | .quantity q, b => mapElements (fun
      | .number n => do
        let u ← .ofComposition (Composition.power c q.unit n)
        return (← pow q.payload (.number n)).inUnit u
      | y => .error (typeMismatch c BinaryOp.power.symbol (.quantity q) y)) b
  | .function f, b => mapElements (fun
      | .number n => do
        return .function (← f.pow (← toInteger BinaryOp.power.symbol n))
      | y => .error (typeMismatch c BinaryOp.power.symbol (.function f) y)) b
  | a, b => mapElements (fun y => .error (typeMismatch c BinaryOp.power.symbol a y)) b

/-- The powers of elements with the exponents in the same place. -/
def powPairs : List (Value F) → List (Value F) → Outcome (List (Value F))
  | x :: xs, y :: ys => do
    let z ← pow x y
    let zs ← powPairs xs ys
    return z :: zs
  | _, _ => .ok []

/-- The powers of several values with one exponent. -/
def powEach : List (Value F) → Value F → Outcome (List (Value F))
  | [], _ => .ok []
  | x :: xs, b => do
    let z ← pow x b
    let zs ← powEach xs b
    return z :: zs

end

/-- Whether a number is an odd integer. -/
def isOdd (x : F) : Bool :=
  Numeric.fract x == 0 && Numeric.remainderEuclid x (1 + 1) == 1

/-- The root of a number; an odd root of a negative number is negative. -/
def realRoot (x degree : F) : F :=
  if x < 0 ∧ isOdd degree then -Numeric.pow (-x) (1 / degree) else Numeric.pow x (1 / degree)

/-- The root of a value. -/
def root (degree x : Value F) : Outcome (Value F) :=
  lift .root (fun
    | .number n, .number x => .ok (.number (realRoot x n))
    | .number n, .unit u => pow c (.unit u) (.number (1 / n))
    | .number n, .quantity q => pow c (.quantity q) (.number (1 / n))
    | a, b => .error (typeMismatch c BinaryOp.root.symbol a b)) degree x

/-- The exponent of a prefix, which fits into 32 bits. -/
def prefixExponent (op : BinaryOp) (n : F) : Outcome Int := do
  let exponent ← toInteger op.symbol n
  if -2 ^ (31 : Nat) ≤ exponent ∧ exponent < 2 ^ (31 : Nat) then return exponent
  else .error (.domain op.symbol (.exponentOutOfRange (Numeric.text n)))

/-- A value times the power of a base. For a unit, it is the unit with the prefix of that power. -/
def scale (op : BinaryOp) (base : Nat) (a b : Value F) : Outcome (Value F) :=
  lift op (fun
    | .number x, .number n => .ok (.number (x * Numeric.pow (Numeric.ofNat base) n))
    | .unit u, .number n => do
      let exponent ← prefixExponent op n
      return .unit (← .ofComposition (Composition.withPrefix c u base exponent))
    | .quantity q, .number n => do
      return .quantity { q with payload := ← mul c q.payload (.number (Numeric.pow (Numeric.ofNat base) n)) }
    | a, b => .error (typeMismatch c op.symbol a b)) a b

end QuantityCalculus.Algebra
