import QuantityCalculus.Algebra.Conversion

/-!
# Comparing values

Numbers and texts are ordered, and quantities by their base values. What is not a number is neither less than, equal to, nor greater
than anything. Values of different types are not equal; quantities of different dimensions cannot be compared at all.
-/

namespace QuantityCalculus.Algebra

variable {F : Type} [Numeric F] (c : Catalog F)

/-- The order of two numbers, unless one is not a number. -/
def compareNumbers (x y : F) : Option Ordering :=
  if x < y then some .lt else if y < x then some .gt else if x == y then some .eq else none

/-- The base values of two quantities of one dimension. -/
def baseValues (op : String) (p q : Quantity F (Value F)) : Outcome (F × F) := do
  if p.unit.dimension.sameAs q.unit.dimension then
    let x ← baseValue c .left op p.payload p
    let y ← baseValue c .right op q.payload q
    return (x, y)
  else .error (dimensionMismatch c p.unit q.unit)

/-- The order of two values that are not arrays. -/
def ordering (op : String) : Value F → Value F → Outcome (Option Ordering)
  | .number x, .number y => .ok (compareNumbers x y)
  | .string s, .string t => .ok (some (compare s t))
  | .quantity p, .quantity q => (baseValues c op p q).map fun (x, y) => compareNumbers x y
  | a, b => .error (typeMismatch c op a b)

/-- Whether an order is one that `accept` takes, element by element. -/
def compareValues (op : BinaryOp) (accept : Ordering → Bool) : Value F → Value F → Outcome (Value F) :=
  lift op fun a b => (ordering c op.symbol a b).map fun o => .boolean (o.any accept)

/-- Whether two units are the same: one unit of the catalog, or alike in dimension, datatype and scale. -/
def sameUnit (u v : UnitOfMeasure F) : Bool :=
  u.id.isSome && u.id == v.id ||
    u.dimension == v.dimension && u.datatype == v.datatype &&
      match u.ratio?, v.ratio? with
      | some r, some s => r.multiplier == s.multiplier && r.divisor == s.divisor
      | _, _ => false

mutual

/-- Whether two values are equal. -/
def equals : Value F → Value F → Outcome Bool
  | .number x, .number y => .ok (x == y)
  | .string s, .string t => .ok (s == t)
  | .boolean a, .boolean b => .ok (a == b)
  | .array xs, .array ys => if xs.length = ys.length then equalsAll xs ys else .ok false
  | .quantity p, .quantity q => (baseValues c BinaryOp.eq.symbol p q).map fun (x, y) => x == y
  | .unit u, .unit v => .ok (sameUnit u v)
  | .function f, .function g => .ok (f.same g)
  | .reference r, .reference s => .ok (r == s)
  | _, _ => .ok false

/-- Whether the elements in the same place are equal, up to the first pair that is not. -/
def equalsAll : List (Value F) → List (Value F) → Outcome Bool
  | x :: xs, y :: ys => do if ← equals x y then equalsAll xs ys else return false
  | _, _ => .ok true

end

end QuantityCalculus.Algebra
