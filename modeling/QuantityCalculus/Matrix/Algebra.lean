import QuantityCalculus.Evaluation.Error
import QuantityCalculus.RepeatedSquaring

/-!
# Matrix algebra

Products, determinants, inverses and powers of matrices whose elements have a sum, a difference and a product that may fail. The
determinant is expanded along the first row.
-/

namespace QuantityCalculus

/-- The operations on the elements of matrices. -/
structure ElementRing (α : Type) where
  zero : α
  one : α
  isZero : α → Bool
  add : α → α → Outcome α
  sub : α → α → Outcome α
  mul : α → α → Outcome α
  neg : α → Outcome α

/-- The sum of terms from the first one on, and zero if there are none. -/
def ElementRing.sum {α : Type} (r : ElementRing α) : List (Outcome α) → Outcome α
  | [] => .ok r.zero
  | t :: ts => do ts.foldlM (fun total t => do r.add total (← t)) (← t)

namespace Matrix

variable {α : Type} (r : ElementRing α)

/-- The matrix product. -/
def product (a b : Matrix α) : Outcome (Matrix α) :=
  if a.width = b.height then
    (a.rows.mapM fun row => b.transpose.rows.mapM fun column => r.sum (List.zipWith r.mul row column)).map (⟨·⟩)
  else .error (.domain "*" (.sizesDiffer a.height a.width b.height b.width))

/-- The identity matrix of a size. -/
def identity (n : Nat) : Matrix α :=
  ofFn n n fun y x => if y = x then r.one else r.zero

/-- The matrix has as many rows as columns, and at least one. -/
def requireSquare (function : String) (m : Matrix α) : Outcome Unit :=
  if m.isSquare && !m.isEmpty then .ok () else .error (.domain function (.notSquare m.height m.width))

/-- The negative of an element in a place where the signs of the checkerboard are negative. -/
def signed (y x : Nat) (a : α) : Outcome α :=
  if (x + y) % 2 = 0 then .ok a else r.neg a

/-- The determinant of a matrix of a size, by cofactors along the first row. -/
def expand : Nat → Matrix α → Outcome α
  | 1, ⟨[[a]]⟩ => .ok a
  | 2, ⟨[[a, b], [c, d]]⟩ => do r.sub (← r.mul a d) (← r.mul b c)
  | n + 3, ⟨row :: rows⟩ =>
    r.sum (row.zipIdx.map fun (a, x) => do
      r.mul a (← signed r 0 x (← expand (n + 2) (minor ⟨row :: rows⟩ 0 x))))
  | _, _ => .error (.domain "det" .emptyMatrix)

/-- The determinant. -/
def determinant (m : Matrix α) : Outcome α := do
  requireSquare "det" m
  expand r m.height m

/-- The determinant without a row and a column, with the sign of their place. -/
def cofactorAt (m : Matrix α) (y x : Nat) : Outcome α := do
  signed r y x (← expand r (m.height - 1) (m.minor y x))

/-- The determinant without a row and a column. -/
def minorDeterminant (m : Matrix α) (y x : Nat) : Outcome α := do
  requireSquare "minor" m
  if m.height < 2 then .error (.domain "minor" .noMinors)
  else expand r (m.height - 1) (m.minor y x)

/-- The cofactor of an element. -/
def cofactor (m : Matrix α) (y x : Nat) : Outcome α := do
  requireSquare "cofactor" m
  if m.height < 2 then .error (.domain "cofactor" .noCofactors)
  else cofactorAt r m y x

/-- The matrix of the cofactors. -/
def comatrix (m : Matrix α) : Outcome (Matrix α) := do
  requireSquare "comatrix" m
  if m.height = 1 then return identity r 1
  else
    let places := List.range m.height
    return ⟨← places.mapM fun y => places.mapM fun x => cofactorAt r m y x⟩

/-- The transpose of the matrix of the cofactors. -/
def adjugate (m : Matrix α) : Outcome (Matrix α) :=
  (comatrix r m).map transpose

/-- The inverse, given the division of elements: the adjugate divided by the determinant. -/
def inverse (div : α → α → Outcome α) (m : Matrix α) : Outcome (Matrix α) := do
  requireSquare "inv" m
  let det ← expand r m.height m
  if r.isZero det then .error (.domain "inv" .singular)
  else
    let adj ← adjugate r m
    return ⟨← adj.rows.mapM fun row => row.mapM fun a => div a det⟩

/-- The power with an integer exponent; a negative one takes the power of the inverse. -/
def power (div : α → α → Outcome α) (m : Matrix α) (exponent : Int) : Outcome (Matrix α) := do
  requireSquare "^" m
  let base ← if exponent < 0 then inverse r div m else .ok m
  powBySquaring (product r) (identity r m.height) base exponent.natAbs

end Matrix

end QuantityCalculus
