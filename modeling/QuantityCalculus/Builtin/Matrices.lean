import QuantityCalculus.Builtin.Arguments

/-!
# Matrix functions

Rows and columns are counted from one in arguments.
-/

namespace QuantityCalculus.Builtin

variable {F : Type} [Numeric F] (c : Catalog F)

/-- Values as elements of matrices. -/
def elements : ElementRing (Value F) := Algebra.valueRing c (Algebra.mul c)

/-- The determinant of a matrix. -/
def determinant (a : Value F) : Outcome (Value F) := do
  Matrix.determinant (elements c) (← matrixArgument c "det" a)

/-- A function from matrices to matrices. -/
def onMatrix (name : String) (f : Matrix (Value F) → Outcome (Matrix (Value F))) (a : Value F) : Outcome (Value F) := do
  return .ofMatrix (← f (← matrixArgument c name a))

/-- Whether an index that is counted from one is among a number of places. -/
def isIndex (i : Int) (count : Nat) : Bool := 1 ≤ i && i ≤ count

/-- A function of a matrix and a place in it. -/
def atPlace (name : String) (f : Matrix (Value F) → Nat → Nat → Outcome (Value F)) (a row column : Value F) :
    Outcome (Value F) := do
  let m ← matrixArgument c name a
  let i ← integerArgument c name row
  let j ← integerArgument c name column
  if isIndex i m.height && isIndex j m.width then f m (i - 1).toNat (j - 1).toNat
  else .error (.domain name (.outsideMatrix i j m.height m.width))

/-- The identity matrix of a size. -/
def identityMatrix (size : Value F) : Outcome (Value F) := do
  let n ← integerArgument c "identity" size
  if 0 < n then return .ofMatrix (Matrix.identity (elements c) n.toNat)
  else .error (.domain "identity" (.sizeNotPositive n))

end QuantityCalculus.Builtin
