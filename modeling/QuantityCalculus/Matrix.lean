/-!
# Matrices

A matrix is a list of rows of one length. Rows and columns are counted from zero.
-/

namespace QuantityCalculus

/-- Rows of elements. The constructors and operations below keep all rows as long as the first one. -/
structure Matrix (α : Type) where
  rows : List (List α)
  deriving DecidableEq, Repr

/-- The first element, if all others are equal to it. -/
def commonElement? {α : Type} [BEq α] : List α → Option α
  | [] => none
  | x :: xs => if xs.all (x == ·) then some x else none

namespace Matrix

variable {α β : Type}

/-- All rows have one length. -/
def Rectangular (m : Matrix α) : Prop :=
  ∃ width, ∀ row ∈ m.rows, row.length = width

/-- The matrix with the given rows, if they have one length. -/
def ofRows? (rows : List (List α)) : Option (Matrix α) :=
  if rows.isEmpty || (commonElement? (rows.map List.length)).isSome then some ⟨rows⟩ else none

/-- The text of the error for rows of several lengths. -/
def raggedMessage : String := "The dimensions of the matrix are inconsistent"

/-- The matrix with a given element in each row and column. -/
def ofFn (height width : Nat) (f : Nat → Nat → α) : Matrix α :=
  ⟨(List.range height).map fun y => (List.range width).map fun x => f y x⟩

/-- The element in a row and a column. -/
def get? (m : Matrix α) (y x : Nat) : Option α :=
  (m.rows[y]?).bind (·[x]?)

/-- The number of columns. -/
def width (m : Matrix α) : Nat :=
  (m.rows.head?.map List.length).getD 0

/-- The number of rows. -/
def height (m : Matrix α) : Nat := m.rows.length

/-- Whether there are no elements. -/
def isEmpty (m : Matrix α) : Bool := m.width == 0

/-- Whether there are as many rows as columns. -/
def isSquare (m : Matrix α) : Bool := m.width == m.height

/-- The matrix of the images of the elements. -/
def map (f : α → β) (m : Matrix α) : Matrix β :=
  ⟨m.rows.map fun row => row.map f⟩

/-- The matrix without one row and one column; where there is no such row or column, none is left out. -/
def minor (m : Matrix α) (y x : Nat) : Matrix α :=
  ⟨(m.rows.eraseIdx y).map fun row => row.eraseIdx x⟩

/-- The matrix whose rows are the columns. -/
def transpose (m : Matrix α) : Matrix α :=
  ⟨(List.range m.width).map fun x => m.rows.filterMap (·[x]?)⟩

end Matrix

end QuantityCalculus
