import QuantityCalculus.Function

/-!
# Values

What expressions evaluate to. A quantity is a payload in a unit, and may carry the value of the independent variable of its unit. An
array whose elements are arrays of one length is a matrix too, row by row.
-/

namespace QuantityCalculus

/-- The value of an independent variable. Without a unit it is in the base unit of the dimension of the variable. -/
structure Binding (F V : Type) where
  value : V
  unit : Option (UnitOfMeasure F)

/-- A payload in a unit, with the independent variable of the unit if it is bound. -/
structure Quantity (F V : Type) where
  payload : V
  unit : UnitOfMeasure F
  binding : Option (Binding F V)

/-- What a catalog holds to be looked up and shown only, with its name. -/
structure Reference where
  hit : Hit
  name : String
  deriving DecidableEq, Repr

/-- A value. -/
inductive Value (F : Type) where
  | number (x : F)
  | string (text : String)
  | boolean (b : Bool)
  | array (elems : List (Value F))
  | unit (u : UnitOfMeasure F)
  | quantity (q : Quantity F (Value F))
  | function (f : FunctionValue F)
  | reference (r : Reference)

namespace Value

variable {F : Type}

instance : Inhabited (Value F) := ⟨.array []⟩

/-- A payload in a unit, without an independent variable. -/
def inUnit (payload : Value F) (u : UnitOfMeasure F) : Value F := .quantity ⟨payload, u, none⟩

/-- The number that a value is. -/
def number? : Value F → Option F
  | .number x => some x
  | _ => none

/-- The elements of an array. -/
def elems? : Value F → Option (List (Value F))
  | .array elems => some elems
  | _ => none

/-- Whether a value is a quantity. -/
def isQuantity : Value F → Bool
  | .quantity _ => true
  | _ => false

mutual

/-- How many arrays and quantities are nested in each other. -/
def depth : Value F → Nat
  | .array elems => depthOfAll elems + 1
  | .quantity q => q.payload.depth + 1
  | _ => 0

/-- The largest depth of several values. -/
def depthOfAll : List (Value F) → Nat
  | [] => 0
  | x :: xs => max x.depth (depthOfAll xs)

end

/-- The rows of a value that is an array of arrays of one length, if it has an element. -/
def toMatrix? (a : Value F) : Option (Matrix (Value F)) :=
  ((a.elems?.bind (·.mapM elems?)).bind Matrix.ofRows?).filter fun m => !m.isEmpty

/-- The array of the rows of a matrix. -/
def ofMatrix (m : Matrix (Value F)) : Value F := .array (m.rows.map .array)

mutual

/-- What a conversion takes: a number, a text, or an array of these. -/
def toScalar? : Value F → Option (Scalar F)
  | .number x => some (.number x)
  | .string s => some (.text s)
  | .array elems => (scalars? elems).map .tuple
  | _ => none

/-- What conversions take of several values. -/
def scalars? : List (Value F) → Option (List (Scalar F))
  | [] => some []
  | x :: xs => x.toScalar?.bind fun y => (scalars? xs).map (y :: ·)

end

mutual

/-- What a conversion gives, as a value. -/
def ofScalar : Scalar F → Value F
  | .number x => .number x
  | .text s => .string s
  | .tuple components => .array (ofScalars components)

/-- What conversions give, as values. -/
def ofScalars : List (Scalar F) → List (Value F)
  | [] => []
  | x :: xs => ofScalar x :: ofScalars xs

end

mutual

/-- The value with an owner for each function that had none: the variable, how often it was assigned before, and the place in the
value. Functions inside a quantity cannot be compared and stay as they are. -/
def own (variableName : String) (generation : Nat) (path : List Nat) : Value F → Value F
  | .function f => .function { f with owner := f.owner.or (some ⟨variableName, generation, path, false⟩) }
  | .array elems => .array (ownAll variableName generation path 0 elems)
  | a => a

/-- The elements of an array, the first of which has a given index, with owners. -/
def ownAll (variableName : String) (generation : Nat) (path : List Nat) (index : Nat) :
    List (Value F) → List (Value F)
  | [] => []
  | x :: xs => own variableName generation (index :: path) x :: ownAll variableName generation path (index + 1) xs

end

end Value

end QuantityCalculus
