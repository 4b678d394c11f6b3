import QuantityCalculus.Builtin.Arguments

/-!
# Statistics

Functions of several numbers, given one by one or as one array. Quantities are taken in the unit of the first one, which is that of the
result too, or squared that of the variance.
-/

namespace QuantityCalculus

variable {F : Type} [Numeric F]

/-- The sum of numbers from the first one on, so that the sum of negative zeros is negative zero. -/
def total : List F → F
  | [] => 0
  | x :: xs => xs.foldl (· + ·) x

/-- The sum of the images of numbers divided by their number. -/
def meanOf (f : F → F) (xs : List F) : F := total (xs.map f) / Numeric.ofNat xs.length

/-- The sum of the squares of the distances to the mean divided by one less than the number of numbers, of which there are two. -/
def sampleVariance (name : String) (xs : List F) : Outcome F :=
  if xs.length < 2 then .error (.domain name .oneValue)
  else
    let m := meanOf id xs
    .ok (total (xs.map fun x => (x - m) * (x - m)) / Numeric.ofNat (xs.length - 1))

/-- The order of numbers in which negative zero comes before zero, and what is not a number comes last. -/
def totalLE (x y : F) : Bool :=
  if Numeric.isNaN x then Numeric.isNaN y
  else if Numeric.isNaN y then true
  else if x == y then Numeric.hasNegativeSign x || !Numeric.hasNegativeSign y
  else x < y

/-- The number in the middle, or the mean of the two in the middle. -/
def middleOf (xs : List F) : F :=
  let sorted := xs.mergeSort totalLE
  let middle := sorted.length / 2
  let place (i : Nat) : F := (sorted[i]?).getD Numeric.notANumber
  if sorted.length % 2 = 0 then (place (middle - 1) + place middle) / (1 + 1) else place middle

/-- The number chosen from the first one on, where what is not a number is passed over. If there is no number, it is the bound that all
numbers are within. -/
def extremeOf (choose : F → F → F) (bound : F) (xs : List F) : F :=
  match xs.filter (!Numeric.isNaN ·) with
  | [] => bound
  | x :: xs => xs.foldl choose x

/-- The value of a statistic. -/
def Statistic.of (s : Statistic) (xs : List F) : Outcome F :=
  match s with
  | .rss => .ok (Numeric.sqrt (total (xs.map fun x => x * x)))
  | .rms => .ok (Numeric.sqrt (meanOf (fun x => x * x) xs))
  | .mean => .ok (meanOf id xs)
  | .gmean => .ok (Numeric.elementary .exp (meanOf (Numeric.elementary .ln) xs))
  | .hmean => .ok (Numeric.ofNat xs.length / total (xs.map fun x => 1 / x))
  | .stdev => (sampleVariance s.name xs).map Numeric.sqrt
  | .median => .ok (middleOf xs)
  | .min => .ok (extremeOf Numeric.min Numeric.infinity xs)
  | .max => .ok (extremeOf Numeric.max (-Numeric.infinity) xs)

namespace Builtin

variable (c : Catalog F)

/-- The numbers of quantities in the unit of the first one. -/
def alignedNumbers (name : String) (first : Quantity F (Value F)) (args : List (Value F)) : Outcome (List F) :=
  args.mapM fun
    | .quantity q => do
      match (← Algebra.align c first q).number? with
      | some x => return x
      | none => .error (Algebra.unaryTypeMismatch c name (.quantity q))
    | a => .error (Algebra.typeMismatch c name (.quantity first) a)

/-- The arguments as numbers, with the unit they are in if they are quantities. -/
def magnitudes (name : String) (args : List (Value F)) : Outcome (List F × Option (UnitOfMeasure F)) :=
  match spread args with
  | [] => .error (.domain name .noValues)
  | .quantity first :: rest => do
    return (← alignedNumbers c name first (.quantity first :: rest), some first.unit)
  | args => do
    let xs ← args.mapM fun
      | .number x => .ok x
      | a => .error (Algebra.unaryTypeMismatch c name a)
    return (xs, none)

/-- A number in a unit, if there is one. -/
def inUnit? (x : F) : Option (UnitOfMeasure F) → Value F
  | none => .number x
  | some u => (Value.number x).inUnit u

/-- A statistic of the arguments. -/
def reduceNumbers (s : Statistic) (args : List (Value F)) : Outcome (Value F) := do
  let (xs, u) ← magnitudes c s.name args
  return inUnit? (← s.of xs) u

/-- The variance of the arguments. -/
def variance (args : List (Value F)) : Outcome (Value F) := do
  let (xs, u) ← magnitudes c "var" args
  let v ← sampleVariance "var" xs
  match u with
  | none => return .number v
  | some u => return (Value.number v).inUnit (← .ofComposition (Composition.multiply c [u, u]))

/-- The arguments combined from the first one on, and `empty` if there are none. -/
def accumulate (combine : Value F → Value F → Outcome (Value F)) (empty : Value F) (args : List (Value F)) :
    Outcome (Value F) :=
  match spread args with
  | [] => .ok empty
  | first :: rest => rest.foldlM combine first

end Builtin

end QuantityCalculus
