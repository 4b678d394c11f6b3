import QuantityCalculus.SortedList

/-!
# Dimensions

A dimension is a formal product of base dimensions with rational exponents. It is kept in a canonical form, its bases in
increasing order and no exponent zero, so that two dimensions are the same product exactly when they are equal.
-/

namespace QuantityCalculus

namespace Dimension

/-- The bases are in increasing order, and no exponent is zero. -/
def IsCanonical (exponents : List (String × Rat)) : Prop :=
  SortedList.Increasing SortedList.textLT exponents ∧ ∀ x ∈ exponents, x.2 ≠ 0

end Dimension

/-- Base dimensions with their exponents. -/
structure Dimension where
  exponents : List (String × Rat)
  canonical : Dimension.IsCanonical exponents
  deriving DecidableEq, Repr

namespace Dimension

/-- The dimension of plain numbers. -/
def one : Dimension := ⟨[], List.Pairwise.nil, nofun⟩

/-- The exponents with another one added to that of a base. -/
def addExponent (exponents : List (String × Rat)) (component : String × Rat) : List (String × Rat) :=
  SortedList.insertWith SortedList.textLT component.1 component.2 (· + component.2) exponents

/-- Adding an exponent keeps the bases increasing. -/
theorem increasing_addExponent {exponents : List (String × Rat)}
    (h : SortedList.Increasing SortedList.textLT exponents) (component : String × Rat) :
    SortedList.Increasing SortedList.textLT (addExponent exponents component) := by
  unfold addExponent
  apply SortedList.Increasing.insertWith
  · intro a b c hab hbc
    exact SortedList.textLT_trans hab hbc
  · exact h

/-- Adding exponents keeps the bases increasing. -/
theorem increasing_foldl_addExponent (components : List (String × Rat)) {exponents : List (String × Rat)}
    (h : SortedList.Increasing SortedList.textLT exponents) :
    SortedList.Increasing SortedList.textLT (components.foldl addExponent exponents) := by
  induction components generalizing exponents with
  | nil => exact h
  | cons component components ih => exact ih (increasing_addExponent h component)

/-- The product of bases with exponents, in which a base may occur several times. -/
def ofComponents (components : List (String × Rat)) : Dimension where
  exponents := (components.foldl addExponent []).filter fun (_, exponent) => exponent != 0
  canonical := by
    have hnil : SortedList.Increasing (α := Rat) SortedList.textLT [] := List.Pairwise.nil
    refine ⟨List.Pairwise.filter _ (increasing_foldl_addExponent components hnil), fun x hx => ?_⟩
    simpa using (List.mem_filter.1 hx).2

/-- The dimension of one base. -/
def single (base : String) : Dimension := ofComponents [(base, 1)]

/-- The exponent of a base. -/
def get (d : Dimension) (base : String) : Rat := (SortedList.get? base d.exponents).getD 0

/-- The bases with an exponent other than zero, in increasing order. -/
def bases (d : Dimension) : List String := d.exponents.map (·.1)

/-- Whether it is the dimension of plain numbers. -/
def isOne (d : Dimension) : Bool := d.exponents.isEmpty

/-- The product of dimensions. -/
def product (ds : List Dimension) : Dimension :=
  ofComponents (ds.flatMap (·.exponents))

/-- The quotient of a dimension by each of several others. -/
def quotient (d : Dimension) (divisors : List Dimension) : Dimension :=
  ofComponents (d.exponents ++ (divisors.flatMap (·.exponents)).map fun (base, exponent) => (base, -exponent))

/-- The power of a dimension with a rational exponent. -/
def pow (d : Dimension) (exponent : Rat) : Dimension :=
  ofComponents (d.exponents.map fun (base, e) => (base, e * exponent))

/-- Whether the quotient of two dimensions is that of plain numbers. -/
def sameAs (d e : Dimension) : Bool := (d.quotient [e]).isOne

/-- Whether the product of two dimensions is that of plain numbers, as with frequency and period. -/
def complements (d e : Dimension) : Bool := (product [d, e]).isOne

instance : Mul Dimension := ⟨fun d e => product [d, e]⟩

instance : Div Dimension := ⟨fun d e => d.quotient [e]⟩

/-- The text of a base with its exponent. -/
def componentText (base : String) (exponent : Rat) : String :=
  if exponent == 1 then base
  else if exponent.den == 1 then base ++ "^" ++ toString exponent.num
  else base ++ "^(" ++ toString exponent.num ++ "/" ++ toString exponent.den ++ ")"

/-- The text of a dimension. -/
def text (d : Dimension) : String :=
  if d.isOne then "1"
  else String.intercalate " " (d.exponents.map fun (base, exponent) => componentText base exponent)

end Dimension

end QuantityCalculus
