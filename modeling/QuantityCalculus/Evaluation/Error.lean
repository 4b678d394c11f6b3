import QuantityCalculus.Arity
import QuantityCalculus.Matrix
import QuantityCalculus.UnitExpression

/-!
# Errors of evaluation

Why an expression has no value. Operands are named by their text, in the language of the catalog.
-/

namespace QuantityCalculus

/-- Why an operand is outside the domain of a function or an operator. -/
inductive DomainError where
  | lengthsDiffer (left right : Nat)
  | sizesDiffer (height width height' width' : Nat)
  | notSquare (height width : Nat)
  | noMinors
  | noCofactors
  | singular
  | emptyMatrix
  | noInverse
  | notInteger (number : String)
  | exponentOutOfRange (number : String)
  | noValues
  | oneValue
  | negativeInteger
  | notPositive
  | sizeNotPositive (size : Int)
  | outsideMatrix (row column : Int) (height width : Nat)
  | badCounts (n k : Int)
  deriving DecidableEq, Repr

/-- The text of a count of rows and a count of columns. -/
def sizeText (height width : Nat) : String := toString height ++ "×" ++ toString width

/-- The text of a domain error. -/
def DomainError.message : DomainError → String
  | .lengthsDiffer left right =>
    "arrays of length " ++ toString left ++ " and " ++ toString right ++ " do not line up"
  | .sizesDiffer height width height' width' =>
    "cannot multiply a " ++ sizeText height width ++ " matrix by a " ++ sizeText height' width' ++ " matrix"
  | .notSquare height width => "expected a square matrix, got " ++ sizeText height width
  | .noMinors => "matrix is too small to have minors"
  | .noCofactors => "matrix is too small to have cofactors"
  | .singular => "matrix is singular"
  | .emptyMatrix => "empty matrix"
  | .noInverse => "function has no inverse"
  | .notInteger number => number ++ " is not an integer"
  | .exponentOutOfRange number => "prefix exponent " ++ number ++ " is out of range"
  | .noValues => "no values given"
  | .oneValue => "at least two values are needed"
  | .negativeInteger => "argument must not be a negative integer"
  | .notPositive => "arguments must be positive"
  | .sizeNotPositive size => "size must be positive, got " ++ toString size
  | .outsideMatrix row column height width =>
    "index (" ++ toString row ++ ", " ++ toString column ++ ") is outside a " ++ sizeText height width ++ " matrix"
  | .badCounts n k => "need 0 <= k <= n, got n = " ++ toString n ++ " and k = " ++ toString k

/-- Which of two units lacks its independent variable. -/
inductive Side where
  | source | target | left | right
  deriving DecidableEq, Repr

/-- The word for a side. -/
def Side.name : Side → String
  | .source => "source"
  | .target => "target"
  | .left => "left"
  | .right => "right"

/-- Why an expression has no value. -/
inductive EvaluationError where
  | typeMismatch (op left right : String)
  | unaryTypeMismatch (op operand : String)
  | dimensionMismatch (left right : String)
  | missingIndependentVariable (side : Side) (unit : String)
  | unknownIdentifier (name : String)
  | ambiguous (term : String) (count : Nat)
  | domain (function : String) (cause : DomainError)
  | arity (function : String) (expected : Arity) (actual : Nat)
  | composition (cause : CompositionError)
  | conversion (cause : ConversionError)
  | unitExpression (cause : UnitExpressionError)
  deriving DecidableEq, Repr

/-- The text of an evaluation error. -/
def EvaluationError.message : EvaluationError → String
  | .typeMismatch op left right => "Cannot apply \x60" ++ op ++ "\x60 to " ++ left ++ " and " ++ right
  | .unaryTypeMismatch op operand => "Cannot apply \x60" ++ op ++ "\x60 to " ++ operand
  | .dimensionMismatch left right => "Dimensions of " ++ left ++ " and " ++ right ++ " do not match"
  | .missingIndependentVariable side unit =>
    "The " ++ side.name ++ " unit \x60" ++ unit ++ "\x60 needs an independent variable, bind one with \x60@\x60"
  | .unknownIdentifier name => "Unknown identifier \x60" ++ name ++ "\x60"
  | .ambiguous term count => "\x60" ++ term ++ "\x60 is ambiguous: " ++ toString count ++ " candidates match"
  | .domain function cause => function ++ ": " ++ cause.message
  | .arity function expected actual =>
    function ++ " expects " ++ expected.text ++ " argument(s), got " ++ toString actual
  | .composition cause => cause.message
  | .conversion cause => cause.message
  | .unitExpression cause => cause.message

/-- The outcome of an evaluation. -/
abbrev Outcome (α : Type) := Except EvaluationError α

/-- A composition as part of an evaluation. -/
def Outcome.ofComposition {α : Type} (r : Except CompositionError α) : Outcome α := r.mapError .composition

/-- A conversion as part of an evaluation. -/
def Outcome.ofConversion {α : Type} (r : Except ConversionError α) : Outcome α := r.mapError .conversion

end QuantityCalculus
