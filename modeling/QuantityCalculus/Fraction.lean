import QuantityCalculus.Conversion
import QuantityCalculus.Text.Trim

/-!
# Numbers as fractions

A number is written as an integer and a common fraction whose denominator is allowed, such as `3 1/7`; of the fractions that are
allowed, the nearest is taken. Each term has the sign of the number, so that the terms add up to it.
-/

namespace QuantityCalculus.Fraction

-- Powers of integers are those of the core library, whatever else is loaded.
attribute [local instance (1001)] instPowNat

/-- Which denominators are allowed: all up to one bound, even ones up to another, and powers of two up to a third. -/
structure Bounds where
  all : Nat
  even : Nat
  powersOfTwo : Nat
  deriving DecidableEq, Repr

/-- Every allowed denominator in the order of the search; the first is always one. -/
def Bounds.denominators (b : Bounds) : List Nat :=
  1 :: (List.range' 2 (b.all - 1) ++ (List.range (b.even / 2)).map (fun k => 2 * (k + 1)) ++
    (List.range b.powersOfTwo.log2).map fun k => 2 ^ (k + 1))

variable {F : Type} [Numeric F]

/-- The natural number that a rounded number is. -/
def toNat (x : F) : Nat := (Numeric.truncate (Numeric.round x)).toNat

/-- A fraction as numerator and denominator, and its error. -/
structure Candidate (F : Type) where
  numerator : Nat
  denominator : Nat
  error : F

/-- The best fraction with a denominator for a number. -/
def candidate (x : F) (denominator : Nat) : Candidate F :=
  let numerator := toNat (x * Numeric.ofNat denominator)
  ⟨numerator, denominator, Numeric.abs (x - Numeric.ofNat numerator / Numeric.ofNat denominator)⟩

/-- The nearest of the fractions with allowed denominators, the first of several. -/
def nearest (x : F) (denominators : List Nat) : Candidate F :=
  let start : Candidate F := ⟨toNat x, 1, Numeric.abs (x - Numeric.ofNat (toNat x))⟩
  denominators.foldl (fun best d =>
    let next := candidate x d
    if next.error < best.error then next else best) start

/-- The terms of an integer and a fraction in lowest terms, without those that are zero. -/
def terms (sign : String) (integer : F) (numerator denominator : Nat) : List String :=
  let g := Nat.gcd numerator denominator
  (if integer == 0 then [] else [sign ++ Numeric.text integer]) ++
    if numerator == 0 then []
    else [sign ++ toString (numerator / g) ++ "/" ++ toString (denominator / g)]

/-- The text of a number as an integer and a fraction. -/
def write (x : F) (bounds : Bounds) : String :=
  if Numeric.isNaN x then ""
  else if Numeric.isInfinite x then if 0 < x then "∞" else "-∞"
  else
    let magnitude := Numeric.abs x
    let integer := Numeric.floor magnitude
    let best := nearest (magnitude - integer) bounds.denominators
    let sign := if x < 0 then "-" else ""
    let parts :=
      if best.numerator == best.denominator then terms sign (integer + 1) 0 1
      else terms sign integer best.numerator best.denominator
    if parts.isEmpty then "0" else String.intercalate " " parts

/-- The pieces of a text between slashes. -/
def piecesAfter (piece : List Char) : List Char → List (List Char)
  | [] => [piece]
  | c :: cs => if c == '/' then piece :: piecesAfter [] cs else piecesAfter (piece ++ [c]) cs

/-- The number that digits with an optional point are. -/
def readPiece (cs : List Char) : Option F :=
  if cs.all fun c => c.isDigit || c == '.' then Numeric.read cs else none

/-- The number that a term is: a sign, a number, and numbers that divide it one after another. -/
def readTerm (cs : List Char) : Option F :=
  let (negative, rest) := Decimal.readSign cs
  match (piecesAfter [] rest).mapM (readPiece (F := F)) with
  | none => none
  | some [] => none
  | some (x :: divisors) =>
    let value := divisors.foldl (· / ·) x
    some (if negative then -value else value)

/-- The sum of the terms that some words are, added to a number. -/
def readTerms (total : F) : List (List Char) → Option F
  | [] => some total
  | word :: words =>
    match readTerm word with
    | none => none
    | some x => readTerms (total + x) words

/-- The number that a text of terms with blanks between them is; the blank text is not a number. -/
def read (text : String) : Except ConversionError F :=
  let trimmed := Text.trim text.toList
  match String.ofList trimmed with
  | "" => .ok Numeric.notANumber
  | "∞" | "+∞" => .ok Numeric.infinity
  | "-∞" => .ok (-Numeric.infinity)
  | text =>
    match readTerms 0 (Text.words trimmed) with
    | none => .error (.badFraction text)
    | some x => .ok x

end QuantityCalculus.Fraction
