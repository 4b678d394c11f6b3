/-!
# Reading decimal numerals

A numeral is an optional sign and then the word for infinity, the word for what is not a number, or digits with an optional
point and an optional exponent. Words are read in either case.
-/

namespace QuantityCalculus.Decimal

/-- What a numeral stands for, its sign apart. -/
inductive Magnitude where
  | infinity
  | notANumber
  | decimal (digits : Nat) (scale : Int)
  deriving DecidableEq, Repr

/-- A signed numeral. -/
structure Numeral where
  negative : Bool
  magnitude : Magnitude
  deriving DecidableEq, Repr

/-- The number that a list of ASCII digits spells. -/
def natOfDigits (ds : List Char) : Nat :=
  ds.foldl (fun n c => 10 * n + (c.toNat - '0'.toNat)) 0

/-- The sign in front, if there is one, and what follows it. -/
def readSign : List Char → Bool × List Char
  | '-' :: rest => (true, rest)
  | '+' :: rest => (false, rest)
  | rest => (false, rest)

/-- The integer that fills a whole text: a sign and at least one digit. -/
def readWholeInteger (cs : List Char) : Option Int :=
  let (negative, digits) := readSign cs
  if digits.isEmpty || !digits.all Char.isDigit then none
  else some (if negative then -(natOfDigits digits : Int) else natOfDigits digits)

/-- Digits with an optional point, at least one of them on one side, and an optional exponent. -/
def readDecimal (cs : List Char) : Option Magnitude :=
  let whole := cs.takeWhile Char.isDigit
  let (places, rest) := match cs.dropWhile Char.isDigit with
    | '.' :: rest => (rest.takeWhile Char.isDigit, rest.dropWhile Char.isDigit)
    | rest => ([], rest)
  if whole.isEmpty && places.isEmpty then none
  else
    let digits := natOfDigits (whole ++ places)
    match rest with
    | [] => some (.decimal digits (-(places.length : Int)))
    | c :: rest =>
      if c == 'e' || c == 'E' then
        (readWholeInteger rest).map fun e => .decimal digits (e - places.length)
      else none

/-- The magnitude that a text without sign spells. -/
def readMagnitude (cs : List Char) : Option Magnitude :=
  match String.ofList (cs.map Char.toLower) with
  | "inf" | "infinity" => some .infinity
  | "nan" => some .notANumber
  | _ => readDecimal cs

/-- The numeral that fills the whole text. -/
def Numeral.read (cs : List Char) : Option Numeral :=
  let (negative, rest) := readSign cs
  (readMagnitude rest).map (Numeral.mk negative)

/-- The integer that a sign and ASCII digits spell, if it lies between two bounds. -/
def readInteger? (low high : Int) (cs : List Char) : Option Int :=
  (readWholeInteger cs).bind fun n => if low ≤ n ∧ n ≤ high then some n else none

end QuantityCalculus.Decimal
