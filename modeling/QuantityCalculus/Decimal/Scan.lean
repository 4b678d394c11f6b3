import QuantityCalculus.Text.DecimalDigit

/-!
# Numerals at the start of a text

The longest numeral that a text starts with, together with what follows it. Digits of every script make a numeral, although only
the ASCII ones have a value.
-/

namespace QuantityCalculus.Decimal

/-- The sign at the start of a text, if there is one. -/
def spanSign : List Char → List Char × List Char
  | '-' :: rest => (['-'], rest)
  | '+' :: rest => (['+'], rest)
  | rest => ([], rest)

/-- The digits at the start of a text. -/
def spanDigits (cs : List Char) : List Char × List Char :=
  (cs.takeWhile Text.isDecimalDigit, cs.dropWhile Text.isDecimalDigit)

/-- The mantissa at the start of a text: digits with an optional point and places, or a point and places. -/
def spanMantissa? (cs : List Char) : Option (List Char × List Char) :=
  let (whole, rest) := spanDigits cs
  match rest with
  | '.' :: rest =>
    let (places, rest) := spanDigits rest
    if whole.isEmpty && places.isEmpty then none else some (whole ++ '.' :: places, rest)
  | rest => if whole.isEmpty then none else some (whole, rest)

/-- The integer at the start of a text, with its sign. -/
def spanInteger? (cs : List Char) : Option (List Char × List Char) :=
  let (sign, rest) := spanSign cs
  let (digits, rest) := spanDigits rest
  if digits.isEmpty then none else some (sign ++ digits, rest)

/-- The number with sign at the start of a text. -/
def spanSigned? (cs : List Char) : Option (List Char × List Char) :=
  let (sign, rest) := spanSign cs
  (spanMantissa? rest).map fun (mantissa, rest) => (sign ++ mantissa, rest)

end QuantityCalculus.Decimal
