/-!
# Decimal digits

A positive decimal number is an integer of significant digits and the power of ten of the last of them. It is written either
positionally, without any exponent, or as one digit, a fraction and an exponent.
-/

namespace QuantityCalculus.Decimal

/-- The number `value * 10 ^ scale`. -/
structure Digits where
  value : Nat
  scale : Int
  deriving DecidableEq, Repr

/-- The count of decimal digits, none for zero. -/
def digitCount (n : Nat) : Nat :=
  if n == 0 then 0 else (Nat.toDigits 10 n).length

/-- The power of ten of the leading digit of `num / den`, both positive. -/
def leadingExponent (num den : Nat) : Int :=
  if den ≤ num then (digitCount (num / den) : Int) - 1 else -(digitCount ((den - 1) / num) : Int)

/-- The digits without the zeros at their end, and the power of ten of the last that remains. -/
def Digits.stripped (d : Digits) : List Char × Int :=
  let kept := (Nat.toDigits 10 d.value).reverse.dropWhile (· == '0')
  (kept.reverse, d.scale + ((Nat.toDigits 10 d.value).length - kept.length : Nat))

/-- The number with as many places as it needs and no exponent. -/
def Digits.positional (d : Digits) : String :=
  let (digits, scale) := d.stripped
  if 0 ≤ scale then String.ofList (digits ++ List.replicate scale.toNat '0')
  else
    let places := (-scale).toNat
    if places < digits.length then
      String.ofList (digits.take (digits.length - places) ++ '.' :: digits.drop (digits.length - places))
    else String.ofList ('0' :: '.' :: List.replicate (places - digits.length) '0' ++ digits)

/-- The number as one digit, a point and the other digits, and an exponent of ten. -/
def Digits.scientific (d : Digits) : String :=
  match Nat.toDigits 10 d.value with
  | [] => ""
  | [first] => String.ofList [first, 'e'] ++ toString d.scale
  | first :: rest => String.ofList (first :: '.' :: rest ++ ['e']) ++ toString (d.scale + rest.length)

end QuantityCalculus.Decimal
