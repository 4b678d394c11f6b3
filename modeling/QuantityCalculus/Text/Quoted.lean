import QuantityCalculus.Text.Unprintable

/-!
# Quoted text

A text in double quotes. The quote, the backslash and four controls have two-character escapes, every other character without
a glyph of its own is shown by its number in hexadecimal, and all else stands for itself.
-/

namespace QuantityCalculus.Text

/-- How a character is written between double quotes. -/
def escapeChar (c : Char) : List Char :=
  if c == '"' || c == '\\' then ['\\', c]
  else if c == '\n' then ['\\', 'n']
  else if c == '\r' then ['\\', 'r']
  else if c == '\t' then ['\\', 't']
  else if c == '\x00' then ['\\', '0']
  else if isUnprintable c then ['\\', 'u', '\x7b'] ++ Nat.toDigits 16 c.toNat ++ ['\x7d']
  else [c]

/-- The text between double quotes. -/
def quoted (s : String) : String :=
  String.ofList ('"' :: s.toList.flatMap escapeChar ++ ['"'])

end QuantityCalculus.Text
