import QuantityCalculus.Text.CodePoint

/-!
# Currency signs

The characters of the Unicode general category Sc begin the names of currencies.
-/

namespace QuantityCalculus.Text

/-- The code points of general category Sc. -/
def currencySignRanges : List (Nat × Nat) :=
  [
    (0x24, 0x24), (0xa2, 0xa5), (0x58f, 0x58f), (0x60b, 0x60b), (0x7fe, 0x7ff), (0x9f2, 0x9f3), (0x9fb, 0x9fb),
    (0xaf1, 0xaf1), (0xbf9, 0xbf9), (0xe3f, 0xe3f), (0x17db, 0x17db), (0x20a0, 0x20c0), (0xa838, 0xa838),
    (0xfdfc, 0xfdfc), (0xfe69, 0xfe69), (0xff04, 0xff04), (0xffe0, 0xffe1), (0xffe5, 0xffe6), (0x11fdd, 0x11fe0),
    (0x1e2ff, 0x1e2ff), (0x1ecb0, 0x1ecb0)
  ]

/-- A currency sign. -/
def isCurrencySign (c : Char) : Bool :=
  inRanges currencySignRanges c.toNat

end QuantityCalculus.Text
