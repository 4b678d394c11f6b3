import QuantityCalculus.Decimal.Numeral
import QuantityCalculus.Proofs.Decimal.Scan

/-!
# Digits are read as the number that they are written for
-/

namespace QuantityCalculus.Decimal

/-- The digits of a natural number are digits. -/
theorem isDigit_of_mem_toDigits {n : Nat} {c : Char} (h : c ∈ Nat.toDigits 10 n) : c.isDigit = true :=
  Nat.isDigit_of_mem_toDigits (by decide) (by decide) h

/-- No sign is read from digits. -/
theorem readSign_digits {cs : List Char} (h : ∀ c ∈ cs.head?, c.isDigit = true) : readSign cs = (false, cs) := by
  unfold readSign
  split
  · nomatch h '-' rfl
  · nomatch h '+' rfl
  · rfl

/-- The digits of a natural number are read as that number. -/
theorem readMagnitude_toDigits (n : Nat) : readMagnitude (Nat.toDigits 10 n) = some (.decimal n 0) := by
  have hdigits : ∀ c ∈ Nat.toDigits 10 n, c.isDigit = true := fun _ => isDigit_of_mem_toDigits
  have hlower : (Nat.toDigits 10 n).map Char.toLower = Nat.toDigits 10 n := by
    have hall : (['0', '1', '2', '3', '4', '5', '6', '7', '8', '9'].all fun c => c.toLower == c) = true := by decide +kernel
    refine (List.map_congr_left fun c hc => ?_).trans (List.map_id _)
    exact eq_of_beq (List.all_eq_true.1 hall c (mem_digits (hdigits c hc)))
  have hword {word : String} (c : Char) (hc : c ∈ word.toList) (hletter : c.isDigit = false) :
      String.ofList (Nat.toDigits 10 n) ≠ word := by
    rintro rfl
    rw [String.toList_ofList] at hc
    rw [hdigits c hc] at hletter
    nomatch hletter
  unfold readMagnitude
  rw [hlower]
  split
  · rename_i h
    exact absurd h (hword 'i' (by decide) rfl)
  · rename_i h
    exact absurd h (hword 'i' (by decide) rfl)
  · rename_i h
    exact absurd h (hword 'n' (by decide) rfl)
  have hvalue : natOfDigits (Nat.toDigits 10 n) = n := Nat.ofDigitChars_toDigits (by decide) (by decide)
  have hwhole : (Nat.toDigits 10 n ++ []).takeWhile Char.isDigit = Nat.toDigits 10 n ++ [] :=
    List.takeWhile_append_of_pos hdigits
  have hrest : (Nat.toDigits 10 n ++ []).dropWhile Char.isDigit = [] := List.dropWhile_append_of_pos hdigits
  rw [List.append_nil] at hwhole hrest
  unfold readDecimal
  rw [hwhole, hrest]
  simp [hvalue]

end QuantityCalculus.Decimal
