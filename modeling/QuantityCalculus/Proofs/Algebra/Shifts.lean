import QuantityCalculus.Proofs.Algebra.Bits

/-!
# Shifts of doubles

A shift multiplies by a power of two within 64 places, or divides by one and takes the integer not above the quotient
(`Algebra.shiftLeft_eq_shifted`). Of an integer up to `2 ^ 53` in magnitude, what is left within the places is an integer up to `2 ^ 53`
with zeros after it (`Algebra.exists_shifted_eq`), so it is a double.
-/

namespace QuantityCalculus.Algebra

open Binary64

/-- An integer times a power of two, modulo `2 ^ 64` and with a sign. For a negative exponent, the integer not above the quotient. -/
def shifted (i j : ℤ) : ℤ := if 0 ≤ j then (i * 2 ^ j.toNat).bmod (2 ^ 64) else ⌊(i : ℚ) / 2 ^ j.natAbs⌋

section

variable {i j : ℤ}

/-! ## Bits that are moved -/

/-- Bits moved to the left are those of the product. -/
theorem toInt_shiftLeft_ofInt (i : ℤ) (n : ℕ) : (BitVec.ofInt 64 i <<< n).toInt = (i * 2 ^ n).bmod (2 ^ 64) := by
  have hpos : (0 : ℤ) ≤ i % (2 ^ 64 : ℕ) := Int.emod_nonneg _ (by decide)
  have hcast : (((i % (2 ^ 64 : ℕ)).toNat * 2 ^ n : ℕ) : ℤ) = i % (2 ^ 64 : ℕ) * 2 ^ n := by
    rw [Nat.cast_mul, Int.toNat_of_nonneg hpos, Nat.cast_pow 2 n, Nat.cast_ofNat]
  rw [BitVec.toInt_shiftLeft, BitVec.toNat_ofInt, Nat.shiftLeft_eq, hcast]
  exact Int.emod_mul_bmod ..

/-- The quotient by a power of two as an integer. -/
theorem floor_div_two_pow (i : ℤ) (n : ℕ) : ⌊(i : ℚ) / 2 ^ n⌋ = i / 2 ^ n := by
  have hfloor := Rat.floor_intCast_div_natCast i (2 ^ n)
  push_cast at hfloor
  exact hfloor

/-- Bits moved to the right are those of the quotient. -/
theorem toInt_sshiftRight_ofInt (h : -2 ^ 63 ≤ i ∧ i < 2 ^ 63) (n : ℕ) :
    ((BitVec.ofInt 64 i).sshiftRight n).toInt = ⌊(i : ℚ) / 2 ^ n⌋ := by
  rw [BitVec.toInt_sshiftRight, BitVec.toInt_ofInt_eq_self (by decide) h.1 h.2, Int.shiftRight_eq_div_pow, floor_div_two_pow]
  push_cast
  rfl

/-- Of an integer of 64 bits, the last quotient that is not the one before it is that by `2 ^ 63`. -/
theorem div_two_pow_of_le (h : -2 ^ 63 ≤ i ∧ i < 2 ^ 63) {n : ℕ} (hn : 63 ≤ n) : i / 2 ^ n = i / 2 ^ 63 := by
  obtain ⟨k, rfl⟩ := Nat.exists_eq_add_of_le hn
  have hlast : i / 2 ^ 63 = 0 ∨ i / 2 ^ 63 = -1 := by omega
  have hpos : (0 : ℤ) < 2 ^ k := by positivity
  rw [pow_add, ← Int.ediv_ediv_of_nonneg (by decide)]
  rcases hlast with hlast | hlast <;> rw [hlast]
  · exact Int.zero_ediv _
  · rw [Int.ediv_eq_iff_of_pos hpos]
    omega

/-- A shift multiplies by a power of two within 64 places, or divides by one. -/
theorem shiftLeft_eq_shifted (h : -2 ^ 63 ≤ i ∧ i < 2 ^ 63) (j : ℤ) : shiftLeft i j = shifted i j := by
  unfold shiftLeft shifted
  by_cases hleft : 0 ≤ j
  · rw [if_pos hleft, if_pos hleft]
    by_cases hplaces : j < 64
    · rw [if_pos hplaces, toInt_shiftLeft_ofInt]
    · -- All bits are moved out, and the product is a multiple of `2 ^ 64`.
      have hdvd : ((2 ^ 64 : ℕ) : ℤ) ∣ i * 2 ^ j.toNat := (pow_dvd_pow 2 (by omega)).mul_left i
      rw [if_neg hplaces, Int.bmod_eq_zero_of_dvd hdvd]
  · rw [if_neg hleft, if_neg hleft, toInt_sshiftRight_ofInt h, floor_div_two_pow, floor_div_two_pow]
    by_cases hplaces : j.natAbs ≤ 63
    · rw [min_eq_left hplaces]
    · rw [min_eq_right (by omega), div_two_pow_of_le h (n := j.natAbs) (by omega)]

/-- A shift to the right is one to the left by the negated amount. -/
theorem shiftRight_eq_shiftLeft (h : |j| ≤ 2 ^ 53) (i : ℤ) : shiftRight i j = shiftLeft i (-j) := by
  have hbounds := abs_le.1 h
  have hmin : min (-j) maxInteger = -j := min_eq_left (by unfold maxInteger; omega)
  rw [shiftRight, hmin]

/-! ## Exact results -/

/-- Going around does not add to a magnitude. -/
theorem abs_bmod_le (i : ℤ) {n : ℕ} (hn : 0 < n) : |i.bmod n| ≤ |i| := by
  have hlow := Int.le_bmod (x := i) hn
  have hhigh := Int.bmod_lt (x := i) hn
  by_cases hwithin : -((n : ℤ) / 2) ≤ i ∧ i < (n + 1) / 2
  · rw [Int.bmod_eq_of_le hwithin.1 hwithin.2]
  · rw [abs_le, ← Int.natCast_natAbs]
    omega

/-- What is shifted is an integer up to `2 ^ 53` in magnitude, with zeros after it. -/
theorem exists_shifted_eq (hi : |i| ≤ 2 ^ 53) (j : ℤ) : ∃ (m : ℤ) (k : ℕ), |m| ≤ 2 ^ 53 ∧ k ≤ 64 ∧ shifted i j = m * 2 ^ k := by
  unfold shifted
  by_cases hleft : 0 ≤ j
  · rw [if_pos hleft]
    obtain ⟨k, rfl⟩ := Int.eq_ofNat_of_zero_le hleft
    rw [Int.toNat_natCast]
    by_cases hplaces : k < 64
    · refine ⟨i.bmod (2 ^ (64 - k)), k, (abs_bmod_le i (Nat.two_pow_pos _)).trans hi, hplaces.le, ?_⟩
      have hpow : 2 ^ k * 2 ^ (64 - k) = 2 ^ 64 := by rw [← pow_add, Nat.add_sub_cancel' hplaces.le]
      have hmul := Int.mod_bmod_mul_of_pos i (2 ^ (64 - k)) (Nat.two_pow_pos k) (dvd_pow_self 2 (by omega))
      rw [hpow, Nat.cast_pow, Nat.cast_ofNat] at hmul
      rw [mul_comm i, hmul, mul_comm]
    · have hdvd : ((2 ^ 64 : ℕ) : ℤ) ∣ i * 2 ^ k := (pow_dvd_pow 2 (by omega)).mul_left i
      exact ⟨0, 0, by decide, by decide, Int.bmod_eq_zero_of_dvd hdvd⟩
  · rw [if_neg hleft, floor_div_two_pow]
    refine ⟨i / 2 ^ j.natAbs, 0, le_trans ?_ hi, by decide, by rw [pow_zero, mul_one]⟩
    rw [← Int.natCast_natAbs, ← Int.natCast_natAbs]
    exact_mod_cast Int.natAbs_ediv_le_natAbs i (2 ^ j.natAbs)

end

section

variable {c : Catalog Float} {name : String} {x y : Float} {i j : ℤ}

/-- The negated amount is taken as the negated integer. -/
theorem toInteger_neg (hy : toInteger name y = .ok j) : toInteger name (-y) = .ok (-j) := by
  obtain ⟨hvalue, hle⟩ := toInteger_eq_ok_iff.1 hy
  refine toInteger_eq_ok_iff.2 ⟨?_, by rwa [abs_neg]⟩
  rw [value?_neg hvalue, Int.cast_neg]

/-- A number that is accepted is shifted by any amount that is accepted, and the result is exact. -/
theorem binary_shiftLeft_number (hx : toInteger name x = .ok i) (hy : toInteger name y = .ok j) :
    ∃ z, binary c .shiftLeft (.number x) (.number y) = .ok (.number z) ∧ value? z = some (shifted i j : ℚ) := by
  obtain ⟨-, hi⟩ := toInteger_eq_ok_iff.1 hx
  have hbounds := abs_le.1 hi
  obtain ⟨m, k, hm, hk, hshifted⟩ := exists_shifted_eq hi j
  refine ⟨_, onIntegers_number .shiftLeft shiftLeft hx hy, ?_⟩
  rw [shiftLeft_eq_shifted ⟨by omega, by omega⟩, hshifted]
  exact value?_ofInt_mul hm hk

/-- A shift to the right is one to the left by the negated amount, on numbers too. -/
theorem binary_shiftRight_number (hx : toInteger name x = .ok i) (hy : toInteger name y = .ok j) :
    binary c .shiftRight (.number x) (.number y) = binary c .shiftLeft (.number x) (.number (-y)) := by
  have hright := onIntegers_number (c := c) .shiftRight shiftRight hx hy
  have hleft := onIntegers_number (c := c) .shiftLeft shiftLeft hx (toInteger_neg hy)
  rw [shiftRight_eq_shiftLeft (toInteger_eq_ok_iff.1 hy).2] at hright
  exact hright.trans hleft.symm

/-- Shifts are multiplication and division by powers of two within 64 places. For any two numbers that are accepted as integers, both
shifts succeed and are exact; the one to the left multiplies, modulo `2 ^ 64` and with a sign, or gives the integer not above the
quotient if the amount is negative; and the one to the right is the one to the left by the negated amount. -/
theorem shifts_by_powers_of_two (hx : toInteger name x = .ok i) (hy : toInteger name y = .ok j) :
    (∃ z, binary c .shiftLeft (.number x) (.number y) = .ok (.number z) ∧
      value? z = some ((if 0 ≤ j then (i * 2 ^ j.toNat).bmod (2 ^ 64) else ⌊(i : ℚ) / 2 ^ j.natAbs⌋ : ℤ) : ℚ)) ∧
    (∃ z, binary c .shiftRight (.number x) (.number y) = .ok (.number z) ∧
      value? z = some ((if 0 < j then ⌊(i : ℚ) / 2 ^ j.natAbs⌋ else (i * 2 ^ j.natAbs).bmod (2 ^ 64) : ℤ) : ℚ)) ∧
    toInteger name (-y) = .ok (-j) ∧
    binary c .shiftRight (.number x) (.number y) = binary c .shiftLeft (.number x) (.number (-y)) := by
  have hneg := toInteger_neg hy
  refine ⟨binary_shiftLeft_number hx hy, ?_, hneg, binary_shiftRight_number hx hy⟩
  obtain ⟨z, hz, hvalue⟩ := binary_shiftLeft_number (c := c) hx hneg
  refine ⟨z, (binary_shiftRight_number hx hy).trans hz, hvalue.trans (congrArg some (congrArg Int.cast ?_))⟩
  unfold shifted
  by_cases hpos : 0 < j
  · rw [if_pos hpos, if_neg (by omega), Int.natAbs_neg]
  · rw [if_neg hpos, if_pos (by omega), show (-j).toNat = j.natAbs by omega]

/-- The greatest integer that is accepted, moved by ten places, goes around to the least one of 64 bits. -/
theorem shifts_of_two_pow :
    toInteger "<<" (9007199254740992 : Float) = .ok (2 ^ 53) ∧ toInteger "<<" (10 : Float) = .ok 10 ∧
    ∃ z, binary .empty .shiftLeft (.number (9007199254740992 : Float)) (.number 10) = .ok (.number z) ∧ value? z = some (-2 ^ 63) := by
  have hx : toInteger "<<" (9007199254740992 : Float) = .ok (2 ^ 53) := rfl
  have hy : toInteger "<<" (10 : Float) = .ok 10 := rfl
  obtain ⟨⟨z, hz, hvalue⟩, -⟩ := shifts_by_powers_of_two (c := .empty) hx hy
  exact ⟨hx, hy, z, hz, hvalue.trans (by decide)⟩

end

end QuantityCalculus.Algebra
