import QuantityCalculus.Algebra
import QuantityCalculus.Proofs.Binary64.ExactIntegers
import QuantityCalculus.Proofs.Evaluation.Outcome

/-!
# Operations on the bits of doubles

A double is taken as an integer just if its value is one of a magnitude up to `2 ^ 53` (`Algebra.toInteger_eq_ok_iff`). The bits of two
such integers make an integer of a magnitude up to `2 ^ 54`, which is a double unless it is odd and beyond `2 ^ 53`
(`Algebra.value?_ofInt_iff`). That happens with `2 ^ 53` itself only, which needs one place more than the negated integer and all others.
-/

namespace QuantityCalculus.Algebra

open Outcome

/-! ## Bits of integers -/

/-- The bits of an integer within `w` places are these places with the sign in front. -/
theorem ofInt_eq_signExtend {w : ℕ} (hw : 0 < w) {n : ℤ} (h : -2 ^ (w - 1) ≤ n ∧ n < 2 ^ (w - 1)) :
    BitVec.ofInt 64 n = (BitVec.ofInt w n).signExtend 64 := by
  rw [BitVec.signExtend, BitVec.toInt_ofInt_eq_self hw h.1 h.2]

/-- An operation that goes place by place stays within the places of its operands. -/
theorem onBits_bounds {f : {w : ℕ} → BitVec w → BitVec w → BitVec w} {w : ℕ}
    (hf : ∀ x y : BitVec w, (f x y).signExtend 64 = f (x.signExtend 64) (y.signExtend 64)) (hw : 0 < w) (hle : w ≤ 64) {i j : ℤ}
    (hi : -2 ^ (w - 1) ≤ i ∧ i < 2 ^ (w - 1)) (hj : -2 ^ (w - 1) ≤ j ∧ j < 2 ^ (w - 1)) :
    -2 ^ (w - 1) ≤ onBits f i j ∧ onBits f i j < 2 ^ (w - 1) := by
  have hbits : onBits f i j = (f (BitVec.ofInt w i) (BitVec.ofInt w j)).toInt := by
    rw [onBits, ofInt_eq_signExtend hw hi, ofInt_eq_signExtend hw hj, ← hf, BitVec.toInt_signExtend_of_le hle]
  rw [hbits]
  exact ⟨BitVec.le_toInt _, BitVec.toInt_lt⟩

/-- An integer is even if its last bit is zero. -/
theorem two_dvd_toInt_iff {x : BitVec 64} : 2 ∣ x.toInt ↔ x.getLsbD 0 = false := by
  have hbit : x.getLsbD 0 = decide (x.toNat % 2 = 1) := by
    simp [BitVec.getLsbD]
  rw [hbit, BitVec.toInt_eq_toNat_cond, decide_eq_false_iff_not]
  split <;> omega

/-- The last bit of an even integer is zero. -/
theorem getLsbD_ofInt_zero {n : ℤ} : (BitVec.ofInt 64 n).getLsbD 0 = false ↔ 2 ∣ n := by
  have hbit : (BitVec.ofInt 64 n).getLsbD 0 = decide ((BitVec.ofInt 64 n).toNat % 2 = 1) := by
    simp [BitVec.getLsbD]
  rw [hbit, BitVec.toNat_ofInt, decide_eq_false_iff_not]
  omega

section

variable {i j : ℤ}

/-- What is common to two integers is even if one of them is. -/
theorem two_dvd_onBits_and : 2 ∣ onBits (· &&& ·) i j ↔ 2 ∣ i ∨ 2 ∣ j := by
  rw [onBits, two_dvd_toInt_iff, BitVec.getLsbD_and, Bool.and_eq_false_iff, getLsbD_ofInt_zero, getLsbD_ofInt_zero]

/-- What is in either of two integers is even if both are. -/
theorem two_dvd_onBits_or : 2 ∣ onBits (· ||| ·) i j ↔ 2 ∣ i ∧ 2 ∣ j := by
  rw [onBits, two_dvd_toInt_iff, BitVec.getLsbD_or, Bool.or_eq_false_iff, getLsbD_ofInt_zero, getLsbD_ofInt_zero]

/-- What differs in two integers is even if both are or neither is. -/
theorem two_dvd_onBits_xor : 2 ∣ onBits (· ^^^ ·) i j ↔ (2 ∣ i ↔ 2 ∣ j) := by
  rw [onBits, two_dvd_toInt_iff, BitVec.getLsbD_xor, ← getLsbD_ofInt_zero (n := i), ← getLsbD_ofInt_zero (n := j)]
  cases (BitVec.ofInt 64 i).getLsbD 0 <;> cases (BitVec.ofInt 64 j).getLsbD 0 <;> decide

/-- The integer with all bits reversed. -/
theorem toInt_not_ofInt (h : -2 ^ 63 ≤ i ∧ i < 2 ^ 63) : (~~~BitVec.ofInt 64 i).toInt = bitNot i := by
  have hbits : ~~~BitVec.ofInt 64 i = BitVec.ofInt 64 (bitNot i) := by
    cases i with
    | ofNat n =>
      have hnot : bitNot (Int.ofNat n) = Int.negSucc n := by
        change -(n : ℤ) - 1 = Int.negSucc n
        rw [Int.negSucc_eq]
        omega
      rw [hnot, BitVec.ofInt_negSucc_eq_not_ofNat]
      rfl
    | negSucc n =>
      have hnot : bitNot (Int.negSucc n) = n := by
        rw [bitNot, Int.negSucc_eq]
        omega
      rw [hnot, BitVec.ofInt_negSucc_eq_not_ofNat, BitVec.not_not]
      rfl
  rw [hbits, BitVec.toInt_ofInt_eq_self (by decide) (by unfold bitNot; omega) (by unfold bitNot; omega)]

/-! ## The place of `2 ^ 53` -/

/-- The integer that only the place is set in. -/
theorem ofInt_two_pow : BitVec.ofInt 64 (2 ^ 53) = BitVec.twoPow 64 53 := by
  decide

/-- The place is set in the negative integers that do not go beyond it, and in no others. -/
theorem getLsbD_ofInt_place (h : -2 ^ 53 ≤ j ∧ j < 2 ^ 53) : (BitVec.ofInt 64 j).getLsbD 53 = decide (j < 0) := by
  have hmsb : (BitVec.ofInt 54 j).getLsbD 53 = (BitVec.ofInt 54 j).msb := rfl
  rw [ofInt_eq_signExtend (w := 54) (by decide) h, BitVec.getLsbD_signExtend]
  simp only [Nat.reduceLT, decide_true, if_true, Bool.true_and]
  rw [hmsb, BitVec.msb_eq_toInt, BitVec.toInt_ofInt_eq_self (by decide) h.1 h.2]

/-- A negative integer stays as it is when the place is set. -/
theorem onBits_or_of_neg (h : -2 ^ 53 ≤ j) (hneg : j < 0) : onBits (· ||| ·) (2 ^ 53) j = j := by
  have hplace : (BitVec.ofInt 64 j).getLsbD 53 = true := by
    rw [getLsbD_ofInt_place ⟨h, by omega⟩, decide_eq_true hneg]
  have hand : BitVec.ofInt 64 j &&& BitVec.twoPow 64 53 = BitVec.twoPow 64 53 := by
    rw [BitVec.and_twoPow, if_pos hplace]
  have hor : BitVec.twoPow 64 53 ||| BitVec.ofInt 64 j = BitVec.ofInt 64 j := by
    refine BitVec.eq_of_getLsbD_eq fun k _ => ?_
    have hbit := congrArg (·.getLsbD k) hand
    simp only [BitVec.getLsbD_and] at hbit
    rw [BitVec.getLsbD_or, ← hbit]
    cases (BitVec.ofInt 64 j).getLsbD k <;> cases (BitVec.twoPow 64 53).getLsbD k <;> rfl
  rw [onBits, ofInt_two_pow, hor, BitVec.toInt_ofInt_eq_self (by decide) (by omega) (by omega)]

/-- An integer that is not negative goes to `2 ^ 53` at least when the place is set. -/
theorem le_onBits_or (h : 0 ≤ j) (hlt : j < 2 ^ 53) : 2 ^ 53 ≤ onBits (· ||| ·) (2 ^ 53) j := by
  obtain ⟨n, rfl⟩ := Int.eq_ofNat_of_zero_le h
  have hn : n < 2 ^ 53 := by omega
  have hbits : (BitVec.ofInt 64 (2 ^ 53) ||| BitVec.ofInt 64 (n : ℤ)).toNat = 2 ^ 53 ||| n := by
    rw [BitVec.toNat_or, BitVec.toNat_ofInt, BitVec.toNat_ofInt]
    congr 1
    omega
  have hlow : 2 ^ 53 ≤ 2 ^ 53 ||| n := Nat.left_le_or
  have hhigh : 2 ^ 53 ||| n < 2 ^ 54 := Nat.or_lt_two_pow (by decide) (by omega)
  change 2 ^ 53 ≤ (BitVec.ofInt 64 (2 ^ 53) ||| BitVec.ofInt 64 (n : ℤ)).toInt
  rw [BitVec.toInt_eq_toNat_of_lt (by rw [hbits]; omega), hbits]
  omega

/-- An integer within the place goes beyond when the place is reversed. -/
theorem onBits_xor_beyond (h : -2 ^ 53 ≤ j ∧ j < 2 ^ 53) :
    ¬(-2 ^ 53 ≤ onBits (· ^^^ ·) (2 ^ 53) j ∧ onBits (· ^^^ ·) (2 ^ 53) j < 2 ^ 53) := by
  intro hwithin
  have hback : onBits (· ^^^ ·) (onBits (· ^^^ ·) (2 ^ 53) j) j = 2 ^ 53 := by
    have htwice : BitVec.ofInt 64 (2 ^ 53) ^^^ BitVec.ofInt 64 j ^^^ BitVec.ofInt 64 j = BitVec.ofInt 64 (2 ^ 53) := by
      rw [BitVec.xor_assoc, BitVec.xor_self, BitVec.xor_zero]
    unfold onBits
    rw [BitVec.ofInt_toInt]
    exact (congrArg BitVec.toInt htwice).trans (by decide)
  have hbounds := onBits_bounds (f := (· ^^^ ·)) (w := 54) (fun _ _ => BitVec.signExtend_xor) (by decide) (by decide) hwithin h
  rw [hback] at hbounds
  exact absurd hbounds.2 (by decide)

/-- What does not depend on the order of bits does not depend on that of integers. -/
theorem onBits_comm {f : BitVec 64 → BitVec 64 → BitVec 64} (hf : ∀ x y, f x y = f y x) (i j : ℤ) : onBits f i j = onBits f j i := by
  rw [onBits, hf, onBits]

end

/-! ## Integers that are accepted -/

open Binary64

/-- A double is taken as an integer if that is its value, up to `2 ^ 53` in magnitude. -/
theorem toInteger_eq_ok_iff {name : String} {x : Float} {i : ℤ} :
    toInteger name x = .ok i ↔ value? x = some (i : ℚ) ∧ |i| ≤ 2 ^ 53 := by
  have hmax : value? (Numeric.ofInt maxExactInteger) = some ((2 ^ 53 : ℤ) : ℚ) :=
    value?_ofInt (.inr ⟨by decide, by decide⟩)
  have hbound {v : ℚ} (hv : value? x = some v) (hvi : v = i) : Numeric.abs x ≤ Numeric.ofInt maxExactInteger ↔ |i| ≤ 2 ^ 53 := by
    rw [le_iff_value (value?_abs hv) hmax, hvi]
    exact_mod_cast Iff.rfl
  unfold toInteger
  constructor
  · intro h
    split at h
    · rename_i haccepted
      obtain ⟨hfinite, hfract, habs⟩ := haccepted
      obtain rfl := Except.ok.inj h
      obtain ⟨v, hv⟩ := isFinite_iff.1 hfinite
      have hvi := (fract_beq_zero_iff hv).1 hfract
      exact ⟨by rw [hv, hvi]; rfl, (hbound hv hvi).1 habs⟩
    · nomatch h
  · rintro ⟨hv, hle⟩
    have htruncate := truncate_of_value? hv
    rw [if_pos ⟨isFinite_iff.2 ⟨_, hv⟩, (fract_beq_zero_iff hv).2 (by rw [htruncate]), (hbound hv rfl).2 hle⟩]
    exact congrArg Except.ok htruncate

/-- What one operator takes as an integer every operator does. -/
theorem toInteger_under {name : String} (name' : String) {x : Float} {i : ℤ} (h : toInteger name x = .ok i) :
    toInteger name' x = .ok i :=
  toInteger_eq_ok_iff.2 (toInteger_eq_ok_iff.1 h)

/-- An integer up to `2 ^ 54` in magnitude is the value of its double unless it is odd and beyond `2 ^ 53`. -/
theorem value?_ofInt_iff {n : ℤ} (h : |n| ≤ 2 ^ 54) :
    value? (Numeric.ofInt n : Float) = some (n : ℚ) ↔ 2 ∣ n ∨ |n| < 2 ^ 53 := by
  constructor
  · intro hvalue
    by_contra hnot
    obtain ⟨hodd, hle⟩ := not_or.1 hnot
    refine value?_ne_of_odd _ hodd (lt_of_le_of_ne (not_lt.1 hle) fun heq => hodd ?_) hvalue
    rw [← dvd_abs, ← heq]
    decide
  · rintro (heven | hlt)
    · exact value?_ofInt (.inr ⟨heven, h⟩)
    · exact value?_ofInt (.inl hlt)

/-! ## Exact results -/

section

variable {c : Catalog Float} {name : String} {x y : Float} {i j : ℤ}

/-- An operation on two integers that are accepted gives the double of its result. -/
theorem onIntegers_number (op : BinaryOp) (f : ℤ → ℤ → ℤ) (hx : toInteger name x = .ok i) (hy : toInteger name y = .ok j) :
    onIntegers c op f (.number x) (.number y) = .ok (.number (Numeric.ofInt (f i j))) := by
  simp [onIntegers, onNumbers, lift, mapElements, toInteger_under op.symbol hx, toInteger_under op.symbol hy, Except.map]

/-- All bits of an integer that is accepted are reversed to the double of the result. -/
theorem unary_bitNot_number (hx : toInteger name x = .ok i) :
    unary c .bitNot (.number x) = .ok (.number (Numeric.ofInt (bitNot i))) := by
  simp [unary, onNumber, mapElements, toInteger_under UnaryOp.bitNot.symbol hx, Except.map]

/-- The integers that are accepted have 55 places. -/
theorem bounds_of_abs_le {n : ℤ} (h : |n| ≤ 2 ^ 53) : -2 ^ (55 - 1) ≤ n ∧ n < 2 ^ (55 - 1) := by
  have := abs_le.1 h
  omega

/-- All but the greatest of the integers that are accepted have 54 places. -/
theorem bounds_of_ne {n : ℤ} (h : |n| ≤ 2 ^ 53) (hne : n ≠ 2 ^ 53) : -2 ^ (54 - 1) ≤ n ∧ n < 2 ^ (54 - 1) := by
  have := abs_le.1 h
  omega

/-- An odd integer is not `2 ^ 53`. -/
theorem ne_of_odd {n : ℤ} (hodd : ¬2 ∣ n) : n ≠ 2 ^ 53 := by
  rintro rfl
  exact hodd (by decide)

variable {f : {w : ℕ} → BitVec w → BitVec w → BitVec w}

/-- What an operation that goes place by place makes of accepted integers is the value of a double unless it is odd and beyond
`2 ^ 53`. -/
theorem value?_onBits_iff (hf : ∀ {w : ℕ} (x y : BitVec w), (f x y).signExtend 64 = f (x.signExtend 64) (y.signExtend 64))
    (hi : |i| ≤ 2 ^ 53) (hj : |j| ≤ 2 ^ 53) :
    value? (Numeric.ofInt (onBits f i j) : Float) = some (onBits f i j : ℚ) ↔ 2 ∣ onBits f i j ∨ |onBits f i j| < 2 ^ 53 := by
  have hbounds := onBits_bounds hf (by decide) (by decide) (bounds_of_abs_le hi) (bounds_of_abs_le hj)
  exact value?_ofInt_iff (abs_le.2 ⟨hbounds.1, hbounds.2.le⟩)

/-- Without the greatest of the accepted integers, what such an operation makes of them is the value of a double. -/
theorem value?_onBits_of_ne (hf : ∀ {w : ℕ} (x y : BitVec w), (f x y).signExtend 64 = f (x.signExtend 64) (y.signExtend 64))
    (hi : |i| ≤ 2 ^ 53) (hj : |j| ≤ 2 ^ 53) (hine : i ≠ 2 ^ 53) (hjne : j ≠ 2 ^ 53) :
    value? (Numeric.ofInt (onBits f i j) : Float) = some (onBits f i j : ℚ) := by
  have hbounds := onBits_bounds hf (by decide) (by decide) (bounds_of_ne hi hine) (bounds_of_ne hj hjne)
  rw [value?_onBits_iff hf hi hj, or_iff_not_imp_left]
  intro hodd
  refine abs_lt.2 ⟨lt_of_le_of_ne hbounds.1 fun heq => hodd ?_, hbounds.2⟩
  rw [← heq]
  decide

/-- What is common to two accepted integers is the value of a double: it is odd only if both are. -/
theorem value?_and (hi : |i| ≤ 2 ^ 53) (hj : |j| ≤ 2 ^ 53) :
    value? (Numeric.ofInt (onBits (· &&& ·) i j) : Float) = some (onBits (· &&& ·) i j : ℚ) := by
  by_cases heven : 2 ∣ i ∨ 2 ∣ j
  · exact (value?_onBits_iff (f := (· &&& ·)) (fun _ _ => BitVec.signExtend_and) hi hj).2 (.inl (two_dvd_onBits_and.2 heven))
  · obtain ⟨hiodd, hjodd⟩ := not_or.1 heven
    exact value?_onBits_of_ne (f := (· &&& ·)) (fun _ _ => BitVec.signExtend_and) hi hj (ne_of_odd hiodd) (ne_of_odd hjodd)

/-- With `2 ^ 53`, what is in either of two integers is the value of a double unless the other one is positive and odd. -/
theorem value?_or_two_pow_iff (hj : |j| ≤ 2 ^ 53) :
    value? (Numeric.ofInt (onBits (· ||| ·) (2 ^ 53) j) : Float) = some (onBits (· ||| ·) (2 ^ 53) j : ℚ) ↔ ¬(0 < j ∧ ¬2 ∣ j) := by
  rw [value?_onBits_iff (f := (· ||| ·)) (fun _ _ => BitVec.signExtend_or) (by decide) hj, two_dvd_onBits_or]
  by_cases heven : 2 ∣ j
  · exact iff_of_true (.inl ⟨by decide, heven⟩) fun h => h.2 heven
  have hodd : ¬(2 ∣ (2 ^ 53 : ℤ) ∧ 2 ∣ j) := fun h => heven h.2
  obtain ⟨hlow, hhigh⟩ := bounds_of_ne hj (ne_of_odd heven)
  rw [or_iff_right hodd, and_iff_left heven, not_lt]
  constructor
  · intro hlt
    by_contra hpos
    exact absurd (le_onBits_or (not_le.1 hpos).le hhigh) (not_le.2 (abs_lt.1 hlt).2)
  · intro hle
    have hneg : j < 0 := lt_of_le_of_ne hle fun hzero => heven (hzero ▸ dvd_zero 2)
    rw [onBits_or_of_neg hlow hneg, abs_lt]
    exact ⟨lt_of_le_of_ne hlow fun heq => heven (heq ▸ by decide), hhigh⟩

/-- With `2 ^ 53`, what differs in two integers is the value of a double unless the other one is odd. -/
theorem value?_xor_two_pow_iff (hj : |j| ≤ 2 ^ 53) :
    value? (Numeric.ofInt (onBits (· ^^^ ·) (2 ^ 53) j) : Float) = some (onBits (· ^^^ ·) (2 ^ 53) j : ℚ) ↔ 2 ∣ j := by
  have heven : 2 ∣ (2 ^ 53 : ℤ) := by decide
  rw [value?_onBits_iff (f := (· ^^^ ·)) (fun _ _ => BitVec.signExtend_xor) (by decide) hj, two_dvd_onBits_xor, iff_true_left heven]
  refine or_iff_left_of_imp fun hlt => ?_
  by_contra hodd
  have hbounds := abs_lt.1 hlt
  exact onBits_xor_beyond (bounds_of_ne hj (ne_of_odd hodd)) ⟨hbounds.1.le, hbounds.2⟩

/-- What is in either of two accepted integers is the value of a double unless one is `2 ^ 53` and the other is positive and odd. -/
theorem value?_or_iff (hi : |i| ≤ 2 ^ 53) (hj : |j| ≤ 2 ^ 53) :
    value? (Numeric.ofInt (onBits (· ||| ·) i j) : Float) = some (onBits (· ||| ·) i j : ℚ) ↔
      ¬(i = 2 ^ 53 ∧ 0 < j ∧ ¬2 ∣ j ∨ j = 2 ^ 53 ∧ 0 < i ∧ ¬2 ∣ i) := by
  have heven : 2 ∣ (2 ^ 53 : ℤ) := by decide
  by_cases hi' : i = 2 ^ 53
  · subst hi'
    refine (value?_or_two_pow_iff hj).trans (not_congr ⟨fun h => .inl ⟨rfl, h⟩, ?_⟩)
    rintro (⟨-, h⟩ | ⟨-, -, hodd⟩)
    · exact h
    · exact absurd heven hodd
  by_cases hj' : j = 2 ^ 53
  · subst hj'
    rw [onBits_comm BitVec.or_comm]
    refine (value?_or_two_pow_iff hi).trans (not_congr ⟨fun h => .inr ⟨rfl, h⟩, ?_⟩)
    rintro (⟨-, -, hodd⟩ | ⟨-, h⟩)
    · exact absurd heven hodd
    · exact h
  · exact iff_of_true (value?_onBits_of_ne (f := (· ||| ·)) (fun _ _ => BitVec.signExtend_or) hi hj hi' hj')
      fun h => h.elim (fun h => hi' h.1) fun h => hj' h.1

/-- What differs in two accepted integers is the value of a double unless one is `2 ^ 53` and the other is odd. -/
theorem value?_xor_iff (hi : |i| ≤ 2 ^ 53) (hj : |j| ≤ 2 ^ 53) :
    value? (Numeric.ofInt (onBits (· ^^^ ·) i j) : Float) = some (onBits (· ^^^ ·) i j : ℚ) ↔
      ¬(i = 2 ^ 53 ∧ ¬2 ∣ j ∨ j = 2 ^ 53 ∧ ¬2 ∣ i) := by
  have heven : 2 ∣ (2 ^ 53 : ℤ) := by decide
  by_cases hi' : i = 2 ^ 53
  · subst hi'
    rw [value?_xor_two_pow_iff hj]
    refine iff_not_comm.1 ⟨?_, fun h => .inl ⟨rfl, h⟩⟩
    rintro (⟨-, h⟩ | ⟨-, hodd⟩)
    · exact h
    · exact absurd heven hodd
  by_cases hj' : j = 2 ^ 53
  · subst hj'
    rw [onBits_comm BitVec.xor_comm, value?_xor_two_pow_iff hi]
    refine iff_not_comm.1 ⟨?_, fun h => .inr ⟨rfl, h⟩⟩
    rintro (⟨-, hodd⟩ | ⟨-, h⟩)
    · exact absurd heven hodd
    · exact h
  · exact iff_of_true (value?_onBits_of_ne (f := (· ^^^ ·)) (fun _ _ => BitVec.signExtend_xor) hi hj hi' hj')
      fun h => h.elim (fun h => hi' h.1) fun h => hj' h.1

/-- The integer with all bits reversed is the value of a double unless the integer is `2 ^ 53`. -/
theorem value?_bitNot_iff (hi : |i| ≤ 2 ^ 53) :
    value? (Numeric.ofInt (bitNot i) : Float) = some (bitNot i : ℚ) ↔ i ≠ 2 ^ 53 := by
  have hbounds := abs_le.1 hi
  have hnot : |bitNot i| ≤ 2 ^ 54 := abs_le.2 ⟨by unfold bitNot; omega, by unfold bitNot; omega⟩
  rw [value?_ofInt_iff hnot, abs_lt]
  unfold bitNot
  omega

/-- The operations on bits of two numbers that are accepted as integers succeed. What is common to the integers is exact. What is in
either is exact unless one is `2 ^ 53` and the other positive and odd, what differs unless one is `2 ^ 53` and the other odd, and all
bits reversed unless the integer is `2 ^ 53`. -/
theorem bits_exact_unless_beyond (hx : toInteger name x = .ok i) (hy : toInteger name y = .ok j) :
    value? x = some (i : ℚ) ∧ value? y = some (j : ℚ) ∧
    (∃ z, binary c .bitAnd (.number x) (.number y) = .ok (.number z) ∧
      value? z = some ((BitVec.ofInt 64 i &&& BitVec.ofInt 64 j).toInt : ℚ)) ∧
    (∃ z, binary c .bitOr (.number x) (.number y) = .ok (.number z) ∧
      (value? z = some ((BitVec.ofInt 64 i ||| BitVec.ofInt 64 j).toInt : ℚ) ↔
        ¬(i = 2 ^ 53 ∧ 0 < j ∧ ¬2 ∣ j ∨ j = 2 ^ 53 ∧ 0 < i ∧ ¬2 ∣ i))) ∧
    (∃ z, binary c .bitXor (.number x) (.number y) = .ok (.number z) ∧
      (value? z = some ((BitVec.ofInt 64 i ^^^ BitVec.ofInt 64 j).toInt : ℚ) ↔
        ¬(i = 2 ^ 53 ∧ ¬2 ∣ j ∨ j = 2 ^ 53 ∧ ¬2 ∣ i))) ∧
    ∃ z, unary c .bitNot (.number x) = .ok (.number z) ∧
      (value? z = some ((~~~BitVec.ofInt 64 i).toInt : ℚ) ↔ i ≠ 2 ^ 53) := by
  obtain ⟨hvx, hi⟩ := toInteger_eq_ok_iff.1 hx
  obtain ⟨hvy, hj⟩ := toInteger_eq_ok_iff.1 hy
  have hbits := abs_le.1 hi
  refine ⟨hvx, hvy, ⟨_, onIntegers_number .bitAnd _ hx hy, value?_and hi hj⟩, ⟨_, onIntegers_number .bitOr _ hx hy, value?_or_iff hi hj⟩,
    ⟨_, onIntegers_number .bitXor _ hx hy, value?_xor_iff hi hj⟩, _, unary_bitNot_number hx, ?_⟩
  rw [toInt_not_ofInt ⟨by omega, by omega⟩]
  exact value?_bitNot_iff hi

/-- The bits of twelve and ten. -/
theorem bits_of_twelve_and_ten :
    toInteger "&" (12 : Float) = .ok 12 ∧ toInteger "&" (10 : Float) = .ok 10 ∧
    (∃ z, binary .empty .bitAnd (.number (12 : Float)) (.number 10) = .ok (.number z) ∧ value? z = some 8) ∧
    (∃ z, binary .empty .bitOr (.number (12 : Float)) (.number 10) = .ok (.number z) ∧ value? z = some 14) ∧
    (∃ z, binary .empty .bitXor (.number (12 : Float)) (.number 10) = .ok (.number z) ∧ value? z = some 6) ∧
    ∃ z, unary .empty .bitNot (.number (12 : Float)) = .ok (.number z) ∧ value? z = some (-13) := by
  have hx : toInteger "&" (12 : Float) = .ok 12 := rfl
  have hy : toInteger "&" (10 : Float) = .ok 10 := rfl
  obtain ⟨-, -, ⟨z₁, h₁, hand⟩, ⟨z₂, h₂, hor⟩, ⟨z₃, h₃, hxor⟩, z₄, h₄, hnot⟩ := bits_exact_unless_beyond (c := .empty) hx hy
  refine ⟨hx, hy, ⟨z₁, h₁, ?_⟩, ⟨z₂, h₂, ?_⟩, ⟨z₃, h₃, ?_⟩, z₄, h₄, ?_⟩
  · exact hand.trans (congrArg some (by decide))
  · exact (hor.2 (by decide)).trans (congrArg some (by decide))
  · exact (hxor.2 (by decide)).trans (congrArg some (by decide))
  · exact (hnot.2 (by decide)).trans (congrArg some (by decide))

/-- What is in `2 ^ 53` or in one is an integer that no double has as its value. -/
theorem two_pow_or_one_inexact :
    toInteger "|" (9007199254740992 : Float) = .ok (2 ^ 53) ∧ toInteger "|" (1 : Float) = .ok 1 ∧
    ∃ z, binary .empty .bitOr (.number (9007199254740992 : Float)) (.number 1) = .ok (.number z) ∧
      value? z ≠ some ((BitVec.ofInt 64 (2 ^ 53) ||| BitVec.ofInt 64 1).toInt : ℚ) := by
  have hx : toInteger "|" (9007199254740992 : Float) = .ok (2 ^ 53) := rfl
  have hy : toInteger "|" (1 : Float) = .ok 1 := rfl
  exact ⟨hx, hy, _, onIntegers_number .bitOr _ hx hy, fun h => (value?_or_two_pow_iff (by decide)).1 h (by decide)⟩

end

end QuantityCalculus.Algebra
