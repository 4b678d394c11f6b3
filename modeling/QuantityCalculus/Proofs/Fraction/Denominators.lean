import Mathlib.Algebra.Order.Ring.Nat
import Mathlib.Data.Nat.Log
import Mathlib.Data.Nat.Prime.Basic
import Mathlib.Tactic.FieldSimp
import Mathlib.Tactic.Positivity
import QuantityCalculus.Proofs.Binary64.Integers
import QuantityCalculus.Proofs.Fraction.Reading

/-!
# The denominators that are written

The search is over the allowed denominators, but what it finds is written in lowest terms. Denominators up to a bound and powers of two
are still allowed when they are reduced; an even denominator may become an odd one that is not. So a double is written with an allowed
denominator or an odd one of which twice as much is allowed (`denominator_of_write`), and the latter does occur: a third is found in
sixths. In exact arithmetic one over such a denominator is always written so (`write_inv_of_allowsOnlyTwice`).
-/

namespace QuantityCalculus.Fraction

open Binary64 Decimal Lexeme Text

/-! ## Reduced denominators -/

/-- The odd denominators of which only twice as much is allowed, as an even one. -/
def Bounds.AllowsOnlyTwice (b : Bounds) (q : ℕ) : Prop := Odd q ∧ b.all < q ∧ 2 * q ≤ b.even

namespace Bounds

variable {b : Bounds} {d q : ℕ}

/-- A denominator of which only twice as much is allowed is not allowed. -/
theorem AllowsOnlyTwice.not_allows (h : b.AllowsOnlyTwice q) : ¬b.Allows q := by
  rintro ⟨htwo, hall | ⟨heven, -⟩ | ⟨⟨k, rfl⟩, -⟩⟩
  · exact absurd h.2.1 (not_lt.2 hall)
  · exact (Nat.not_odd_iff_even.2 heven) h.1
  · cases k with
    | zero => omega
    | succ k => exact (Nat.not_odd_iff_even.2 ⟨2 ^ k, by rw [Nat.pow_succ]; omega⟩) h.1

/-- What divides an allowed denominator is allowed, or only twice as much is. -/
theorem allows_of_dvd (hd : d ∈ b.denominators) (hdvd : q ∣ d) (hq : 2 ≤ q) : b.Allows q ∨ b.AllowsOnlyTwice q := by
  have hpos := pos_of_mem_denominators hd
  have hle := Nat.le_of_dvd hpos hdvd
  rcases mem_denominators_iff.1 hd with rfl | ⟨-, hall | ⟨heven, hbound⟩ | ⟨⟨k, hk⟩, hbound⟩⟩
  · omega
  · exact .inl ⟨hq, .inl (hle.trans hall)⟩
  · rcases Nat.even_or_odd q with hqeven | hqodd
    · exact .inl ⟨hq, .inr (.inl ⟨hqeven, hle.trans hbound⟩)⟩
    · -- The cofactor of an odd divisor is even.
      have htwice : q * 2 ∣ d := Nat.Coprime.mul_dvd_of_dvd_of_dvd hqodd.coprime_two_right hdvd heven.two_dvd
      have hdouble := Nat.le_of_dvd hpos htwice
      rcases Nat.lt_or_ge b.all q with hall | hall
      · exact .inr ⟨hqodd, hall, by omega⟩
      · exact .inl ⟨hq, .inl hall⟩
  · obtain ⟨j, -, hj⟩ := (Nat.dvd_prime_pow Nat.prime_two).1 (hk ▸ hdvd)
    exact .inl ⟨hq, .inr (.inr ⟨⟨j, hj⟩, hle.trans hbound⟩)⟩

end Bounds

/-- A fraction that is neither zero nor one and below two is no integer. -/
theorem two_le_div_gcd {n d : ℕ} (hn : n ≠ 0) (hne : n ≠ d) (hlt : n < 2 * d) : 2 ≤ d / n.gcd d := by
  have hd : 0 < d := by omega
  have hpos : 0 < d / n.gcd d := Nat.div_pos (Nat.gcd_le_right n hd) (Nat.gcd_pos_of_pos_right n hd)
  by_contra hlow
  have hone : d / n.gcd d = 1 := by omega
  obtain ⟨c, hc⟩ : d ∣ n := by
    rw [← Nat.eq_of_dvd_of_div_eq_one (Nat.gcd_dvd_right n d) hone]
    exact Nat.gcd_dvd_left n d
  have hcases : c = 0 ∨ c = 1 ∨ 2 ≤ c := by omega
  rcases hcases with rfl | rfl | hc2
  · exact hn (by rw [hc, Nat.mul_zero])
  · exact hne (by rw [hc, Nat.mul_one])
  · have := Nat.mul_le_mul_left d hc2
    omega

/-! ## The search -/

/-- The search finds its start or the candidate of a denominator. -/
theorem nearest_induction {F : Type} [Numeric F] {P : Candidate F → Prop} {x : F} {ds : List ℕ}
    (hstart : P ⟨toNat x, 1, Numeric.abs (x - Numeric.ofNat (toNat x))⟩) (h : ∀ d ∈ ds, P (candidate x d)) : P (nearest x ds) := by
  unfold nearest
  dsimp only
  generalize (⟨toNat x, 1, Numeric.abs (x - Numeric.ofNat (toNat x))⟩ : Candidate F) = best at hstart
  induction ds generalizing best with
  | nil => exact hstart
  | cons d ds ih =>
    rw [List.foldl_cons]
    refine ih (fun d' hd' => h d' (List.mem_cons_of_mem _ hd')) _ ?_
    split
    · exact h d (List.mem_cons_self ..)
    · exact hstart

/-- The natural number that a double is rounded to passes no power of two that the double does not. -/
theorem toNat_le {x : Float} {k : ℕ} (h : magnitude x ≤ 2 ^ k) : toNat x ≤ 2 ^ k := truncate_le (magnitude_round_le h)

/-- The numerator for a double of at most one is less than twice the denominator, however the product is rounded. -/
theorem candidate_numerator_lt {x : Float} (hx : magnitude x ≤ 2 ^ 0) {d : ℕ} (hd : 0 < d) : (candidate x d).numerator < 2 * d := by
  have hle : (candidate x d).numerator ≤ 2 ^ Nat.clog 2 d := by
    refine toNat_le (magnitude_mul_le ?_)
    calc magnitude x * magnitude (Numeric.ofNat d) ≤ 2 ^ 0 * 2 ^ Nat.clog 2 d :=
          mul_le_mul hx (magnitude_ofNat_le (Nat.le_pow_clog one_lt_two d)) (magnitudeOf_nonneg _) (pow_nonneg zero_le_two _)
      _ = 2 ^ Nat.clog 2 d := by rw [pow_zero, one_mul]
  rcases Nat.eq_or_lt_of_le (Nat.one_le_iff_ne_zero.2 hd.ne') with rfl | hd'
  · rw [Nat.clog_one_right] at hle
    omega
  · have hlow := Nat.pow_pred_clog_lt_self one_lt_two hd'
    have hclog := Nat.clog_pos one_lt_two hd'
    obtain ⟨k, hk⟩ := Nat.exists_eq_succ_of_ne_zero hclog.ne'
    rw [hk] at hle hlow
    rw [Nat.pow_succ] at hle
    simp only [Nat.pred_succ] at hlow
    omega

/-- The fraction that is found for a double of at most one. -/
theorem nearest_of_magnitude_le {x : Float} (hx : magnitude x ≤ 2 ^ 0) (b : Bounds) :
    (nearest x b.denominators).denominator ∈ b.denominators ∧
      (nearest x b.denominators).numerator < 2 * (nearest x b.denominators).denominator := by
  refine nearest_induction (P := fun c => c.denominator ∈ b.denominators ∧ c.numerator < 2 * c.denominator) ⟨?_, ?_⟩
    fun d hd => ⟨hd, ?_⟩
  · exact Bounds.mem_denominators_iff.2 (.inl rfl)
  · exact lt_of_le_of_lt (toNat_le hx) Nat.one_lt_two
  · exact candidate_numerator_lt hx (Bounds.pos_of_mem_denominators hd)

/-! ## Terms -/

/-- The characters of a text without blanks and slashes. -/
theorem mem_of_all {text : String} (hall : (text.toList.all fun c => !isBlank c && c != '/') = true) {c : Char}
    (h : c ∈ text.toList) : isBlank c = false ∧ c ≠ '/' := by
  simpa using List.all_eq_true.1 hall c h

/-- The characters of a sign are neither blanks nor slashes. -/
theorem mem_sign {negative : Bool} {c : Char} (h : c ∈ (if negative then "-" else "").toList) : isBlank c = false ∧ c ≠ '/' := by
  cases negative with
  | false => exact mem_of_all (by decide) h
  | true => exact mem_of_all (by decide) h

/-- The characters of digits are neither blanks nor slashes. -/
theorem mem_digits {c : Char} (h : c.isDigit = true) : isBlank c = false ∧ c ≠ '/' := by
  refine ⟨isBlank_of_isDigit h, ?_⟩
  rintro rfl
  nomatch h

/-- The characters of a plain numeral are neither blanks nor slashes. -/
theorem mem_plainNumeral {cs : List Char} (hcs : PlainNumeral cs) {c : Char} (h : c ∈ cs) : isBlank c = false ∧ c ≠ '/' := by
  cases hcs with
  | whole _ hdigits => exact mem_digits (hdigits c h)
  | places _ hdigits hplaces =>
    rcases List.mem_append.1 h with h | h
    · exact mem_digits (hdigits c h)
    rcases List.mem_cons.1 h with rfl | h
    · exact ⟨rfl, by decide⟩
    · exact mem_digits (hplaces c h)

/-- The characters of the text of a double are neither blanks nor slashes. -/
theorem mem_text {x : Float} {c : Char} (h : c ∈ (Numeric.text x).toList) : isBlank c = false ∧ c ≠ '/' := by
  change c ∈ (Decimal.floatText x).toList at h
  unfold Decimal.floatText at h
  split at h
  · exact mem_of_all (by decide) h
  · rename_i negative _
    cases negative with
    | false => exact mem_of_all (by decide) h
    | true => exact mem_of_all (by decide) h
  · rename_i negative d _
    rw [String.toList_append] at h
    rcases List.mem_append.1 h with h | h
    · exact mem_sign h
    split at h
    · obtain rfl := List.mem_singleton.1 h
      exact mem_digits rfl
    · exact mem_plainNumeral (plainNumeral_positional _ (List.ne_nil_of_mem h)) h

/-- A term that has no blank; if it has a slash, it is a fraction in lowest terms whose denominator is as said. -/
def IsTerm (sign : String) (IsDenominator : ℕ → Prop) (term : String) : Prop :=
  (∀ c ∈ term.toList, isBlank c = false) ∧ ('/' ∈ term.toList → ∃ p q : ℕ,
    term = sign ++ toString p ++ "/" ++ toString q ∧ 0 < p ∧ p.Coprime q ∧ IsDenominator q)

/-- The terms of a double and a fraction. -/
theorem isTerm_of_mem_terms {negative : Bool} {integer : Float} {n d : ℕ} (hd : 0 < d) {IsDenominator : ℕ → Prop}
    (h : n ≠ 0 → IsDenominator (d / n.gcd d)) {term : String}
    (hterm : term ∈ terms (if negative then "-" else "") integer n d) :
    IsTerm (if negative then "-" else "") IsDenominator term := by
  unfold terms at hterm
  dsimp only at hterm
  rcases List.mem_append.1 hterm with hterm | hterm
  · split at hterm
    · nomatch hterm
    obtain rfl := List.mem_singleton.1 hterm
    have hplain : ∀ c ∈ ((if negative then "-" else "") ++ Numeric.text integer).toList, isBlank c = false ∧ c ≠ '/' := by
      intro c hc
      rw [String.toList_append] at hc
      rcases List.mem_append.1 hc with hc | hc
      · exact mem_sign hc
      · exact mem_text hc
    exact ⟨fun c hc => (hplain c hc).1, fun hslash => absurd rfl (hplain _ hslash).2⟩
  · split at hterm
    · nomatch hterm
    rename_i hn
    rw [beq_iff_eq] at hn
    obtain rfl := List.mem_singleton.1 hterm
    have hg : 0 < n.gcd d := Nat.gcd_pos_of_pos_right n hd
    refine ⟨?_, fun _ => ⟨_, _, rfl, ?_, Nat.coprime_div_gcd_div_gcd hg, h hn⟩⟩
    · intro c hc
      simp only [String.toList_append, List.mem_append, Nat.toString_eq_repr, Nat.toList_repr] at hc
      rcases hc with ((hc | hc) | hc) | hc
      · exact (mem_sign hc).1
      · exact isBlank_of_isDigit (isDigit_of_mem_toDigits hc)
      · obtain rfl := List.mem_singleton.1 hc
        decide
      · exact isBlank_of_isDigit (isDigit_of_mem_toDigits hc)
    · exact Nat.div_pos (Nat.gcd_le_left d (Nat.pos_of_ne_zero hn)) hg

/-! ## Words -/

/-- A word with a slash is one of the terms that are written. -/
theorem exists_term_of_mem_words {parts : List String} (h : ∀ term ∈ parts, ∀ c ∈ term.toList, isBlank c = false) {w : List Char}
    (hw : w ∈ words (if parts.isEmpty then "0" else " ".intercalate parts).toList) (hslash : '/' ∈ w) :
    ∃ term ∈ parts, w = term.toList := by
  split at hw
  · have hzero : words "0".toList = [['0']] := by decide
    rw [hzero, List.mem_singleton] at hw
    rw [hw] at hslash
    nomatch hslash
  · have hspace : " ".toList = [' '] := rfl
    rw [String.toList_intercalate, hspace, words_intercalate_eq_filter (List.forall_mem_map.2 h)] at hw
    obtain ⟨term, hterm, rfl⟩ := List.mem_map.1 (List.mem_filter.1 hw).1
    exact ⟨term, hterm, rfl⟩

/-- A double is written with a denominator that is allowed, or with an odd one of which only twice as much is allowed. A fraction is a
word with a slash; it has the sign of the double and is in lowest terms. -/
theorem denominator_of_write (x : Float) (b : Bounds) {w : List Char} (hw : w ∈ words (write x b).toList) (hslash : '/' ∈ w) :
    ∃ p q : ℕ, w = ((if x < 0 then "-" else "") ++ toString p ++ "/" ++ toString q).toList ∧ 0 < p ∧ p.Coprime q ∧
      (b.Allows q ∨ b.AllowsOnlyTwice q) := by
  have hsign : (if x < 0 then "-" else "") = if decide (x < 0) then "-" else "" := by simp only [decide_eq_true_iff]
  have hnone {text : String} (htext : (words text.toList).any (·.contains '/') = false) : ∀ w ∈ words text.toList, '/' ∉ w := by
    intro w hw hmem
    exact List.any_eq_false.1 htext w hw (List.contains_iff_mem.2 hmem)
  unfold write at hw
  split at hw
  · exact absurd hslash (hnone (by decide) w hw)
  split at hw
  · split at hw
    · exact absurd hslash (hnone (by decide) w hw)
    · exact absurd hslash (hnone (by decide) w hw)
  dsimp only at hw
  have hrest : magnitude (Numeric.abs x - Numeric.floor (Numeric.abs x)) ≤ 2 ^ 0 := magnitude_sub_floor_le (signClear_abs x)
  obtain ⟨hmem, hlt⟩ := nearest_of_magnitude_le hrest b
  generalize nearest (Numeric.abs x - Numeric.floor (Numeric.abs x)) b.denominators = best at hw hmem hlt
  rw [hsign] at hw ⊢
  have hterms : ∀ term ∈ (if best.numerator == best.denominator then
        terms (if decide (x < 0) then "-" else "") (Numeric.floor (Numeric.abs x) + 1) 0 1
      else terms (if decide (x < 0) then "-" else "") (Numeric.floor (Numeric.abs x)) best.numerator best.denominator),
      IsTerm (if decide (x < 0) then "-" else "") (fun q => b.Allows q ∨ b.AllowsOnlyTwice q) term := by
    intro term hterm
    split at hterm
    · exact isTerm_of_mem_terms Nat.one_pos (fun hzero => absurd rfl hzero) hterm
    · rename_i hne
      rw [beq_iff_eq] at hne
      refine isTerm_of_mem_terms (Bounds.pos_of_mem_denominators hmem) (fun hn => ?_) hterm
      exact Bounds.allows_of_dvd hmem (Nat.div_dvd_of_dvd (Nat.gcd_dvd_right _ _)) (two_le_div_gcd hn hne hlt)
  obtain ⟨term, hterm, rfl⟩ := exists_term_of_mem_words (fun term hterm => (hterms term hterm).1) hw hslash
  obtain ⟨p, q, rfl, hp, hcoprime, hq⟩ := (hterms term hterm).2 hslash
  exact ⟨p, q, rfl, hp, hcoprime, hq⟩

/-- A third is found in sixths and written in thirds, which are not allowed. -/
theorem third_of_sixths : write (1 / 3 : Float) ⟨0, 6, 0⟩ = "1/3" ∧ ¬(⟨0, 6, 0⟩ : Bounds).Allows 3 :=
  ⟨by decide +kernel, Bounds.AllowsOnlyTwice.not_allows ⟨⟨1, rfl⟩, by decide, by decide⟩⟩

/-- The denominator of two fifths is one of which only twice as much is allowed. -/
theorem two_fifths_of_tenths :
    ['-', '2', '/', '5'] ∈ words (write (-3.4 : Float) ⟨4, 10, 8⟩).toList ∧
      ∃ p q : ℕ, ['-', '2', '/', '5'] = ("-" ++ toString p ++ "/" ++ toString q).toList ∧ 0 < p ∧ p.Coprime q ∧
        ((⟨4, 10, 8⟩ : Bounds).Allows q ∨ (⟨4, 10, 8⟩ : Bounds).AllowsOnlyTwice q) := by
  have hword : ['-', '2', '/', '5'] ∈ words (write (-3.4 : Float) ⟨4, 10, 8⟩).toList := by decide +kernel
  have hneg : (-3.4 : Float) < 0 := by decide +kernel
  have hdenominator := denominator_of_write (-3.4) ⟨4, 10, 8⟩ hword (by decide)
  rw [if_pos hneg] at hdenominator
  exact ⟨hword, hdenominator⟩

/-! ## Exact arithmetic -/

/-- One over a denominator is spelled in one way. -/
theorem eq_of_spells_inv {text : String} {q : ℕ} (hq : 1 < q) (h : Spells "" text (1 / q)) : text = "1/" ++ toString q := by
  have hpos : (0 : ℚ) < q := by exact_mod_cast Nat.zero_lt_of_lt hq
  have hone : (1 / q : ℚ) < 1 := (div_lt_one hpos).2 (by exact_mod_cast hq)
  generalize hmagnitude : (1 / q : ℚ) = magnitude at h hone
  cases h with
  | zero => exact absurd hmagnitude (one_div_ne_zero hpos.ne')
  | @integer n hn =>
    have : (1 : ℚ) ≤ n := by exact_mod_cast hn
    exact absurd hone (not_lt.2 this)
  | @fraction p r hp hpr hcoprime =>
    have hr : (r : ℚ) ≠ 0 := by exact_mod_cast (Nat.zero_lt_of_lt hpr).ne'
    rw [div_eq_div_iff hpos.ne' hr, one_mul] at hmagnitude
    have hproduct : r = p * q := by exact_mod_cast hmagnitude
    obtain rfl : p = 1 := Nat.Coprime.eq_one_of_dvd hcoprime ⟨q, hproduct⟩
    rw [Nat.one_mul] at hproduct
    have hnumerator : "" ++ toString 1 ++ "/" = "1/" := by decide
    rw [hnumerator, hproduct]
  | @mixed n p r hn hp hpr =>
    have hn' : (1 : ℚ) ≤ n := by exact_mod_cast hn
    have hfraction : (0 : ℚ) ≤ p / r := div_nonneg p.cast_nonneg r.cast_nonneg
    linarith

/-- In exact arithmetic one over a denominator of which only twice as much is allowed is written with the denominator. -/
theorem write_inv_of_allowsOnlyTwice {F : Type} [ExactText F] {b : Bounds} {q : ℕ} (h : b.AllowsOnlyTwice q) (hq : 1 < q) {x : F}
    (hx : ExactNumeric.toRat x = 1 / q) : write x b = "1/" ++ toString q := by
  have hpos : (0 : ℚ) < q := by exact_mod_cast Nat.zero_lt_of_lt hq
  have hnonneg : ¬x < 0 := by
    rw [← ExactNumeric.toRat_neg_iff, hx, not_lt]
    positivity
  obtain ⟨magnitude, hspells, -, hnearest⟩ := exists_spells_write x b
  have htwice : 2 * q ∈ b.denominators := Bounds.mem_denominators_iff.2 (.inr ⟨by omega, .inr (.inl ⟨even_two_mul q, h.2.2⟩)⟩)
  have hle := hnearest 2 (2 * q) htwice
  have hsame : (1 / q : ℚ) - (2 : ℤ) / (2 * q : ℕ) = 0 := by
    push_cast
    field_simp
    ring
  rw [hx, abs_of_pos (one_div_pos.2 hpos), hsame, abs_zero] at hle
  obtain rfl : 1 / q = magnitude := sub_eq_zero.1 (abs_eq_zero.1 (le_antisymm hle (abs_nonneg _)))
  rw [if_neg hnonneg] at hspells
  exact eq_of_spells_inv hq hspells

end QuantityCalculus.Fraction
