import Mathlib.Algebra.BigOperators.Group.List.Lemmas
import Mathlib.Algebra.BigOperators.Ring.List
import QuantityCalculus.Proofs.Algebra.Bits
import QuantityCalculus.Proofs.Builtin.Arguments

/-!
# Divisors and multiples of several integers

Reducing integers to their greatest common divisor or their least common multiple comes to what these are for any number of integers
(`Builtin.gcd_and_lcm_of_integers`): a divisor is never beyond 64 bits, and once a multiple is at the bound of these, it stays there. Only
an integer by itself is not reduced at all, and keeps its sign.
-/

namespace QuantityCalculus

open QuantityCalculus.Algebra

/-- The greatest common divisor of some integers: not negative, and divided by what divides all of them. -/
def IsGcdOf (is : List ℤ) (g : ℤ) : Prop := 0 ≤ g ∧ ∀ d, d ∣ g ↔ ∀ i ∈ is, d ∣ i

/-- The least common multiple of some integers: not negative, and dividing what all of them divide. -/
def IsLcmOf (is : List ℤ) (m : ℤ) : Prop := 0 ≤ m ∧ ∀ n, m ∣ n ↔ ∀ i ∈ is, i ∣ n

section

variable {is js : List ℤ} {g h : ℤ}

/-- There is one greatest common divisor, in any order of the integers. -/
theorem IsGcdOf.unique (hg : IsGcdOf is g) (hh : IsGcdOf js h) (hperm : is.Perm js) : g = h := by
  refine Int.dvd_antisymm hg.1 hh.1 ((hh.2 g).2 fun i hi => ?_) ((hg.2 h).2 fun i hi => ?_)
  · exact (hg.2 g).1 dvd_rfl i (hperm.mem_iff.2 hi)
  · exact (hh.2 h).1 dvd_rfl i (hperm.mem_iff.1 hi)

/-- There is one least common multiple, in any order of the integers. -/
theorem IsLcmOf.unique (hg : IsLcmOf is g) (hh : IsLcmOf js h) (hperm : is.Perm js) : g = h := by
  refine Int.dvd_antisymm hg.1 hh.1 ((hg.2 h).2 fun i hi => ?_) ((hh.2 g).2 fun i hi => ?_)
  · exact (hh.2 h).1 dvd_rfl i (hperm.mem_iff.1 hi)
  · exact (hg.2 g).1 dvd_rfl i (hperm.mem_iff.2 hi)

/-- The greatest common divisor is zero only of zeros. -/
theorem IsGcdOf.eq_zero_iff (hg : IsGcdOf is g) : g = 0 ↔ ∀ i ∈ is, i = 0 := by
  rw [← zero_dvd_iff, hg.2]
  simp only [zero_dvd_iff]

/-- The least common multiple is zero only if a zero is among the integers. -/
theorem IsLcmOf.eq_zero_iff (hg : IsLcmOf is g) : g = 0 ↔ 0 ∈ is := by
  rw [← List.prod_eq_zero_iff, ← zero_dvd_iff (a := g), ← zero_dvd_iff (a := is.prod)]
  constructor
  · intro hzero
    exact hzero.trans ((hg.2 _).2 fun i hi => List.dvd_prod hi)
  · intro hzero
    rw [zero_dvd_iff, List.prod_eq_zero_iff] at hzero
    exact (hg.2 g).1 dvd_rfl 0 hzero

end

/-! ## Two integers -/

/-- Repeated division comes to the greatest common divisor. -/
theorem euclid_eq_gcd (m n : ℕ) : euclid m n = m.gcd n := by
  induction m, n using euclid.induct with
  | case1 m =>
    rw [euclid, if_pos rfl, Nat.gcd_zero_right]
  | case2 m n hn ih =>
    rw [euclid, if_neg hn, ih, Nat.gcd_comm m, Nat.gcd_rec n m, Nat.gcd_comm]

/-- A magnitude within bounds is that of an integer within bounds. -/
theorem saturate_natAbs_saturate (i : ℤ) : saturate (saturate i).natAbs = min |i| maxInteger := by
  unfold saturate minInteger maxInteger
  rw [Int.abs_eq_natAbs]
  omega

section

variable {i j : ℤ}

/-- The greatest common divisor of integers of 64 bits is within 64 bits. -/
theorem boundedGcd_eq (hi : |i| ≤ maxInteger) (hj : |j| ≤ maxInteger) : boundedGcd i j = Int.gcd i j := by
  have hle : (Int.gcd i j : ℤ) ≤ maxInteger := by
    rw [Int.abs_eq_natAbs] at hi hj
    by_cases hzero : i = 0
    · rwa [hzero, Int.gcd_zero_left]
    · have hgcd := Int.gcd_le_natAbs_left j hzero
      omega
  have heuclid : euclid i.natAbs j.natAbs = Int.gcd i j := euclid_eq_gcd ..
  rw [boundedGcd, heuclid, saturate]
  unfold minInteger maxInteger at *
  omega

/-- The least common multiple, or the bound of 64 bits. -/
theorem boundedLcm_eq (hi : |i| ≤ maxInteger) (hj : |j| ≤ maxInteger) : boundedLcm i j = min (Int.lcm i j : ℤ) maxInteger := by
  have hmax : (0 : ℤ) ≤ maxInteger := by decide
  unfold boundedLcm
  by_cases hzero : i = 0 ∨ j = 0
  · have hlcm : Int.lcm i j = 0 := Int.lcm_eq_zero_iff.2 hzero
    rw [if_pos hzero, hlcm, Nat.cast_zero, min_eq_left hmax]
  · have hproduct : |i.tdiv (Int.gcd i j) * j| = Int.lcm i j := by
      rw [Int.abs_eq_natAbs, Int.natAbs_mul, Int.natAbs_tdiv, Int.natAbs_natCast]
      congr 1
      exact Nat.div_mul_right_comm (Nat.gcd_dvd_left _ _) _
    rw [if_neg hzero, saturate_natAbs_saturate, boundedGcd_eq hi hj, hproduct]

/-- Beyond the bound, it makes no difference for the bounded multiples by how much. -/
theorem min_lcm_min (i j : ℤ) :
    min (Int.lcm (min i maxInteger) j : ℤ) maxInteger = min (Int.lcm i j : ℤ) maxInteger := by
  obtain hle | hlt := le_or_gt i maxInteger
  · rw [min_eq_left hle]
  obtain rfl | hj := eq_or_ne j 0
  · rw [Int.lcm_zero_right, Int.lcm_zero_right]
  -- A multiple of the bound is no less than the bound, and neither is one of what is beyond.
  have hge {k : ℤ} (hk : maxInteger ≤ k) : maxInteger ≤ (Int.lcm k j : ℤ) := by
    have hpos : 0 < maxInteger := by decide
    have hlcm : 0 < Int.lcm k j := Int.lcm_pos (by omega) hj
    have hdvd : k ∣ (Int.lcm k j : ℤ) := Int.dvd_lcm_left ..
    exact hk.trans (Int.le_of_dvd (by exact_mod_cast hlcm) hdvd)
  rw [min_eq_right hlt.le, min_eq_right (hge le_rfl), min_eq_right (hge hlt.le)]

end

/-! ## Several integers -/

section

variable {i : ℤ} {is : List ℤ}

/-- The greatest common divisor of an integer and others, one after another. -/
def gcdAfter (i : ℤ) (is : List ℤ) : ℤ := is.foldl (fun g j => Int.gcd g j) i

/-- The least common multiple of an integer and others, one after another. -/
def lcmAfter (i : ℤ) (is : List ℤ) : ℤ := is.foldl (fun m j => Int.lcm m j) i

/-- What divides the divisor divides all of the integers. -/
theorem dvd_gcdAfter_iff (d i : ℤ) (is : List ℤ) : d ∣ gcdAfter i is ↔ ∀ j ∈ i :: is, d ∣ j := by
  induction is generalizing i with
  | nil => simp [gcdAfter]
  | cons j is ih =>
    have hstep : gcdAfter i (j :: is) = gcdAfter (Int.gcd i j) is := rfl
    rw [hstep, ih, List.forall_mem_cons, List.forall_mem_cons, List.forall_mem_cons, Int.dvd_coe_gcd_iff, and_assoc]

/-- The multiple divides what all of the integers divide. -/
theorem lcmAfter_dvd_iff (n i : ℤ) (is : List ℤ) : lcmAfter i is ∣ n ↔ ∀ j ∈ i :: is, j ∣ n := by
  induction is generalizing i with
  | nil => simp [lcmAfter]
  | cons j is ih =>
    have hstep : lcmAfter i (j :: is) = lcmAfter (Int.lcm i j) is := rfl
    rw [hstep, ih, List.forall_mem_cons, List.forall_mem_cons, List.forall_mem_cons, Int.coe_lcm_dvd_iff, and_assoc]

/-- From an integer on that is not negative, no divisor is negative. -/
theorem gcdAfter_nonneg (hi : 0 ≤ i) (is : List ℤ) : 0 ≤ gcdAfter i is := by
  induction is generalizing i with
  | nil => exact hi
  | cons j is ih => exact ih (Int.natCast_nonneg _)

/-- From an integer on that is not negative, no multiple is negative. -/
theorem lcmAfter_nonneg (hi : 0 ≤ i) (is : List ℤ) : 0 ≤ lcmAfter i is := by
  induction is generalizing i with
  | nil => exact hi
  | cons j is ih => exact ih (Int.natCast_nonneg _)

/-- A reduction to divisors stays within 64 bits. -/
theorem foldl_boundedGcd (hi : |i| ≤ maxInteger) (his : ∀ j ∈ is, |j| ≤ maxInteger) : is.foldl boundedGcd i = gcdAfter i is := by
  induction is generalizing i with
  | nil => rfl
  | cons j is ih =>
    obtain ⟨hj, his⟩ := List.forall_mem_cons.1 his
    have hstep := boundedGcd_eq hi hj
    have hbound : |(Int.gcd i j : ℤ)| ≤ maxInteger := by
      rw [← hstep, abs_of_nonneg (by rw [hstep]; exact Int.natCast_nonneg _)]
      exact max_le (by decide) (min_le_right _ _)
    rw [List.foldl_cons, hstep]
    exact ih hbound his

/-- A reduction to multiples that starts within 64 bits stops at the bound. -/
theorem foldl_boundedLcm_min (hi : 0 ≤ i) (his : ∀ j ∈ is, |j| ≤ maxInteger) :
    is.foldl boundedLcm (min i maxInteger) = min (lcmAfter i is) maxInteger := by
  have hmax : (0 : ℤ) ≤ maxInteger := by decide
  induction is generalizing i with
  | nil => rfl
  | cons j is ih =>
    obtain ⟨hj, his⟩ := List.forall_mem_cons.1 his
    have hbound : |min i maxInteger| ≤ maxInteger := by
      rw [abs_of_nonneg (le_min hi hmax)]
      exact min_le_right _ _
    rw [List.foldl_cons, boundedLcm_eq hbound hj, min_lcm_min]
    exact ih (Int.natCast_nonneg _) his

end

/-! ## Reductions -/

namespace IntegerReduction

variable {is js : List ℤ}

/-- Integers of 64 bits are reduced to their greatest common divisor, unless there is only a negative one. -/
theorem exists_apply?_gcd (hne : is ≠ []) (h : ∀ i ∈ is, |i| ≤ maxInteger) :
    ∃ g, gcd.apply? is = some g ∧ ((∀ i < 0, is ≠ [i]) → IsGcdOf is g) := by
  obtain ⟨i, is, rfl⟩ := List.exists_cons_of_ne_nil hne
  obtain ⟨hi, his⟩ := List.forall_mem_cons.1 h
  refine ⟨gcdAfter i is, congrArg some (foldl_boundedGcd hi his), fun hsingle => ⟨?_, fun d => dvd_gcdAfter_iff d i is⟩⟩
  cases is with
  | nil => exact not_lt.1 fun hneg => hsingle i hneg rfl
  | cons j is => exact gcdAfter_nonneg (Int.natCast_nonneg _) is

/-- Integers of 64 bits are reduced to their least common multiple or the bound, unless there is only a negative one. -/
theorem exists_apply?_lcm (hne : is ≠ []) (h : ∀ i ∈ is, |i| ≤ maxInteger) :
    ∃ l, lcm.apply? is = some l ∧ ((∀ i < 0, is ≠ [i]) → ∃ m, IsLcmOf is m ∧ l = min m maxInteger) := by
  obtain ⟨i, is, rfl⟩ := List.exists_cons_of_ne_nil hne
  obtain ⟨hi, his⟩ := List.forall_mem_cons.1 h
  refine ⟨_, rfl, fun hsingle => ⟨lcmAfter i is, ⟨?_, fun n => lcmAfter_dvd_iff n i is⟩, ?_⟩⟩
  · cases is with
    | nil => exact not_lt.1 fun hneg => hsingle i hneg rfl
    | cons j is => exact lcmAfter_nonneg (Int.natCast_nonneg _) is
  · cases is with
    | nil => exact (min_eq_left ((le_abs_self i).trans hi)).symm
    | cons j is =>
      obtain ⟨hj, his⟩ := List.forall_mem_cons.1 his
      change is.foldl boundedLcm (boundedLcm i j) = _
      rw [boundedLcm_eq hi hj]
      exact foldl_boundedLcm_min (Int.natCast_nonneg _) his

/-- The order of integers makes no difference to what they have in common. -/
theorem apply?_perm (hperm : is.Perm js) (hne : is ≠ []) (h : ∀ i ∈ is, |i| ≤ maxInteger) :
    gcd.apply? js = gcd.apply? is ∧ lcm.apply? js = lcm.apply? is := by
  by_cases hsingle : ∃ i, is = [i]
  · obtain ⟨i, rfl⟩ := hsingle
    rw [List.singleton_perm.1 hperm]
    exact ⟨rfl, rfl⟩
  have his : ∀ i < 0, is ≠ [i] := fun i _ heq => hsingle ⟨i, heq⟩
  have hjs : ∀ j < 0, js ≠ [j] := by
    rintro j - rfl
    exact hsingle ⟨j, List.perm_singleton.1 hperm⟩
  have hne' : js ≠ [] := by
    rintro rfl
    exact hne hperm.eq_nil
  have h' : ∀ j ∈ js, |j| ≤ maxInteger := fun j hj => h j (hperm.mem_iff.2 hj)
  obtain ⟨g, hg, hgcd⟩ := exists_apply?_gcd hne h
  obtain ⟨g', hg', hgcd'⟩ := exists_apply?_gcd hne' h'
  obtain ⟨l, hl, hlcm⟩ := exists_apply?_lcm hne h
  obtain ⟨l', hl', hlcm'⟩ := exists_apply?_lcm hne' h'
  obtain ⟨m, hm, rfl⟩ := hlcm his
  obtain ⟨m', hm', rfl⟩ := hlcm' hjs
  rw [hg, hg', hl, hl', (hgcd his).unique (hgcd' hjs) hperm, hm.unique hm' hperm]
  exact ⟨rfl, rfl⟩

end IntegerReduction

namespace Builtin

variable {c : Catalog Float} {name : String} {args : List (Value Float)} {xs : List Float} {is : List ℤ}

/-- Integers that are accepted are well within 64 bits. -/
theorem abs_le_of_accepted (haccepted : List.Forall₂ (fun x i => toInteger name x = .ok i) xs is) : ∀ i ∈ is, |i| ≤ maxInteger := by
  induction haccepted with
  | nil => exact List.forall_mem_nil _
  | cons hx _ ih => exact List.forall_mem_cons.2 ⟨(toInteger_eq_ok_iff.1 hx).2.trans (by decide), ih⟩

/-- Numbers that are accepted as integers are reduced, and the result is the number of what the integers are reduced to. -/
theorem call_integers (r : IntegerReduction) (hargs : spread args = xs.map .number)
    (haccepted : List.Forall₂ (fun x i => toInteger name x = .ok i) xs is) {n : ℤ} (h : r.apply? is = some n) :
    (FunctionValue.ofBuiltin (.integers r)).call c args = .ok (.number (Numeric.ofInt n)) := by
  have hne : args ≠ [] := by
    rintro rfl
    obtain rfl : xs = [] := List.map_eq_nil_iff.1 hargs.symm
    cases haccepted
    cases h
  have hreader := mapM_integerArgument (c := c) (haccepted.imp fun _ _ hx => toInteger_under r.name hx)
  rw [call_of_variadic rfl hne]
  change reduceIntegers c r args = _
  rw [reduceIntegers, hargs, hreader, Outcome.ok_bind, h]
  rfl

/-- The built-in functions for divisors and multiples of any integers that are accepted, as arguments or in an array, come to their greatest
common divisor, and to their least common multiple or to the greatest integer of 64 bits if that is less, in any order. An integer that
is the only one is not reduced: where it is negative, it stays so. -/
theorem gcd_and_lcm_of_integers (hargs : spread args = xs.map .number)
    (haccepted : List.Forall₂ (fun x i => toInteger name x = .ok i) xs is) (hne : is ≠ []) :
    ∃ g l, IntegerReduction.gcd.apply? is = some g ∧ IntegerReduction.lcm.apply? is = some l ∧
      (FunctionValue.ofBuiltin (.integers .gcd)).call c args = .ok (.number (Numeric.ofInt g)) ∧
      (FunctionValue.ofBuiltin (.integers .lcm)).call c args = .ok (.number (Numeric.ofInt l)) ∧
      ((∀ i < 0, is ≠ [i]) → IsGcdOf is g ∧ (g = 0 ↔ ∀ i ∈ is, i = 0) ∧
        ∃ m, IsLcmOf is m ∧ (m = 0 ↔ 0 ∈ is) ∧ l = min m (2 ^ 63 - 1)) ∧
      (∀ i < 0, is = [i] → g = i ∧ l = i) ∧
      ∀ js, is.Perm js → IntegerReduction.gcd.apply? js = some g ∧ IntegerReduction.lcm.apply? js = some l := by
  have hbound := abs_le_of_accepted haccepted
  obtain ⟨g, hg, hgcd⟩ := IntegerReduction.exists_apply?_gcd hne hbound
  obtain ⟨l, hl, hlcm⟩ := IntegerReduction.exists_apply?_lcm hne hbound
  refine ⟨g, l, hg, hl, call_integers .gcd hargs haccepted hg, call_integers .lcm hargs haccepted hl, fun hsingle => ?_, ?_, ?_⟩
  · obtain ⟨m, hm, hmin⟩ := hlcm hsingle
    exact ⟨hgcd hsingle, (hgcd hsingle).eq_zero_iff, m, hm, hm.eq_zero_iff, hmin⟩
  · rintro i - rfl
    exact ⟨Option.some.inj hg.symm, Option.some.inj hl.symm⟩
  · intro js hperm
    obtain ⟨hgcd', hlcm'⟩ := IntegerReduction.apply?_perm hperm hne hbound
    exact ⟨hgcd'.trans hg, hlcm'.trans hl⟩

/-- The divisors and multiples of minus twelve and eighteen in an array. -/
theorem gcd_and_lcm_of_array :
    toInteger "gcd" (-12 : Float) = .ok (-12) ∧ toInteger "gcd" (18 : Float) = .ok 18 ∧
    (FunctionValue.ofBuiltin (.integers .gcd)).call .empty [.array [.number (-12), .number (18 : Float)]] =
      .ok (.number (Numeric.ofInt 6)) ∧
    (FunctionValue.ofBuiltin (.integers .lcm)).call .empty [.array [.number (-12), .number (18 : Float)]] =
      .ok (.number (Numeric.ofInt 36)) ∧
    IsGcdOf [-12, 18] 6 ∧ ∃ m, IsLcmOf [-12, 18] m ∧ 36 = min m (2 ^ 63 - 1) := by
  have hx : toInteger "gcd" (-12 : Float) = .ok (-12) := rfl
  have hy : toInteger "gcd" (18 : Float) = .ok 18 := rfl
  obtain ⟨g, l, hg, hl, hgcd, hlcm, hcommon, -⟩ :=
    gcd_and_lcm_of_integers (c := .empty) (show spread [.array [.number (-12), .number 18]] = [-12, 18].map .number from rfl)
      (.cons hx (.cons hy .nil)) (List.cons_ne_nil _ _)
  have hdivisor : IntegerReduction.gcd.apply? [-12, 18] = some 6 := by decide +kernel
  have hmultiple : IntegerReduction.lcm.apply? [-12, 18] = some 36 := by decide +kernel
  obtain rfl : 6 = g := Option.some.inj (hdivisor.symm.trans hg)
  obtain rfl : 36 = l := Option.some.inj (hmultiple.symm.trans hl)
  obtain ⟨hisgcd, -, m, hm, -, hmin⟩ := hcommon fun i _ h => by cases h
  exact ⟨hx, hy, hgcd, hlcm, hisgcd, m, hm, hmin⟩

/-- Minus four by itself is reduced to minus four, which is neither the greatest common divisor nor the least common multiple. -/
theorem minus_four_not_reduced :
    toInteger "gcd" (-4 : Float) = .ok (-4) ∧
    IntegerReduction.gcd.apply? [-4] = some (-4) ∧ IntegerReduction.lcm.apply? [-4] = some (-4) ∧
    (FunctionValue.ofBuiltin (.integers .gcd)).call .empty [.number (-4 : Float)] = .ok (.number (Numeric.ofInt (-4))) ∧
    (FunctionValue.ofBuiltin (.integers .lcm)).call .empty [.number (-4 : Float)] = .ok (.number (Numeric.ofInt (-4))) ∧
    ¬IsGcdOf [-4] (-4) ∧ ¬∃ m, IsLcmOf [-4] m ∧ -4 = min m (2 ^ 63 - 1) := by
  have hx : toInteger "gcd" (-4 : Float) = .ok (-4) := rfl
  have hargs : spread [.number (-4 : Float)] = [-4].map .number := rfl
  have haccepted : List.Forall₂ (fun x i => toInteger "gcd" x = .ok i) [(-4 : Float)] [-4] := .cons hx .nil
  refine ⟨hx, rfl, rfl, call_integers .gcd hargs haccepted rfl, call_integers .lcm hargs haccepted rfl,
    fun h => absurd h.1 (by decide), ?_⟩
  rintro ⟨m, ⟨hm, -⟩, hmin⟩
  omega

end Builtin

end QuantityCalculus
