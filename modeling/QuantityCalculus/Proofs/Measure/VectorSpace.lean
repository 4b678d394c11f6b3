import Mathlib.Algebra.Module.Defs
import QuantityCalculus.Proofs.Measure.Dimension

/-!
# Dimensions are a vector space over the rationals

Products are the addition of this space and powers its scaling (`Module Rat (Additive Dimension)`). Whatever is built of components by
products, quotients and powers is in canonical form: its exponents are those that the way of building prescribes
(`Construction.exponent`), none of them zero, and it depends on nothing else. So products may be taken in any order and any
grouping.
-/

namespace QuantityCalculus.Dimension

/-! ## The laws of powers -/

protected theorem pow_zero (d : Dimension) : d.pow 0 = one := by
  refine ext_get fun base => ?_
  rw [get_pow, mul_zero]
  rfl

protected theorem pow_one (d : Dimension) : d.pow 1 = d := by
  refine ext_get fun base => ?_
  rw [get_pow, mul_one]

protected theorem pow_pow (d : Dimension) (r s : Rat) : (d.pow r).pow s = d.pow (r * s) := by
  refine ext_get fun base => ?_
  rw [get_pow, get_pow, get_pow, mul_assoc]

protected theorem pow_add (d : Dimension) (r s : Rat) : d.pow (r + s) = d.pow r * d.pow s := by
  refine ext_get fun base => ?_
  rw [get_pow, get_mul, get_pow, get_pow, mul_add]

protected theorem mul_pow (d e : Dimension) (r : Rat) : (d * e).pow r = d.pow r * e.pow r := by
  refine ext_get fun base => ?_
  rw [get_pow, get_mul, get_mul, get_pow, get_pow, add_mul]

protected theorem one_pow (r : Rat) : one.pow r = one := by
  refine ext_get fun base => ?_
  rw [get_pow]
  exact zero_mul r

/-- Dimensions are a vector space over the rationals, written with products for sums and powers for multiples. -/
instance : Module Rat (Additive Dimension) where
  smul r d := Additive.ofMul (d.toMul.pow r)
  one_smul d := Dimension.pow_one d.toMul
  mul_smul r s d := by
    have h := Dimension.pow_pow d.toMul s r
    rw [mul_comm s r] at h
    exact h.symm
  smul_zero r := Dimension.one_pow r
  smul_add r d e := Dimension.mul_pow d.toMul e.toMul r
  add_smul r s d := Dimension.pow_add d.toMul r s
  zero_smul d := Dimension.pow_zero d.toMul

/-- A dimension complements another exactly if it is its reciprocal. -/
theorem complements_iff_eq_pow_neg_one {d e : Dimension} : d.complements e = true ↔ e = d.pow (-1) := by
  rw [complements_iff, mul_eq_one_iff_eq_inv']
  rfl

/-! ## Ways to build a dimension -/

/-- A way to build a dimension. -/
inductive Construction where
  | components (l : List (String × Rat))
  | product (factors : List Construction)
  | quotient (dividend : Construction) (divisors : List Construction)
  | pow (base : Construction) (exponent : Rat)

namespace Construction

mutual

/-- The dimension that is built. -/
def value : Construction → Dimension
  | .components l => ofComponents l
  | .product factors => Dimension.product (values factors)
  | .quotient dividend divisors => dividend.value.quotient (values divisors)
  | .pow base exponent => base.value.pow exponent

/-- The dimensions that several constructions build. -/
def values : List Construction → List Dimension
  | [] => []
  | c :: cs => c.value :: values cs

end

mutual

/-- The exponent that a base should have: sums for components and products, differences for quotients, multiples for powers. -/
def exponent (base : String) : Construction → Rat
  | .components l => total base l
  | .product factors => sumOfExponents base factors
  | .quotient dividend divisors => dividend.exponent base - sumOfExponents base divisors
  | .pow c exponent => c.exponent base * exponent

/-- The sum of the exponents that a base should have in several constructions. -/
def sumOfExponents (base : String) : List Construction → Rat
  | [] => 0
  | c :: cs => c.exponent base + sumOfExponents base cs

end

mutual

/-- The factors of nested products, from left to right: what is not a product is a factor of its own. -/
def factors : Construction → List Construction
  | .product cs => factorsOfAll cs
  | c => [c]

/-- The factors of several constructions. -/
def factorsOfAll : List Construction → List Construction
  | [] => []
  | c :: cs => c.factors ++ factorsOfAll cs

end

mutual

/-- The exponents of what is built are those that the construction prescribes. -/
theorem get_value (base : String) : ∀ c : Construction, c.value.get base = c.exponent base
  | .components l => by rw [value, exponent, get_ofComponents]
  | .product factors => by rw [value, exponent, get_product, sum_get_values]
  | .quotient dividend divisors => by rw [value, exponent, get_quotient, get_value base dividend, sum_get_values]
  | .pow c r => by rw [value, exponent, get_pow, get_value base c]

/-- The exponents of what several constructions build add up as prescribed. -/
theorem sum_get_values (base : String) : ∀ cs : List Construction,
    ((values cs).map (·.get base)).sum = sumOfExponents base cs
  | [] => rfl
  | c :: cs => by
    rw [values, sumOfExponents, List.map_cons, List.sum_cons, get_value base c, sum_get_values base cs]

end

/-- Constructions build the same dimension exactly if they prescribe the same exponents. -/
theorem value_eq_iff {c c' : Construction} : c.value = c'.value ↔ ∀ base, c.exponent base = c'.exponent base := by
  constructor
  · intro h base
    rw [← get_value, ← get_value, h]
  · intro h
    refine ext_get fun base => ?_
    rw [get_value, get_value, h]

mutual

/-- The exponents of a construction are the sums of those of its factors. -/
theorem sum_exponent_factors (base : String) : ∀ c : Construction, (c.factors.map (exponent base)).sum = c.exponent base
  | .product cs => by rw [factors, exponent, sum_exponent_factorsOfAll base cs]
  | .components _ | .quotient _ _ | .pow _ _ => by simp only [factors, List.map_cons, List.map_nil, List.sum_cons, List.sum_nil, add_zero]

/-- The exponents of several constructions are the sums of those of their factors. -/
theorem sum_exponent_factorsOfAll (base : String) : ∀ cs : List Construction,
    ((factorsOfAll cs).map (exponent base)).sum = sumOfExponents base cs
  | [] => rfl
  | c :: cs => by
    rw [factorsOfAll, sumOfExponents, List.map_append, List.sum_append, sum_exponent_factors base c,
      sum_exponent_factorsOfAll base cs]

end

/-- Products of the same factors are equal, in whatever order and grouping they are taken. -/
theorem value_eq_of_perm_factors {c c' : Construction} (h : c.factors.Perm c'.factors) : c.value = c'.value := by
  refine value_eq_iff.2 fun base => ?_
  rw [← sum_exponent_factors, ← sum_exponent_factors]
  exact (h.map (exponent base)).sum_eq

end Construction

/-- Dimensions are a vector space over the rationals, in canonical form. Whatever is built of components by products, quotients and
powers lists its bases in increasing order with the exponents that the construction prescribes and none of them zero, so that it
is determined by these exponents; products do not depend on the order and grouping of their factors. Division undoes
multiplication, powers scale, to be the same is to be equal, and to complement is to be the reciprocal. The sum of the vector space
is the product, and its scaling is the power. -/
theorem vector_space_in_canonical_form (a b c : Dimension) (r s : Rat) :
    (∀ k : Construction, SortedList.Increasing SortedList.textLT k.value.exponents ∧ (0 : Rat) ∉ k.value.exponents.map (·.2) ∧
      ∀ base, k.value.get base = k.exponent base) ∧
    (∀ k k' : Construction, k.value = k'.value ↔ ∀ base, k.exponent base = k'.exponent base) ∧
    (∀ k k' : Construction, k.factors.Perm k'.factors → k.value = k'.value) ∧
    product [a, b] = product [b, a] ∧ product [product [a, b], c] = product [a, product [b, c]] ∧ product [one, a] = a ∧
    (product [a, b]).quotient [b] = a ∧
    a.pow 0 = one ∧ a.pow 1 = a ∧ (a.pow r).pow s = a.pow (r * s) ∧ a.pow (r + s) = product [a.pow r, a.pow s] ∧
    (product [a, b]).pow r = product [a.pow r, b.pow r] ∧
    (a.sameAs b = true ↔ a = b) ∧ (a.complements b = true ↔ b = a.pow (-1)) ∧
    (Additive.ofMul a + Additive.ofMul b).toMul = product [a, b] ∧ (r • Additive.ofMul a).toMul = a.pow r := by
  have hcanonical (k : Construction) : (0 : Rat) ∉ k.value.exponents.map (·.2) := by
    intro h
    obtain ⟨x, hx, hzero⟩ := List.mem_map.1 h
    exact k.value.canonical.2 x hx hzero
  refine ⟨fun k => ⟨k.value.canonical.1, hcanonical k, fun base => Construction.get_value base k⟩,
    fun k k' => Construction.value_eq_iff, fun k k' => Construction.value_eq_of_perm_factors, mul_comm a b, mul_assoc a b c,
    one_mul a, mul_div_cancel_right a b, Dimension.pow_zero a, Dimension.pow_one a, Dimension.pow_pow a r s,
    Dimension.pow_add a r s, Dimension.mul_pow a b r, sameAs_iff, complements_iff_eq_pow_neg_one,
    rfl, rfl⟩

/-- The cube of a length per time, in two orders and groupings of its factors, one with an empty product among them. -/
theorem volume_per_time_in_two_groupings :
    let length : Construction := .components [("length", 1)]
    let perTime : Construction := .pow (.components [("time", 1)]) (-1)
    let area : Construction := .components [("length", 1 / 2), ("length", 3 / 2)]
    let k : Construction := .product [.product [length, perTime], area]
    let k' : Construction := .product [area, .product [perTime, .product [], length]]
    k.factors.Perm k'.factors ∧ k.value = k'.value ∧ k.value.text = "length^3 time^-1" := by
  intro length perTime area k k'
  have hperm : k.factors.Perm k'.factors := (List.reverse_perm [length, perTime, area]).symm
  have hvalue : k.value = k'.value := (vector_space_in_canonical_form one one one 0 0).2.2.1 k k' hperm
  exact ⟨hperm, hvalue, by decide +kernel⟩

end QuantityCalculus.Dimension
