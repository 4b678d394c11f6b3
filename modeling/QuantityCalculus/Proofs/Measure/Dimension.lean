import Mathlib.Algebra.BigOperators.Group.List.Basic
import Mathlib.Algebra.Group.Basic
import Mathlib.Algebra.Group.TypeTags.Hom
import Mathlib.Algebra.Order.Ring.Rat
import Mathlib.Tactic.Ring
import QuantityCalculus.Dimension

/-!
# Dimensions are a commutative group

A dimension is determined by the exponents of its bases (`Dimension.ext_get`). The exponents of a product are the sums of those of
its factors, so dimensions multiply, divide and have powers as the exponents add, subtract and scale. The operations on lists of
dimensions are those of the group.
-/

namespace QuantityCalculus.Dimension

/-- The sum of the exponents of a base. -/
def total (base : String) (components : List (String × Rat)) : Rat :=
  ((components.filter (·.1 = base)).map (·.2)).sum

/-- Nothing has no exponents. -/
theorem total_nil (base : String) : total base [] = 0 := rfl

/-- The total after one more component in front. -/
theorem total_cons (base : String) (component : String × Rat) (components : List (String × Rat)) :
    total base (component :: components) = (if component.1 = base then component.2 else 0) + total base components := by
  unfold total
  by_cases h : component.1 = base
  · rw [List.filter_cons_of_pos (by simpa using h), List.map_cons, List.sum_cons, if_pos h]
  · rw [List.filter_cons_of_neg (by simpa using h), if_neg h, zero_add]

/-- The total of two lists is the sum of their totals. -/
theorem total_append (base : String) (l m : List (String × Rat)) : total base (l ++ m) = total base l + total base m := by
  unfold total
  rw [List.filter_append, List.map_append, List.sum_append]

/-- Scaling every exponent scales the total. -/
theorem total_map (base : String) {f : Rat → Rat} (a : Rat) (hf : ∀ x, f x = x * a) (l : List (String × Rat)) :
    total base (l.map fun x => (x.1, f x.2)) = total base l * a := by
  induction l with
  | nil => simp [total]
  | cons x l ih =>
    rw [List.map_cons, total_cons, total_cons, ih]
    by_cases h : x.1 = base
    · rw [if_pos h, if_pos h, hf]
      ring
    · rw [if_neg h, if_neg h]
      ring

/-- Exponents that are zero do not count. -/
theorem total_filter (base : String) (l : List (String × Rat)) :
    total base (l.filter fun x => x.2 != 0) = total base l := by
  induction l with
  | nil => rfl
  | cons x l ih =>
    by_cases h : x.2 = 0
    · rw [List.filter_cons_of_neg (by simp [h]), ih, total_cons, h, ite_self, zero_add]
    · rw [List.filter_cons_of_pos (by simp [h]), total_cons, total_cons, ih]

/-- Adding an exponent adds to the total of its base. -/
theorem total_addExponent (base : String) (l : List (String × Rat)) (component : String × Rat) :
    total base (addExponent l component) = total base l + if component.1 = base then component.2 else 0 := by
  unfold addExponent
  induction l with
  | nil => rw [SortedList.insertWith, total_cons, total_nil, add_comm]
  | cons x l ih =>
    obtain ⟨key, exponent⟩ := x
    rw [SortedList.insertWith]
    by_cases hbefore : SortedList.textLT component.1 key = true
    · rw [if_pos hbefore, total_cons, add_comm]
    rw [if_neg hbefore]
    by_cases hafter : SortedList.textLT key component.1 = true
    · rw [if_pos hafter, total_cons, total_cons, ih, add_assoc]
    rw [if_neg hafter, total_cons, total_cons]
    have hkey : component.1 = key := SortedList.eq_of_not_textLT (by simpa using hbefore) (by simpa using hafter)
    rw [hkey]
    by_cases h : key = base
    · rw [if_pos h, if_pos h, if_pos h]
      ring
    · rw [if_neg h, if_neg h, if_neg h]
      ring

/-- Adding exponents one after another adds their totals. -/
theorem total_foldl_addExponent (base : String) (components l : List (String × Rat)) :
    total base (components.foldl addExponent l) = total base l + total base components := by
  induction components generalizing l with
  | nil => rw [List.foldl_nil, total_nil, add_zero]
  | cons component components ih => rw [List.foldl_cons, ih, total_addExponent, total_cons, add_assoc]

/-- In increasing order, a base that is before all others has no exponent among them. -/
theorem total_eq_zero {base : String} {l : List (String × Rat)} (h : ∀ x ∈ l, SortedList.textLT base x.1 = true) :
    total base l = 0 := by
  unfold total
  rw [List.filter_eq_nil_iff.2, List.map_nil, List.sum_nil]
  intro x hx heq
  have hlt := h x hx
  rw [of_decide_eq_true heq] at hlt
  exact absurd (of_decide_eq_true hlt) (String.lt_irrefl _)

/-- In increasing order, the exponent of a base is what looking it up gives. -/
theorem lookup_getD_eq_total (base : String) {l : List (String × Rat)}
    (h : SortedList.Increasing SortedList.textLT l) : (l.lookup base).getD 0 = total base l := by
  induction l with
  | nil => rfl
  | cons x l ih =>
    obtain ⟨key, exponent⟩ := x
    obtain ⟨hkey, hl⟩ := List.pairwise_cons.1 h
    rw [total_cons, List.lookup_cons]
    by_cases hbase : base = key
    · subst hbase
      rw [total_eq_zero hkey, beq_self_eq_true, if_pos rfl, add_zero]
      rfl
    · rw [if_neg (Ne.symm hbase), zero_add, ← ih hl, beq_eq_false_iff_ne.2 hbase]

/-- The exponent of a base in a product of components is the sum of its exponents. -/
theorem get_ofComponents (base : String) (components : List (String × Rat)) :
    (ofComponents components).get base = total base components := by
  have h := lookup_getD_eq_total base (ofComponents components).canonical.1
  unfold get SortedList.get?
  rw [h]
  unfold ofComponents
  rw [total_filter, total_foldl_addExponent, total_nil, zero_add]

/-- The exponent of a base in a dimension is the sum of its exponents. -/
theorem total_exponents (base : String) (d : Dimension) : total base d.exponents = d.get base :=
  (lookup_getD_eq_total base d.canonical.1).symm

/-! ## A dimension is its exponents -/

/-- In increasing order, a base has one exponent. -/
theorem total_eq_of_mem {l : List (String × Rat)} (hl : SortedList.Increasing SortedList.textLT l)
    {component : String × Rat} (h : component ∈ l) : total component.1 l = component.2 := by
  induction l with
  | nil => nomatch h
  | cons x l ih =>
    obtain ⟨hx, hl⟩ := List.pairwise_cons.1 hl
    rw [total_cons]
    rcases List.mem_cons.1 h with rfl | h
    · rw [if_pos rfl, total_eq_zero hx, add_zero]
    · have hlt := hx component h
      have hne : x.1 ≠ component.1 := by
        intro heq
        rw [heq] at hlt
        exact String.lt_irrefl _ (of_decide_eq_true hlt)
      rw [if_neg hne, zero_add, ih hl h]

/-- In increasing order, a base with an exponent other than zero is listed with it. -/
theorem mem_of_total_ne_zero {base : String} {l : List (String × Rat)}
    (hl : SortedList.Increasing SortedList.textLT l) (h : total base l ≠ 0) : (base, total base l) ∈ l := by
  induction l with
  | nil => exact absurd rfl h
  | cons x l ih =>
    obtain ⟨hx, hl⟩ := List.pairwise_cons.1 hl
    rw [total_cons] at h ⊢
    by_cases hbase : x.1 = base
    · subst hbase
      rw [if_pos rfl, total_eq_zero hx, add_zero]
      exact List.mem_cons_self ..
    · rw [if_neg hbase, zero_add] at h ⊢
      exact List.mem_cons_of_mem _ (ih hl h)

/-- A base is listed with its exponent, unless that is zero. -/
theorem mem_exponents_iff {d : Dimension} {base : String} {exponent : Rat} :
    (base, exponent) ∈ d.exponents ↔ exponent ≠ 0 ∧ d.get base = exponent := by
  rw [← total_exponents]
  constructor
  · intro h
    exact ⟨d.canonical.2 _ h, total_eq_of_mem d.canonical.1 h⟩
  · rintro ⟨hexponent, rfl⟩
    exact mem_of_total_ne_zero d.canonical.1 hexponent

/-- The bases of a dimension are those with an exponent other than zero. -/
theorem mem_bases_iff {d : Dimension} {base : String} : base ∈ d.bases ↔ d.get base ≠ 0 := by
  unfold bases
  rw [List.mem_map]
  constructor
  · rintro ⟨⟨base, exponent⟩, h, rfl⟩
    obtain ⟨hexponent, rfl⟩ := mem_exponents_iff.1 h
    exact hexponent
  · intro h
    exact ⟨(base, d.get base), mem_exponents_iff.2 ⟨h, rfl⟩, rfl⟩

/-- Dimensions with the same exponents are equal. -/
theorem ext_get {d e : Dimension} (h : ∀ base, d.get base = e.get base) : d = e := by
  have hexponents : d.exponents = e.exponents := by
    refine SortedList.eq_of_mem_iff (fun hlt => ?_) d.canonical.1 e.canonical.1 ?_
    · rw [SortedList.textLT_asymm hlt]
      exact Bool.false_ne_true
    · rintro ⟨base, exponent⟩
      rw [mem_exponents_iff, mem_exponents_iff, h]
  cases d
  cases e
  cases hexponents
  rfl

/-! ## Exponents of products, quotients and powers -/

/-- The exponents of a product are the sums of those of its factors. -/
theorem get_product (base : String) (ds : List Dimension) : (product ds).get base = (ds.map (·.get base)).sum := by
  unfold product
  rw [get_ofComponents]
  induction ds with
  | nil => rfl
  | cons d ds ih => rw [List.flatMap_cons, total_append, total_exponents, ih, List.map_cons, List.sum_cons]

/-- The exponents of a quotient are those of the dividend without those of the divisors. -/
theorem get_quotient (base : String) (d : Dimension) (ds : List Dimension) :
    (d.quotient ds).get base = d.get base - (ds.map (·.get base)).sum := by
  have hproduct : total base (ds.flatMap (·.exponents)) = (ds.map (·.get base)).sum := by
    rw [← get_product, product, get_ofComponents]
  unfold quotient
  rw [get_ofComponents, total_append, total_exponents,
    total_map base (f := fun x => -x) (-1) (fun x => by ring), hproduct]
  ring

/-- The exponents of a power are those of the dimension times the exponent of the power. -/
theorem get_pow (base : String) (d : Dimension) (exponent : Rat) : (d.pow exponent).get base = d.get base * exponent := by
  unfold pow
  rw [get_ofComponents, total_map base (f := fun x => x * exponent) exponent (fun x => rfl), total_exponents]

/-- The exponents of the product of two dimensions. -/
theorem get_mul (base : String) (d e : Dimension) : (d * e).get base = d.get base + e.get base := by
  have h : d * e = product [d, e] := rfl
  rw [h, get_product, List.map_cons, List.map_cons, List.map_nil, List.sum_cons, List.sum_cons, List.sum_nil, add_zero]

/-- The exponents of the quotient of two dimensions. -/
theorem get_div (base : String) (d e : Dimension) : (d / e).get base = d.get base - e.get base := by
  have h : d / e = d.quotient [e] := rfl
  rw [h, get_quotient, List.map_cons, List.map_nil, List.sum_cons, List.sum_nil, add_zero]

instance : One Dimension := ⟨one⟩

instance : Inv Dimension := ⟨fun d => d.pow (-1)⟩

/-- The exponents of the reciprocal of a dimension. -/
theorem get_inv (base : String) (d : Dimension) : d⁻¹.get base = -d.get base := by
  have h : d⁻¹ = d.pow (-1) := rfl
  rw [h, get_pow]
  ring

/-- Dimensions are a commutative group. -/
instance : CommGroup Dimension where
  mul_assoc d e f := ext_get fun base => by
    rw [get_mul, get_mul, get_mul, get_mul]
    ring
  mul_comm d e := ext_get fun base => by
    rw [get_mul, get_mul]
    ring
  one_mul d := ext_get fun base => by
    rw [get_mul]
    exact zero_add _
  mul_one d := ext_get fun base => by
    rw [get_mul]
    exact add_zero _
  div_eq_mul_inv d e := ext_get fun base => by
    rw [get_div, get_mul, get_inv]
    ring
  inv_mul_cancel d := ext_get fun base => by
    rw [get_mul, get_inv]
    exact neg_add_cancel _

/-- The dimension of plain numbers is the one without exponents. -/
theorem isOne_iff {d : Dimension} : d.isOne = true ↔ d = 1 := by
  constructor
  · intro hempty
    refine ext_get fun base => ?_
    unfold get
    rw [List.isEmpty_iff.1 hempty]
    rfl
  · rintro rfl
    rfl

/-- Dimensions are the same exactly if they are equal. -/
theorem sameAs_iff {d e : Dimension} : d.sameAs e = true ↔ d = e := by
  have h : d.sameAs e = (d / e).isOne := rfl
  rw [h, isOne_iff, div_eq_one]

/-- Dimensions complement each other if they are inverse in the group. -/
theorem complements_iff {d e : Dimension} : d.complements e = true ↔ d * e = 1 := by
  have h : d.complements e = (d * e).isOne := rfl
  rw [h, isOne_iff]

/-! ## Products, quotients and powers in the group -/

/-- The exponent of a base, as a homomorphism to the rationals under addition. -/
def exponentHom (base : String) : Dimension →* Multiplicative Rat where
  toFun d := Multiplicative.ofAdd (d.get base)
  map_one' := rfl
  map_mul' d e := by
    rw [get_mul]
    rfl

/-- The exponents of a power in the group. -/
theorem get_zpow (base : String) (d : Dimension) (n : ℤ) : (d ^ n).get base = n * d.get base := by
  have h := map_zpow (exponentHom base) d n
  rw [← zsmul_eq_mul]
  exact Multiplicative.ofAdd.injective h

/-- The product of dimensions is that of the group. -/
theorem product_eq_prod (ds : List Dimension) : product ds = ds.prod := by
  refine ext_get fun base => ?_
  rw [get_product]
  induction ds with
  | nil => rfl
  | cons d ds ih => rw [List.map_cons, List.sum_cons, ih, List.prod_cons, get_mul]

/-- The quotient by several dimensions is that by their product. -/
theorem quotient_eq_div_prod (d : Dimension) (ds : List Dimension) : d.quotient ds = d / ds.prod := by
  refine ext_get fun base => ?_
  rw [get_quotient, get_div, ← product_eq_prod, get_product]

/-- The power with an integer exponent is that of the group. -/
theorem pow_intCast (d : Dimension) (n : ℤ) : d.pow n = d ^ n := by
  refine ext_get fun base => ?_
  rw [get_pow, get_zpow, mul_comm]

end QuantityCalculus.Dimension
