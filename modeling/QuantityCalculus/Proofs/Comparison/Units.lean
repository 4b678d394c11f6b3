import QuantityCalculus.Algebra.Comparison
import QuantityCalculus.Catalog.Standard
import QuantityCalculus.Proofs.Binary64.Equality
import QuantityCalculus.Proofs.Catalog.Search
import QuantityCalculus.Proofs.Composition.PrefixedPayloads

/-!
# Equality of units

A unit of a catalog is told by its key, and units that are composed have none (`Catalog.Produced.unit?_or_id_eq_none`). So units are
equal if they are one unit of the catalog or alike in dimension, datatype and scale (`Algebra.sameUnit_iff`). Both are symmetric and
transitive, also one after the other. A unit that has neither a key nor a scale is equal to no unit, and not to itself.
-/

namespace QuantityCalculus

/-! ## Units of a catalog and units that are composed -/

section Produced

variable {F : Type}

/-- What a catalog has under a key carries the key. -/
def Catalog.Keyed (c : Catalog F) : Prop := ∀ key u, c.unit? key = some u → u.id = some key

/-- Whatever is added to a catalog, its units carry their keys. -/
theorem IndexedCatalog.keyed_run (history : List (Command F)) : (run history).catalog.Keyed := by
  intro key u hu
  rw [(Consistent.run history).unit?_eq, lastUnitUnder?] at hu
  obtain ⟨command, -, hcommand⟩ := List.mem_filterMap.1 (List.mem_of_getLast? hu)
  cases command with
  | addUnit k v =>
    rw [Command.unitFor?] at hcommand
    split at hcommand
    · obtain rfl := Option.some.inj hcommand
      rfl
    · cases hcommand
  | _ => cases hcommand

variable [Numeric F] {c : Catalog F}

namespace Composition

variable {u w : UnitOfMeasure F} {us : List (UnitOfMeasure F)}

/-- A product has no key. -/
theorem id_of_multiply (h : multiply c us = .ok w) : w.id = none := by
  unfold multiply at h
  split at h
  · nomatch h
  split at h
  · nomatch h
  · obtain rfl := Except.ok.inj h
    rfl

/-- A quotient has no key. -/
theorem id_of_divide (h : divide c us = .ok w) : w.id = none := by
  unfold divide at h
  split at h
  · nomatch h
  split at h
  · nomatch h
  split at h
  · nomatch h
  · obtain rfl := Except.ok.inj h
    rfl

/-- A power has no key. -/
theorem id_of_power {exponent : F} (h : power c u exponent = .ok w) : w.id = none := by
  unfold power at h
  split at h
  · nomatch h
  split at h
  · nomatch h
  split at h
  · nomatch h
  dsimp only at h
  split at h
  · nomatch h
  · obtain rfl := Except.ok.inj h
    rfl

/-- A unit with a prefix has no key. -/
theorem id_of_withPrefix {base : ℕ} {exponent : ℤ} (h : withPrefix c u base exponent = .ok w) : w.id = none := by
  unfold withPrefix at h
  split at h
  · nomatch h
  dsimp only at h
  split at h
  · split at h
    · nomatch h
    · obtain rfl := Except.ok.inj h
      rfl
  · split at h
    · nomatch h
    · obtain rfl := Except.ok.inj h
      rfl

/-- A unit that is written as fractions has no key. -/
theorem id_of_fractional {bounds : Fraction.Bounds} (h : fractional c u bounds = .ok w) : w.id = none := by
  unfold fractional at h
  split at h
  · nomatch h
  · obtain rfl := Except.ok.inj h
    rfl

/-- A unit of several components has no key. -/
theorem id_of_hierarchical (h : hierarchical c us = .ok w) : w.id = none := by
  unfold hierarchical at h
  split at h
  · nomatch h
  dsimp only at h
  split at h
  · nomatch h
  · obtain rfl := Except.ok.inj h
    rfl

end Composition

/-- The units that expressions make of the units of a catalog. -/
inductive Catalog.Produced (c : Catalog F) : UnitOfMeasure F → Prop
  | entry {key : String} {u : UnitOfMeasure F} (h : c.unit? key = some u) : c.Produced u
  | product {us : List (UnitOfMeasure F)} {w : UnitOfMeasure F} (hus : ∀ u ∈ us, c.Produced u)
      (h : Composition.multiply c us = .ok w) : c.Produced w
  | quotient {us : List (UnitOfMeasure F)} {w : UnitOfMeasure F} (hus : ∀ u ∈ us, c.Produced u)
      (h : Composition.divide c us = .ok w) : c.Produced w
  | power {u w : UnitOfMeasure F} {exponent : F} (hu : c.Produced u) (h : Composition.power c u exponent = .ok w) : c.Produced w
  | prefixed {u w : UnitOfMeasure F} {base : ℕ} {exponent : ℤ} (hu : c.Produced u)
      (h : Composition.withPrefix c u base exponent = .ok w) : c.Produced w
  | fraction {u w : UnitOfMeasure F} {bounds : Fraction.Bounds} (hu : c.Produced u)
      (h : Composition.fractional c u bounds = .ok w) : c.Produced w
  | hierarchy {us : List (UnitOfMeasure F)} {w : UnitOfMeasure F} (hus : ∀ u ∈ us, c.Produced u)
      (h : Composition.hierarchical c us = .ok w) : c.Produced w

namespace Catalog.Produced

variable {u v : UnitOfMeasure F}

/-- A unit comes from the catalog, or it is composed and has no key. -/
theorem unit?_or_id_eq_none (h : c.Produced u) : (∃ key, c.unit? key = some u) ∨ u.id = none := by
  cases h with
  | entry h => exact .inl ⟨_, h⟩
  | product hus h => exact .inr (Composition.id_of_multiply h)
  | quotient hus h => exact .inr (Composition.id_of_divide h)
  | power hu h => exact .inr (Composition.id_of_power h)
  | prefixed hu h => exact .inr (Composition.id_of_withPrefix h)
  | fraction hu h => exact .inr (Composition.id_of_fractional h)
  | hierarchy hus h => exact .inr (Composition.id_of_hierarchical h)

/-- A unit with a key is the one that the catalog has under it. -/
theorem unit?_of_id (h : c.Produced u) (hc : c.Keyed) {key : String} (hkey : u.id = some key) : c.unit? key = some u := by
  rcases h.unit?_or_id_eq_none with ⟨k, hk⟩ | hnone
  · obtain rfl := Option.some.inj ((hc k u hk).symm.trans hkey)
    exact hk
  · rw [hnone] at hkey
    nomatch hkey

/-- Units with one key are one unit. -/
theorem eq_of_id (hc : c.Keyed) (hu : c.Produced u) (hv : c.Produced v) (hsome : u.id.isSome) (h : u.id = v.id) : u = v := by
  obtain ⟨key, hkey⟩ := Option.isSome_iff_exists.1 hsome
  have hunit := hu.unit?_of_id hc hkey
  rw [hv.unit?_of_id hc (h.symm.trans hkey)] at hunit
  exact (Option.some.inj hunit).symm

end Catalog.Produced

/-! ## Units that are alike -/

/-- Units of one dimension and datatype, whose scales are equal part by part. -/
def UnitOfMeasure.Alike (u v : UnitOfMeasure F) : Prop :=
  u.dimension = v.dimension ∧ u.datatype = v.datatype ∧ ∃ r s, u.ratio? = some r ∧ v.ratio? = some s ∧
    (r.multiplier == s.multiplier) = true ∧ (r.divisor == s.divisor) = true

/-- Units are the same if they share a key or are alike. -/
theorem Algebra.sameUnit_iff {u v : UnitOfMeasure F} :
    sameUnit u v = true ↔ (u.id.isSome = true ∧ u.id = v.id) ∨ u.Alike v := by
  unfold sameUnit UnitOfMeasure.Alike
  cases u.ratio? <;> cases v.ratio? <;> simp [and_assoc]

/-- A comparison of units always has an outcome. -/
theorem Algebra.equals_unit (c : Catalog F) (u v : UnitOfMeasure F) : equals c (.unit u) (.unit v) = .ok (sameUnit u v) := by
  rw [equals]

/-- A unit without a key and without a scale is the same as no unit. -/
theorem Algebra.sameUnit_eq_false {u : UnitOfMeasure F} (hid : u.id = none) (hratio : u.ratio? = none) (v : UnitOfMeasure F) :
    sameUnit u v = false := by
  rw [← Bool.not_eq_true, sameUnit_iff]
  rintro (⟨hsome, -⟩ | ⟨-, -, r, s, hr, -⟩)
  · rw [hid] at hsome
    nomatch hsome
  · rw [hratio] at hr
    nomatch hr

end Produced

/-! ## Units over doubles -/

namespace UnitOfMeasure.Alike

open Binary64

variable {u v w : UnitOfMeasure Float}

/-- Likeness is symmetric. -/
theorem symm (h : u.Alike v) : v.Alike u := by
  obtain ⟨hdimension, hdatatype, r, s, hr, hs, hmultiplier, hdivisor⟩ := h
  exact ⟨hdimension.symm, hdatatype.symm, s, r, hs, hr, beq_symm hmultiplier, beq_symm hdivisor⟩

/-- Likeness is transitive. -/
theorem trans (huv : u.Alike v) (hvw : v.Alike w) : u.Alike w := by
  obtain ⟨hdimension, hdatatype, r, s, hr, hs, hmultiplier, hdivisor⟩ := huv
  obtain ⟨hdimension', hdatatype', s', t, hs', ht, hmultiplier', hdivisor'⟩ := hvw
  obtain rfl := Option.some.inj (hs.symm.trans hs')
  exact ⟨hdimension.trans hdimension', hdatatype.trans hdatatype', r, t, hr, ht, beq_trans hmultiplier hmultiplier',
    beq_trans hdivisor hdivisor'⟩

/-- A unit is like itself if it has a scale that is a number. -/
theorem self_iff : u.Alike u ↔ ∃ r, u.ratio? = some r ∧ r.isNaN = false := by
  simp only [Alike, Ratio.isNaN, Bool.or_eq_false_iff, ← beq_self_iff]
  constructor
  · rintro ⟨-, -, r, s, hr, hs, hmultiplier, hdivisor⟩
    obtain rfl := Option.some.inj (hr.symm.trans hs)
    exact ⟨r, hr, hmultiplier, hdivisor⟩
  · rintro ⟨r, hr, hmultiplier, hdivisor⟩
    exact ⟨trivial, trivial, r, r, hr, hr, hmultiplier, hdivisor⟩

end UnitOfMeasure.Alike

namespace Algebra

open Binary64

variable {c : Catalog Float} {u v w : UnitOfMeasure Float}

/-- Sameness of units goes both ways. -/
theorem sameUnit_comm (u v : UnitOfMeasure Float) : sameUnit u v = sameUnit v u := by
  suffices hsymm : ∀ u v : UnitOfMeasure Float, sameUnit u v = true → sameUnit v u = true from
    Bool.eq_iff_iff.2 ⟨hsymm u v, hsymm v u⟩
  intro u v h
  rw [sameUnit_iff] at h ⊢
  rcases h with ⟨hsome, hid⟩ | h
  · exact .inl ⟨hid ▸ hsome, hid.symm⟩
  · exact .inr h.symm

/-- Sameness of the units that a catalog leads to goes on: where one criterion follows the other, the units that share a key are one
unit. -/
theorem sameUnit_trans (hc : c.Keyed) (hu : c.Produced u) (hv : c.Produced v) (hw : c.Produced w) (huv : sameUnit u v = true)
    (hvw : sameUnit v w = true) : sameUnit u w = true := by
  rcases sameUnit_iff.1 huv with ⟨hsome, hid⟩ | halike
  · obtain rfl := hu.eq_of_id hc hv hsome hid
    exact hvw
  · rcases sameUnit_iff.1 hvw with ⟨hsome, hid⟩ | halike'
    · obtain rfl := hv.eq_of_id hc hw hsome hid
      exact huv
    · exact sameUnit_iff.2 (.inr (halike.trans halike'))

/-- A unit is the same as itself if it has a key, or a scale that is a number. -/
theorem sameUnit_self_iff : sameUnit u u = true ↔ u.id.isSome = true ∨ ∃ r, u.ratio? = some r ∧ r.isNaN = false := by
  rw [sameUnit_iff, UnitOfMeasure.Alike.self_iff, and_iff_left rfl]

/-- Fractions, units of several components, and prefixed units without a scale have neither a key nor a scale. -/
theorem id_and_ratio?_eq_none (h : (∃ v bounds, Composition.fractional c v bounds = .ok u) ∨
    (∃ us, Composition.hierarchical c us = .ok u) ∨
    ∃ v base exponent, v.ratio? = none ∧ Composition.withPrefix c v base exponent = .ok u) : u.id = none ∧ u.ratio? = none := by
  rcases h with ⟨v, bounds, h⟩ | ⟨us, h⟩ | ⟨v, base, exponent, hv, h⟩
  · exact ⟨Composition.id_of_fractional h, (Composition.of_fractional h).1⟩
  · exact ⟨Composition.id_of_hierarchical h, (Composition.of_hierarchical h).1⟩
  · refine ⟨Composition.id_of_withPrefix h, ?_⟩
    rw [UnitOfMeasure.ratio?, (Composition.conversion_of_withPrefix hv h).1]

/-! ## Equality of units -/

/-- Equality of units goes both ways, and it goes on among the units that a catalog leads to. A unit is equal to itself just if it has
a key or a scale that is a number. So fractions, units of several components, and prefixed units without a scale are equal to no unit,
themselves included. -/
theorem unit_equality_partial (hc : c.Keyed) :
    (∀ u v, equals c (.unit u) (.unit v) = equals c (.unit v) (.unit u)) ∧
    (∀ u v w, c.Produced u → c.Produced v → c.Produced w → equals c (.unit u) (.unit v) = .ok true →
      equals c (.unit v) (.unit w) = .ok true → equals c (.unit u) (.unit w) = .ok true) ∧
    (∀ u, equals c (.unit u) (.unit u) = .ok true ↔ u.id.isSome = true ∨ ∃ r, u.ratio? = some r ∧ r.isNaN = false) ∧
    ∀ u, (∃ v bounds, Composition.fractional c v bounds = .ok u) ∨ (∃ us, Composition.hierarchical c us = .ok u) ∨
        (∃ v base exponent, v.ratio? = none ∧ Composition.withPrefix c v base exponent = .ok u) →
      ∀ v, equals c (.unit u) (.unit v) = .ok false := by
  simp only [equals_unit, Except.ok.injEq]
  refine ⟨sameUnit_comm, fun u v w => sameUnit_trans hc, fun u => sameUnit_self_iff, fun u hu v => ?_⟩
  obtain ⟨hid, hratio⟩ := id_and_ratio?_eq_none hu
  exact sameUnit_eq_false hid hratio v

/-- An inch is equal to the product of it alone, and so to itself; an inch written as a fraction is not. -/
theorem inch_equal_to_itself :
    let inch : UnitOfMeasure Float := Catalog.Standard.multiple (.single "length") "in" "inch" "inches" 254 10000
    let c : Catalog Float := Catalog.empty.addUnit "inch" inch
    ∃ u product fraction, c.unit? "inch" = some u ∧ Composition.multiply c [u] = .ok product ∧
      Composition.fractional c u ⟨0, 0, 16⟩ = .ok fraction ∧ equals c (.unit u) (.unit product) = .ok true ∧
      equals c (.unit u) (.unit u) = .ok true ∧ equals c (.unit fraction) (.unit fraction) = .ok false := by
  intro inch c
  have hc : c.Keyed := IndexedCatalog.keyed_run [.addUnit "inch" inch]
  obtain ⟨hcomm, htrans, -, hnone⟩ := unit_equality_partial hc
  obtain ⟨u, hu⟩ : ∃ u, c.unit? "inch" = some u := ⟨_, rfl⟩
  obtain ⟨product, hproduct⟩ : ∃ w, Composition.multiply c [u] = .ok w := by
    obtain rfl := Option.some.inj hu
    exact ⟨_, rfl⟩
  obtain ⟨fraction, hfraction⟩ : ∃ w, Composition.fractional c u ⟨0, 0, 16⟩ = .ok w := by
    obtain rfl := Option.some.inj hu
    exact ⟨_, rfl⟩
  have hequal : equals c (.unit u) (.unit product) = .ok true := by
    obtain rfl := Option.some.inj hu
    obtain rfl := Except.ok.inj hproduct
    rw [equals_unit]
    exact congrArg Except.ok (by decide +kernel)
  have hunit : c.Produced u := .entry hu
  have hunits : c.Produced product := .product (fun v hv => List.mem_singleton.1 hv ▸ hunit) hproduct
  refine ⟨u, product, fraction, hu, hproduct, hfraction, hequal, ?_, hnone fraction (.inl ⟨u, _, hfraction⟩) fraction⟩
  exact htrans u product u hunit hunits hunit hequal ((hcomm product u).trans hequal)

/-- Feet and inches together are not equal to themselves. -/
theorem feet_and_inches_not_equal :
    let foot : UnitOfMeasure Float := Catalog.Standard.multiple (.single "length") "ft" "foot" "feet" 3048 10000
    let inch : UnitOfMeasure Float := Catalog.Standard.multiple (.single "length") "in" "inch" "inches" 254 10000
    let c : Catalog Float := (Catalog.empty.addUnit "foot" foot).addUnit "inch" inch
    ∃ both, c.Produced both ∧ (∀ r, both.ratio? = some r → r.isNaN = false) ∧
      equals c (.unit both) (.unit both) = .ok false := by
  intro foot inch c
  obtain ⟨u, hu⟩ : ∃ u, c.unit? "foot" = some u := ⟨_, rfl⟩
  obtain ⟨v, hv⟩ : ∃ v, c.unit? "inch" = some v := ⟨_, rfl⟩
  obtain ⟨both, hboth⟩ : ∃ both, Composition.hierarchical c [u, v] = .ok both := by
    obtain rfl := Option.some.inj hu
    obtain rfl := Option.some.inj hv
    exact ⟨_, rfl⟩
  obtain ⟨hid, hratio⟩ := id_and_ratio?_eq_none (.inr (.inl ⟨_, hboth⟩))
  have hmembers : ∀ w ∈ [u, v], c.Produced w := by
    simp only [List.forall_mem_cons]
    exact ⟨.entry hu, .entry hv, List.forall_mem_nil _⟩
  refine ⟨both, .hierarchy hmembers hboth, fun r hr => ?_, ?_⟩
  · rw [hratio] at hr
    nomatch hr
  · rw [equals_unit, sameUnit_eq_false hid hratio]

end Algebra

end QuantityCalculus
