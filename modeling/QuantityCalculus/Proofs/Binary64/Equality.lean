import QuantityCalculus.Numeric.Binary64

/-!
# Equal doubles

Doubles are equal if they have one value in common (`beq_iff`), where zeros of either sign have one value and what is not a number has
none. So equality is symmetric and transitive, and what is not a number is all that is not equal to itself.
-/

namespace QuantityCalculus.Binary64

open Float.Model Float.Model.UnpackedFloat

/-! ## Unpacked numbers -/

/-- The value of an unpacked number, which has no sign if it is zero. -/
def commonValue? : UnpackedFloat → Option UnpackedFloat
  | .notANumber => none
  | .zero _ => some (.zero .positive)
  | .infinity s => some (.infinity s)
  | .finite s m e hm => some (.finite s m e hm)

/-- Finite numbers compare equal if they have the same sign and places. -/
theorem compare_finite_eq_iff {s t : Sign} {m m' : Nat} {e e' : Int} (hm : 0 < m) (hm' : 0 < m') :
    UnpackedFloat.compare (.finite s m e hm) (.finite t m' e' hm') = some .eq ↔ s = t ∧ m = m' ∧ e = e' := by
  have hplaces : (compare e e').then (compare m m') = .eq ↔ m = m' ∧ e = e' := by
    simp [Ordering.then_eq_eq, Std.LawfulEqCmp.compare_eq_iff_eq, and_comm]
  cases s with
  | positive =>
    cases t with
    | positive => exact Option.some_inj.trans (hplaces.trans (and_iff_right rfl).symm)
    | negative => exact iff_of_false (by rintro ⟨⟩) (by rintro ⟨⟨⟩, -⟩)
  | negative =>
    cases t with
    | positive => exact iff_of_false (by rintro ⟨⟩) (by rintro ⟨⟨⟩, -⟩)
    | negative => exact Option.some_inj.trans (Ordering.swap_eq_eq.trans (hplaces.trans (and_iff_right rfl).symm))

/-- Infinities compare equal if they have the same sign. -/
theorem compare_infinity_eq_iff {s t : Sign} : UnpackedFloat.compare (.infinity s) (.infinity t) = some .eq ↔ s = t := by
  cases s <;> cases t <;> constructor <;> intro h <;> cases h <;> rfl

/-- Unpacked numbers have one value just if it is the value of both. -/
theorem exists_commonValue_iff {u v x y : UnpackedFloat} (hu : commonValue? u = some x) (hv : commonValue? v = some y) :
    (∃ w, commonValue? u = some w ∧ commonValue? v = some w) ↔ x = y := by
  rw [hu, hv]
  constructor
  · rintro ⟨w, hx, hy⟩
    exact Option.some.inj (hx.trans hy.symm)
  · rintro rfl
    exact ⟨x, rfl, rfl⟩

/-- Unpacked numbers are equal if they have one value. -/
theorem unpacked_beq_iff {u v : UnpackedFloat} :
    UnpackedFloat.beq u v = true ↔ ∃ w, commonValue? u = some w ∧ commonValue? v = some w := by
  have hbeq : UnpackedFloat.beq u v = (UnpackedFloat.compare u v == some .eq) := rfl
  rw [hbeq, beq_iff_eq]
  cases u with
  | notANumber =>
    refine iff_of_false (fun h => ?_) (by rintro ⟨w, ⟨⟩, -⟩)
    cases v <;> cases h
  | zero s =>
    cases v with
    | notANumber => exact iff_of_false (by rintro ⟨⟩) (by rintro ⟨w, -, ⟨⟩⟩)
    | zero t => exact iff_of_true rfl ⟨_, rfl, rfl⟩
    | infinity t | finite t =>
      rw [exists_commonValue_iff rfl rfl]
      refine iff_of_false (fun h => ?_) (by rintro ⟨⟩)
      cases t <;> cases h
  | infinity s =>
    cases v with
    | notANumber => exact iff_of_false (by rintro ⟨⟩) (by rintro ⟨w, -, ⟨⟩⟩)
    | infinity t => rw [compare_infinity_eq_iff, exists_commonValue_iff rfl rfl, UnpackedFloat.infinity.injEq]
    | zero t | finite t =>
      rw [exists_commonValue_iff rfl rfl]
      refine iff_of_false (fun h => ?_) (by rintro ⟨⟩)
      cases s <;> cases h
  | finite s m e hm =>
    cases v with
    | notANumber => exact iff_of_false (by rintro ⟨⟩) (by rintro ⟨w, -, ⟨⟩⟩)
    | finite t m' e' hm' => rw [compare_finite_eq_iff, exists_commonValue_iff rfl rfl, UnpackedFloat.finite.injEq]
    | zero t | infinity t =>
      rw [exists_commonValue_iff rfl rfl]
      refine iff_of_false (fun h => ?_) (by rintro ⟨⟩)
      cases s <;> cases t <;> cases h

/-! ## Doubles -/

/-- Doubles are equal if they have one value. -/
theorem beq_iff {x y : Float} :
    (x == y) = true ↔ ∃ w, commonValue? x.toModel.unpack = some w ∧ commonValue? y.toModel.unpack = some w :=
  unpacked_beq_iff

/-- Equal doubles are equal the other way round. -/
theorem beq_symm {x y : Float} (h : (x == y) = true) : (y == x) = true := by
  obtain ⟨w, hx, hy⟩ := beq_iff.1 h
  exact beq_iff.2 ⟨w, hy, hx⟩

/-- Doubles that are equal to one double are equal. -/
theorem beq_trans {x y z : Float} (hxy : (x == y) = true) (hyz : (y == z) = true) : (x == z) = true := by
  obtain ⟨w, hx, hy⟩ := beq_iff.1 hxy
  obtain ⟨w', hy', hz⟩ := beq_iff.1 hyz
  obtain rfl := Option.some.inj (hy.symm.trans hy')
  exact beq_iff.2 ⟨w, hx, hz⟩

/-- A double is equal to itself if it is a number. -/
theorem beq_self_iff {x : Float} : (x == x) = true ↔ Numeric.isNaN x = false := by
  have hnumber : Numeric.isNaN x = x.toModel.unpack.isNaN := rfl
  rw [beq_iff, hnumber]
  cases x.toModel.unpack with
  | notANumber => exact iff_of_false (by rintro ⟨w, ⟨⟩, -⟩) (by rintro ⟨⟩)
  | _ => exact iff_of_true ⟨_, rfl, rfl⟩ rfl

/-- The zeros are what is equal to zero. -/
theorem beq_zero_iff {x : Float} : (x == 0) = true ↔ ∃ s, x.toModel.unpack = .zero s := by
  have hzero : (0 : Float).toModel.unpack = .zero .positive := rfl
  rw [beq_iff, hzero]
  cases x.toModel.unpack with
  | notANumber => exact iff_of_false (by rintro ⟨w, ⟨⟩, -⟩) (by rintro ⟨s, ⟨⟩⟩)
  | zero s => exact iff_of_true ⟨_, rfl, rfl⟩ ⟨s, rfl⟩
  | infinity | finite =>
    rw [exists_commonValue_iff rfl rfl]
    exact iff_of_false (by rintro ⟨⟩) (by rintro ⟨s, ⟨⟩⟩)

end QuantityCalculus.Binary64
