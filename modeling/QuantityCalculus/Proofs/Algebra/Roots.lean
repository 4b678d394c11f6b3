import QuantityCalculus.Algebra.Arithmetic
import QuantityCalculus.Catalog.Standard
import QuantityCalculus.Proofs.Binary64.Division
import QuantityCalculus.Proofs.Binary64.Infinity
import QuantityCalculus.Proofs.Evaluation.Outcome

/-!
# Roots of numbers and of quantities

The root of a number is its power with the reciprocal of the degree; only an odd root of a negative number is the negated power of the
negated number (`realRoot`). The root of a quantity is the power with the reciprocal, of its payload and of its unit
(`root_quantity_eq_ok_iff`). The powers of doubles are a parameter here, of which the laws of powers of negative numbers are assumed
(`PowerLaws`). Under these the two roots have the same payload except for an odd root of a negative number of a degree other than one
and minus one, where the quantity has no number (`root_of_quantity_unless_odd`).
-/

namespace QuantityCalculus

namespace Binary64

/-- The doubles with a function for their powers. -/
@[reducible]
def withPower (pow : Float → Float → Float) : Numeric Float := { (inferInstance : Numeric Float) with pow := pow }

/-- What powers of doubles are like, however they are rounded: where a number below zero has powers that are numbers, and of which
sign they are. -/
structure PowerLaws (pow : Float → Float → Float) : Prop where
  /-- A power of a number above zero is a number. -/
  isNaN_of_pos : ∀ {x y}, 0 < x → Numeric.isNaN y = false → Numeric.isNaN (pow x y) = false
  /-- No power of a finite number below zero is a number if the exponent is no integer. -/
  isNaN_of_neg : ∀ {x y v}, x < 0 → Numeric.isFinite x = true → value? y = some v → (∀ k : ℤ, v ≠ k) → Numeric.isNaN (pow x y) = true
  /-- With an odd exponent, the power of a number below zero is that of its magnitude, negated. -/
  eq_neg_of_odd : ∀ {x y} {k : ℤ}, x < 0 → value? y = some (k : ℚ) → ¬2 ∣ k → pow x y = -pow (-x) y
  /-- With an exponent that is no integer, the infinities have one power. -/
  infinities : ∀ {y v}, value? y = some v → (∀ k : ℤ, v ≠ k) → pow (-Numeric.infinity) y = pow Numeric.infinity y

end Binary64

namespace Algebra

open Binary64

/-- The root of a number. -/
theorem root_number {F : Type} [Numeric F] {c : Catalog F} {n x : F} :
    root c (.number n) (.number x) = .ok (.number (realRoot x n)) := by
  simp [root, lift, mapElements]

/-- The root of a quantity succeeds just if its unit has the power with the reciprocal of the degree, and its payload is the power of
the payload. -/
theorem root_quantity_eq_ok_iff {F : Type} [Numeric F] {c : Catalog F} {n x : F} {u : UnitOfMeasure F}
    {binding : Option (Binding F (Value F))} {r : Value F} :
    root c (.number n) (.quantity ⟨.number x, u, binding⟩) = .ok r ↔
      ∃ w, Composition.power c u (1 / n) = .ok w ∧ r = (Value.number (Numeric.pow x (1 / n))).inUnit w := by
  have hroot : root c (.number n) (.quantity ⟨.number x, u, binding⟩) =
      (Outcome.ofComposition (Composition.power c u (1 / n)) >>= fun w =>
        pow c (.number x) (.number (1 / n)) >>= fun y => pure (y.inUnit w)) := by
    simp [root, lift, mapElements, pow]
  have hpayload : pow c (.number x) (.number (1 / n)) = .ok (.number (Numeric.pow x (1 / n))) := by
    simp [pow, mapElements]
  rw [hroot, hpayload, Outcome.bind_eq_ok_iff]
  refine exists_congr fun w => and_congr Outcome.ofComposition_eq_ok_iff ?_
  rw [Outcome.ok_bind, Outcome.pure_eq_ok_iff, eq_comm]

section

variable {power : Float → Float → Float} {n x : Float}

/-- The root of a number, with powers as a parameter. -/
theorem realRoot_withPower : @realRoot _ (withPower power) x n = if x < 0 ∧ isOdd n then -power (-x) (1 / n) else power x (1 / n) :=
  rfl

/-- An odd degree is an integer. -/
theorem exists_integer_of_isOdd (h : isOdd n = true) : ∃ k : ℤ, value? n = some (k : ℚ) :=
  exists_integer_of_fract (Bool.and_eq_true_iff.1 h).1

/-- The odd root of a number below zero is a number. -/
theorem isNaN_realRoot (hlaws : PowerLaws power) (hn : (n == 0) = false) (hx : x < 0) (hodd : isOdd n = true) :
    Numeric.isNaN (@realRoot _ (withPower power) x n) = false := by
  obtain ⟨k, hk⟩ := exists_integer_of_isOdd hodd
  have hreciprocal : Numeric.isNaN (1 / n) = false := by
    rcases reciprocal_cases hk hn with ⟨-, j, hj, -⟩ | ⟨-, -, w, hw, -⟩
    · exact isNaN_of_value? hj
    · exact isNaN_of_value? hw
  rw [realRoot_withPower, if_pos ⟨hx, hodd⟩, isNaN_neg]
  exact hlaws.isNaN_of_pos (neg_pos_iff.2 hx) hreciprocal

/-- A power with the reciprocal of a degree is the root unless the root is an odd one of a number below zero, of a degree other than one
and minus one. -/
theorem power_eq_realRoot_iff (hlaws : PowerLaws power) (hn : (n == 0) = false) :
    power x (1 / n) = @realRoot _ (withPower power) x n ↔ ¬(x < 0 ∧ isOdd n = true ∧ (n == 1) = false ∧ (n == -1) = false) := by
  by_cases hnegated : x < 0 ∧ isOdd n = true
  · obtain ⟨hx, hodd⟩ := hnegated
    have hnumber := isNaN_realRoot hlaws hn hx hodd
    rw [realRoot_withPower, if_pos ⟨hx, hodd⟩] at hnumber ⊢
    obtain ⟨k, hk⟩ := exists_integer_of_isOdd hodd
    rcases reciprocal_cases hk hn with ⟨hunit, j, hj, hodd'⟩ | ⟨hone, hminus, w, hw, hfraction⟩
    · refine iff_of_true (hlaws.eq_neg_of_odd hx hj hodd') ?_
      rintro ⟨-, -, hone, hminus⟩
      rw [hone, hminus] at hunit
      exact hunit.elim nofun nofun
    · refine iff_of_false (fun heq => ?_) fun h => h ⟨hx, hodd, hone, hminus⟩
      rcases isFinite_or_eq_of_neg hx with hfinite | rfl
      · have hnan := hlaws.isNaN_of_neg hx hfinite hw hfraction
        rw [heq, hnumber] at hnan
        nomatch hnan
      · rw [isNaN_neg] at hnumber
        rw [hlaws.infinities hw hfraction] at heq
        exact neg_ne_self hnumber heq.symm
  · rw [realRoot_withPower, if_neg hnegated]
    exact iff_of_true rfl fun h => hnegated ⟨h.1, h.2.1⟩

/-- The power of a finite number below zero with the reciprocal of an odd degree other than one and minus one is not a number. -/
theorem isNaN_power (hlaws : PowerLaws power) (hn : (n == 0) = false) (hx : x < 0) (hodd : isOdd n = true) (hone : (n == 1) = false)
    (hminus : (n == -1) = false) (hfinite : Numeric.isFinite x = true) : Numeric.isNaN (power x (1 / n)) = true := by
  obtain ⟨k, hk⟩ := exists_integer_of_isOdd hodd
  rcases reciprocal_cases hk hn with ⟨hunit, -⟩ | ⟨-, -, w, hw, hfraction⟩
  · rw [hone, hminus] at hunit
    exact hunit.elim nofun nofun
  · exact hlaws.isNaN_of_neg hx hfinite hw hfraction

/-- The root of a quantity that succeeds has the payload that the root of the number is, unless it is an odd root of a number below
zero, of a degree other than one and minus one. In that case the root of the number is a number, and the payload is none if the number
is finite. -/
theorem root_of_quantity_unless_odd (hlaws : PowerLaws power) {c : Catalog Float} {u : UnitOfMeasure Float}
    {binding : Option (Binding Float (Value Float))} {r : Value Float} (hn : (n == 0) = false)
    (h : @root _ (withPower power) c (.number n) (.quantity ⟨.number x, u, binding⟩) = .ok r) :
    ∃ w y z, r = (Value.number y).inUnit w ∧ @root _ (withPower power) c (.number n) (.number x) = .ok (.number z) ∧
      (y = z ↔ ¬(x < 0 ∧ isOdd n = true ∧ (n == 1) = false ∧ (n == -1) = false)) ∧
      (x < 0 ∧ isOdd n = true ∧ (n == 1) = false ∧ (n == -1) = false →
        Numeric.isNaN z = false ∧ (Numeric.isFinite x = true → Numeric.isNaN y = true)) := by
  let _ : Numeric Float := withPower power
  obtain ⟨w, -, hr⟩ := root_quantity_eq_ok_iff.1 h
  refine ⟨w, power x (1 / n), realRoot x n, hr, root_number, power_eq_realRoot_iff hlaws hn, ?_⟩
  rintro ⟨hx, hodd, hone, hminus⟩
  exact ⟨isNaN_realRoot hlaws hn hx hodd, isNaN_power hlaws hn hx hodd hone hminus⟩

end

/-! ## Eight cubic meters -/

/-- Powers that keep the laws: two for eight and one for other numbers above zero, with the signs that powers have. -/
def samplePower (x y : Float) : Float :=
  let positive (x : Float) : Float := if x == 8 then 2 else 1
  if 0 < x then positive x
  else if Numeric.fract y == 0 then if 2 ∣ truncate y then positive (-x) else -positive (-x)
  else if Numeric.isFinite x then 0 / 0
  else positive (-x)

/-- The sample keeps the laws. -/
theorem powerLaws_samplePower : PowerLaws samplePower := by
  have hnumber (p : Prop) [Decidable p] : Numeric.isNaN (if p then 2 else 1 : Float) = false := by
    split <;> rfl
  have hfraction {y : Float} {v : ℚ} (hv : value? y = some v) (hnone : ∀ k : ℤ, v ≠ k) : (Numeric.fract y == 0) = false :=
    Bool.eq_false_iff.2 fun h => hnone _ ((fract_beq_zero_iff hv).1 h)
  refine ⟨fun hx _ => ?_, fun hx hfinite hv hnone => ?_, fun {x y k} hx hk hodd => ?_, fun hv hnone => ?_⟩
  · rw [samplePower, if_pos hx]
    exact hnumber _
  · rw [samplePower, if_neg (not_pos_of_neg hx), hfraction hv hnone, if_neg Bool.false_ne_true, if_pos hfinite]
    rfl
  · have hinteger : (Numeric.fract y == 0) = true := (fract_beq_zero_iff hk).2 (by rw [truncate_of_value? hk])
    have hpos : 0 < -x := neg_pos_iff.2 hx
    simp only [samplePower, if_neg (not_pos_of_neg hx), hinteger, truncate_of_value? hk, if_neg hodd, if_pos hpos, if_true]
  · have hpos : (0 : Float) < Numeric.infinity := by decide +kernel
    have hneg : (-Numeric.infinity : Float) < 0 := by decide +kernel
    have hinfinite : ¬Numeric.isFinite (-Numeric.infinity : Float) = true := by decide +kernel
    rw [samplePower, samplePower, if_pos hpos, if_neg (not_pos_of_neg hneg), hfraction hv hnone, if_neg Bool.false_ne_true,
      if_neg hinfinite]
    rfl

/-- A cubic meter. -/
def cubicMeter : UnitOfMeasure Float := Catalog.Standard.multiple ((Dimension.single "length").pow 3) "m³" "cubic meter" "cubic meters" 1 1

/-- A catalog with cube roots. -/
def withCubeRoots : Catalog Float := Catalog.empty.addDegree (1 / 3) ⟨"^⅓", .plain "cube root of \x7b0\x7d"⟩

/-- The cube root of a cubic meter. -/
theorem exists_power_cubicMeter : ∃ w, @Composition.power _ (withPower samplePower) withCubeRoots cubicMeter (1 / 3) = .ok w := by
  have h : (@Composition.power _ (withPower samplePower) withCubeRoots cubicMeter (1 / 3)).toBool = true := by decide +kernel
  cases hw : @Composition.power _ (withPower samplePower) withCubeRoots cubicMeter (1 / 3) with
  | ok w => exact ⟨w, rfl⟩
  | error e =>
    rw [hw] at h
    nomatch h

/-- The cube root of eight cubic meters is two of the cube roots of cubic meters. -/
theorem cube_root_of_eight : ∃ w, @root _ (withPower samplePower) withCubeRoots (.number 3) ((Value.number 8).inUnit cubicMeter) =
    .ok ((Value.number 2).inUnit w) := by
  obtain ⟨w, hw⟩ := exists_power_cubicMeter
  have hroot := (@root_quantity_eq_ok_iff _ (withPower samplePower) withCubeRoots 3 8 cubicMeter none _).2 ⟨w, hw, rfl⟩
  obtain ⟨w', y, z, hr, hz, hiff, -⟩ := root_of_quantity_unless_odd powerLaws_samplePower (by decide +kernel) hroot
  obtain rfl : y = z := hiff.2 fun h => absurd h.1 (by decide +kernel)
  have htwo : @realRoot _ (withPower samplePower) 8 3 = 2 := by decide +kernel
  have hnumber : @realRoot _ (withPower samplePower) 8 3 = y :=
    Value.number.inj (Except.ok.inj ((@root_number _ (withPower samplePower) ..).symm.trans hz))
  obtain rfl : 2 = y := htwo.symm.trans hnumber
  exact ⟨w', hroot.trans (congrArg Except.ok hr)⟩

/-- The cube root of minus eight is minus two, and that of minus eight cubic meters has no number as its payload. -/
theorem cube_root_of_minus_eight : PowerLaws samplePower ∧ ((3 : Float) == 0) = false ∧
    @root _ (withPower samplePower) withCubeRoots (.number 3) (.number (-8)) = .ok (.number (-2)) ∧
    ∃ w y, @root _ (withPower samplePower) withCubeRoots (.number 3) ((Value.number (-8)).inUnit cubicMeter) =
      .ok ((Value.number y).inUnit w) ∧ Numeric.isNaN y = true := by
  obtain ⟨w, hw⟩ := exists_power_cubicMeter
  have htwo : @realRoot _ (withPower samplePower) (-8) 3 = -2 := by decide +kernel
  have hnumber := (@root_number _ (withPower samplePower) withCubeRoots 3 (-8)).trans (congrArg (fun y => Except.ok (Value.number y)) htwo)
  have hquantity := (@root_quantity_eq_ok_iff _ (withPower samplePower) withCubeRoots 3 (-8) cubicMeter none _).2 ⟨w, hw, rfl⟩
  exact ⟨powerLaws_samplePower, by decide +kernel, hnumber, w, _, hquantity, by decide +kernel⟩

end Algebra

end QuantityCalculus
