import QuantityCalculus.Numeric.Binary64

/-!
# Doubles on one side of zero

A double is on one side of zero if it is a zero or has the sign of that side; this is what a comparison with zero tells
(`zero_le_iff`, `le_zero_iff`). Products and quotients with a finite factor other than zero are on the side of both signs, however
they are rounded and also where they overflow or vanish (`OnSide.mul`, `OnSide.div`).
-/

namespace QuantityCalculus.Binary64

open Float.Model Float.Model.UnpackedFloat

/-! ## Signs -/

/-- Signs are multiplied in any grouping. -/
theorem sign_mul_assoc (s t u : Sign) : s * t * u = s * (t * u) := by
  cases s <;> cases t <;> cases u <;> rfl

/-- Signs are multiplied in any order. -/
theorem sign_mul_right_comm (s t u : Sign) : s * t * u = s * u * t := by
  cases s <;> cases t <;> cases u <;> rfl

/-- The positive sign changes nothing. -/
theorem sign_mul_positive (s : Sign) : s * .positive = s := by
  cases s <;> rfl

/-- A sign twice changes nothing. -/
theorem sign_mul_mul_self (s t : Sign) : s * t * t = s := by
  cases s <;> cases t <;> rfl

/-! ## Unpacked numbers -/

/-- What holds of both numbers of a choice holds of the one that is chosen. -/
theorem dite_induction {motive : UnpackedFloat → Prop} {p : Prop} [Decidable p] {x : p → UnpackedFloat} {y : ¬p → UnpackedFloat}
    (hx : ∀ h, motive (x h)) (hy : ∀ h, motive (y h)) : motive (if h : p then x h else y h) := by
  by_cases h : p
  · rw [dif_pos h]
    exact hx h
  · rw [dif_neg h]
    exact hy h

/-- A zero, or a number with the sign. What is not a number is on no side. -/
def HasSign (s : Sign) : UnpackedFloat → Prop
  | .notANumber => False
  | .zero _ => True
  | .infinity t | .finite t _ _ _ => t = s

/-- The sign of packed components. -/
theorem unpackSign_packComponents (s : Sign) (e : BitVec 11) (m : BitVec 52) :
    unpackSign (packComponents Format.binary64 s e m) = s.toBitVec := by
  have hbit : unpackSign (packComponents Format.binary64 s e m) = BitVec.extractLsb' 63 1 (s.toBitVec ++ e ++ m) := rfl
  rw [hbit, BitVec.extractLsb'_append_eq_of_le (by decide)]
  exact BitVec.extractLsb'_append_eq_left

/-- Packed components have their sign, unless they are not a number. -/
theorem hasSign_unpack_packComponents (s : Sign) (e : BitVec Format.binary64.exponentBits)
    (m : BitVec Format.binary64.mantissaBitsWithoutImplicit) (h : e = -1#_ → m = 0#_) :
    HasSign s (UnpackedFloat.unpack .binary64 (packComponents .binary64 s e m)) := by
  have hsign : Sign.ofBitVec s.toBitVec = s := by cases s <;> rfl
  unfold UnpackedFloat.unpack
  dsimp only
  rw [unpackSign_packComponents, hsign]
  refine iteInduction (fun he => ?_) fun _ => iteInduction (fun _ => dite_induction (fun _ => trivial) fun _ => rfl) fun _ => rfl
  rw [unpackExponent_packComponents] at he
  rw [unpackMantissa_packComponents, if_pos (h he)]
  rfl

/-- A packed zero is a zero. -/
theorem unpack_pack_zero (s : Sign) :
    UnpackedFloat.unpack .binary64 (UnpackedFloat.pack .binary64 (.zero s)) = .zero s := by
  cases s <;> rfl

/-- A packed infinity is infinite. -/
theorem unpack_pack_infinity (s : Sign) :
    UnpackedFloat.unpack .binary64 (UnpackedFloat.pack .binary64 (.infinity s)) = .infinity s := by
  cases s <;> rfl

/-- Packing keeps a number on its side. -/
theorem HasSign.unpack_pack {s : Sign} {u : UnpackedFloat} (h : HasSign s u) :
    HasSign s (UnpackedFloat.unpack .binary64 (UnpackedFloat.pack .binary64 u)) := by
  cases u with
  | notANumber => nomatch h
  | zero t =>
    rw [unpack_pack_zero]
    trivial
  | infinity t =>
    rw [unpack_pack_infinity]
    exact h
  | finite t m e hm =>
    obtain rfl : t = s := h
    unfold UnpackedFloat.pack
    dsimp only
    split
    · exact hasSign_unpack_packComponents t _ _ fun _ => rfl
    rename_i hbiased
    split
    · refine hasSign_unpack_packComponents t _ _ fun hones => absurd (congrArg BitVec.toNat hones) ?_
      simp only [BitVec.toNat_ofNat, BitVec.neg_one_eq_allOnes, BitVec.toNat_allOnes]
      rw [Nat.mod_eq_of_lt (by omega)]
      omega
    · exact hasSign_unpack_packComponents t _ _ fun hones => absurd (congrArg BitVec.toNat hones) (by decide)

/-- A number that is finite and not zero when it is packed is so itself, with the same sign. -/
theorem eq_finite_of_unpack_pack {u : UnpackedFloat} {s : Sign} {m : Nat} {e : Int} {hm : 0 < m}
    (h : UnpackedFloat.unpack .binary64 (UnpackedFloat.pack .binary64 u) = .finite s m e hm) :
    ∃ m' e' hm', u = .finite s m' e' hm' := by
  cases u with
  | notANumber => nomatch h
  | zero t =>
    rw [unpack_pack_zero] at h
    nomatch h
  | infinity t =>
    rw [unpack_pack_infinity] at h
    nomatch h
  | finite t m' e' hm' =>
    have hsign : HasSign t (UnpackedFloat.unpack .binary64 (UnpackedFloat.pack .binary64 (.finite t m' e' hm'))) :=
      HasSign.unpack_pack rfl
    rw [h] at hsign
    obtain rfl : s = t := hsign
    exact ⟨m', e', hm', rfl⟩

/-- Rounding keeps the sign. -/
theorem hasSign_roundWithAccuracy (spec : Format) (s : Sign) (m : Nat) (e : Int) (accuracy : Accuracy) :
    HasSign s (roundWithAccuracy spec s m e accuracy) := by
  unfold roundWithAccuracy
  exact dite_induction (fun _ => trivial) fun _ => rfl

/-- A product with a finite factor other than zero. -/
theorem HasSign.mul_finite {s t : Sign} {u : UnpackedFloat} (h : HasSign s u) (spec : Format) (m : Nat) (e : Int) (hm : 0 < m) :
    HasSign (s * t) (UnpackedFloat.mul spec u (.finite t m e hm)) := by
  cases u with
  | notANumber => nomatch h
  | zero => trivial
  | infinity =>
    obtain rfl := h
    rfl
  | finite =>
    obtain rfl := h
    exact hasSign_roundWithAccuracy ..

/-- A quotient by a finite divisor other than zero. -/
theorem HasSign.div_finite {s t : Sign} {u : UnpackedFloat} (h : HasSign s u) (spec : Format) (m : Nat) (e : Int) (hm : 0 < m) :
    HasSign (s * t) (UnpackedFloat.div spec u (.finite t m e hm)) := by
  have hdiv : s * t = s / t := by cases s <;> cases t <;> rfl
  rw [hdiv]
  cases u with
  | notANumber => nomatch h
  | zero => trivial
  | infinity =>
    obtain rfl := h
    rfl
  | finite =>
    obtain rfl := h
    exact hasSign_roundWithAccuracy ..

/-- Factors of a product that is finite and not zero are so themselves. -/
theorem eq_finite_of_mul {spec : Format} {u v : UnpackedFloat} {s : Sign} {m : Nat} {e : Int} {hm : 0 < m}
    (h : UnpackedFloat.mul spec u v = .finite s m e hm) :
    ∃ t m₁ e₁ hm₁ t' m₂ e₂ hm₂, u = .finite t m₁ e₁ hm₁ ∧ v = .finite t' m₂ e₂ hm₂ ∧ s = t * t' := by
  cases u with
  | finite t m₁ e₁ hm₁ =>
    cases v with
    | finite t' m₂ e₂ hm₂ =>
      have hsign : HasSign (t * t') (UnpackedFloat.mul spec (.finite t m₁ e₁ hm₁) (.finite t' m₂ e₂ hm₂)) :=
        hasSign_roundWithAccuracy ..
      rw [h] at hsign
      exact ⟨t, m₁, e₁, hm₁, t', m₂, e₂, hm₂, rfl, rfl, hsign⟩
    | _ => nomatch h
  | _ => cases v <;> nomatch h

/-! ## Doubles -/

/-- A zero, or a double with the sign. -/
def OnSide (s : Sign) (x : Float) : Prop := HasSign s x.toModel.unpack

/-- A finite double with the sign, not a zero. -/
def IsFactor (s : Sign) (x : Float) : Prop := ∃ m e hm, x.toModel.unpack = .finite s m e hm

/-- What is at least zero is on the positive side. -/
theorem zero_le_iff {x : Float} : 0 ≤ x ↔ OnSide .positive x := by
  have hle : 0 ≤ x ↔ (UnpackedFloat.le (.zero .positive) x.toModel.unpack) = true := decide_eq_true_iff
  rw [hle, OnSide]
  cases x.toModel.unpack with
  | notANumber => exact iff_of_false (fun h => nomatch h) id
  | zero => exact iff_of_true rfl trivial
  | infinity t | finite t =>
    cases t with
    | positive => exact iff_of_true rfl rfl
    | negative => exact iff_of_false (fun h => nomatch h) (fun h => nomatch h)

/-- What is at most zero is on the negative side. -/
theorem le_zero_iff {x : Float} : x ≤ 0 ↔ OnSide .negative x := by
  have hle : x ≤ 0 ↔ (UnpackedFloat.le x.toModel.unpack (.zero .positive)) = true := decide_eq_true_iff
  rw [hle, OnSide]
  cases x.toModel.unpack with
  | notANumber => exact iff_of_false (fun h => nomatch h) id
  | zero => exact iff_of_true rfl trivial
  | infinity t | finite t =>
    cases t with
    | positive => exact iff_of_false (fun h => nomatch h) (fun h => nomatch h)
    | negative => exact iff_of_true rfl rfl

/-! ## Arithmetic on one side -/

namespace OnSide

variable {s t : Sign} {x y : Float}

/-- A product with a factor. -/
theorem mul (hx : OnSide s x) (hy : IsFactor t y) : OnSide (s * t) (x * y) := by
  obtain ⟨m, e, hm, hy⟩ := hy
  have hproduct : HasSign (s * t) (UnpackedFloat.mul .binary64 x.toModel.unpack (.finite t m e hm)) := hx.mul_finite ..
  rw [← hy] at hproduct
  exact hproduct.unpack_pack

/-- A quotient by a factor. -/
theorem div (hx : OnSide s x) (hy : IsFactor t y) : OnSide (s * t) (x / y) := by
  obtain ⟨m, e, hm, hy⟩ := hy
  have hquotient : HasSign (s * t) (UnpackedFloat.div .binary64 x.toModel.unpack (.finite t m e hm)) := hx.div_finite ..
  rw [← hy] at hquotient
  exact hquotient.unpack_pack

/-- The negated double is on the other side. -/
theorem neg (hx : OnSide s x) : OnSide (-s) (-x) := by
  have hneg : HasSign (-s) (UnpackedFloat.neg x.toModel.unpack) := by
    unfold OnSide at hx
    generalize x.toModel.unpack = u at hx ⊢
    cases u with
    | notANumber => nomatch hx
    | zero t => trivial
    | infinity t =>
      obtain rfl : t = s := hx
      rfl
    | finite t =>
      obtain rfl : t = s := hx
      rfl
  exact hneg.unpack_pack

end OnSide

/-- A positive finite double is a factor. -/
theorem IsFactor.of_pos {y : Float} (hfinite : Numeric.isFinite y) (h : 0 < y) : IsFactor .positive y := by
  have hlt : (UnpackedFloat.lt (.zero .positive) y.toModel.unpack) = true := of_decide_eq_true h
  have hfinite : (!y.toModel.unpack.isNaN && !y.toModel.unpack.isInf) = true := hfinite
  unfold IsFactor
  generalize y.toModel.unpack = u at hlt hfinite ⊢
  cases u with
  | notANumber => nomatch hfinite
  | zero t => cases t <;> nomatch hlt
  | infinity t => nomatch hfinite
  | finite t m e hm =>
    cases t with
    | negative => nomatch hlt
    | positive => exact ⟨m, e, hm, rfl⟩

/-- A negative finite double is a factor. -/
theorem IsFactor.of_neg {y : Float} (hfinite : Numeric.isFinite y) (h : y < 0) : IsFactor .negative y := by
  have hlt : (UnpackedFloat.lt y.toModel.unpack (.zero .positive)) = true := of_decide_eq_true h
  have hfinite : (!y.toModel.unpack.isNaN && !y.toModel.unpack.isInf) = true := hfinite
  unfold IsFactor
  generalize y.toModel.unpack = u at hlt hfinite ⊢
  cases u with
  | notANumber => nomatch hfinite
  | zero t => cases t <;> nomatch hlt
  | infinity t => nomatch hfinite
  | finite t m e hm =>
    cases t with
    | negative => exact ⟨m, e, hm, rfl⟩
    | positive => nomatch hlt

/-- The factors of a product that is a factor. -/
theorem IsFactor.of_mul {s : Sign} {x y : Float} (h : IsFactor s (x * y)) :
    ∃ t t', IsFactor t x ∧ IsFactor t' y ∧ s = t * t' := by
  obtain ⟨m, e, hm, h⟩ := h
  obtain ⟨m', e', hm', h⟩ := eq_finite_of_unpack_pack h
  obtain ⟨t, m₁, e₁, hm₁, t', m₂, e₂, hm₂, hx, hy, hs⟩ := eq_finite_of_mul h
  exact ⟨t, t', ⟨m₁, e₁, hm₁, hx⟩, ⟨m₂, e₂, hm₂, hy⟩, hs⟩

end QuantityCalculus.Binary64
