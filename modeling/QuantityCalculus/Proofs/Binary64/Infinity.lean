import QuantityCalculus.Builtin.Statistics
import QuantityCalculus.Proofs.Binary64.Order

/-!
# Doubles within infinity

A double that is a number is less than infinity or infinity itself (`lt_infinity_or_eq`), and the same on the other side of zero. So
the least of some doubles is what a search from infinity on finds, and the greatest what one from negative infinity on does
(`extremeOf_min`, `extremeOf_max`).
-/

namespace QuantityCalculus

/-! ## Choices from a bound on -/

/-- The extreme of numbers is what a search from the bound on finds, where each number replaces what is before it that it is beyond. The
bound has to give way to every number other than itself, and nothing to what is not a number. -/
theorem extremeOf_eq_foldl {F : Type} [Numeric F] {beyond : F → F → Prop} [DecidableRel beyond] {bound : F}
    (hbound : Numeric.isNaN bound = false) (hfirst : ∀ x, Numeric.isNaN x = false → beyond x bound ∨ x = bound)
    (hskip : ∀ x y, Numeric.isNaN y = true → ¬beyond y x) (xs : List F) :
    let choose x y := if Numeric.isNaN x then y else if beyond y x then y else x
    extremeOf choose bound xs = xs.foldl choose bound := by
  intro choose
  have hchoose {x : F} (hx : Numeric.isNaN x = false) (y : F) : choose x y = if beyond y x then y else x :=
    if_neg (by simp [hx])
  have hfilter {x : F} (hx : Numeric.isNaN x = false) :
      xs.foldl choose x = (xs.filter (!Numeric.isNaN ·)).foldl choose x := by
    induction xs generalizing x with
    | nil => rfl
    | cons y ys ih =>
      cases hy : Numeric.isNaN y with
      | true =>
        rw [List.foldl_cons, hchoose hx, if_neg (hskip x y hy), List.filter_cons_of_neg (by simp [hy])]
        exact ih hx
      | false =>
        have hnumber : Numeric.isNaN (choose x y) = false := by
          rw [hchoose hx]
          split <;> assumption
        rw [List.foldl_cons, List.filter_cons_of_pos (by simp [hy]), List.foldl_cons]
        exact ih hnumber
  have hall : ∀ x ∈ xs.filter (!Numeric.isNaN ·), Numeric.isNaN x = false := by
    intro x hx
    simpa using (List.mem_filter.1 hx).2
  rw [hfilter hbound]
  unfold extremeOf
  cases hxs : xs.filter (!Numeric.isNaN ·) with
  | nil => rfl
  | cons x xs' =>
    rw [hxs] at hall
    have hstart : choose bound x = x := by
      rw [hchoose hbound]
      rcases hfirst x (hall x (List.mem_cons_self ..)) with hbeyond | rfl
      · exact if_pos hbeyond
      · exact ite_self _
    rw [List.foldl_cons, hstart]

namespace Binary64

open Float.Model Float.Model.UnpackedFloat

/-! ## Infinities -/

/-- A word is its sign, its exponent and its mantissa, one after another. -/
theorem packComponents_unpacked (b : BitVec Format.binary64.numBits) :
    packComponents .binary64 (Sign.ofBitVec (unpackSign b)) (unpackExponent b) (unpackMantissa b) = b := by
  have hsign (v : BitVec 1) : (Sign.ofBitVec v).toBitVec = v := by
    revert v
    decide
  have hparts : (unpackSign b ++ unpackExponent b ++ unpackMantissa b : BitVec 64) =
      BitVec.extractLsb' 63 1 b ++ BitVec.extractLsb' 52 11 b ++ BitVec.extractLsb' 0 52 b := rfl
  unfold packComponents
  rw [hsign]
  refine hparts.trans ?_
  rw [BitVec.extractLsb'_append_extractLsb'_eq_extractLsb' (by decide),
    BitVec.extractLsb'_append_extractLsb'_eq_extractLsb' (by decide)]
  exact BitVec.extractLsb'_eq_self

/-- The word of an infinity is told by its sign. -/
theorem eq_packComponents_of_infinity {b : BitVec Format.binary64.numBits} {s : Sign}
    (h : UnpackedFloat.unpack .binary64 b = .infinity s) : b = packComponents .binary64 s (-1#_) 0#_ := by
  unfold UnpackedFloat.unpack at h
  dsimp only at h
  by_cases hexponent : unpackExponent b = -1#_
  · rw [if_pos hexponent] at h
    by_cases hmantissa : unpackMantissa b = 0#_
    · rw [if_pos hmantissa] at h
      obtain rfl := UnpackedFloat.infinity.inj h
      rw [← hexponent, ← hmantissa]
      exact (packComponents_unpacked b).symm
    · rw [if_neg hmantissa] at h
      cases h
  · rw [if_neg hexponent] at h
    by_cases hzero : unpackExponent b = 0#_
    · rw [if_pos hzero] at h
      by_cases hmantissa : unpackMantissa b = 0#_
      · rw [dif_pos hmantissa] at h
        cases h
      · rw [dif_neg hmantissa] at h
        cases h
    · rw [if_neg hzero] at h
      cases h

/-- There is one infinity of each sign. -/
theorem eq_of_infinity {x y : Float} {s : Sign} (hx : x.toModel.unpack = .infinity s) (hy : y.toModel.unpack = .infinity s) :
    x = y := by
  have hbits : x.toModel.toBits = y.toModel.toBits :=
    UInt64.toBitVec_inj.1 ((eq_packComponents_of_infinity hx).trans (eq_packComponents_of_infinity hy).symm)
  obtain ⟨⟨bits, hvalid⟩⟩ := x
  obtain ⟨⟨bits', hvalid'⟩⟩ := y
  obtain rfl : bits = bits' := hbits
  rfl

/-- The positive infinity. -/
theorem unpack_infinity : (Numeric.infinity : Float).toModel.unpack = .infinity .positive := by
  rfl

/-- The negative infinity. -/
theorem unpack_neg_infinity : (-Numeric.infinity : Float).toModel.unpack = .infinity .negative := by
  rfl

/-- A double that is a number is less than infinity or infinity itself. -/
theorem lt_infinity_or_eq {x : Float} (h : Numeric.isNaN x = false) : x < Numeric.infinity ∨ x = Numeric.infinity := by
  have hlt : x < Numeric.infinity ↔ (UnpackedFloat.lt x.toModel.unpack (.infinity .positive)) = true := decide_eq_true_iff
  have hnumber : x.toModel.unpack.isNaN = false := h
  rw [hlt]
  cases hx : x.toModel.unpack with
  | notANumber =>
    rw [hx] at hnumber
    nomatch hnumber
  | zero => exact .inl rfl
  | finite => exact .inl rfl
  | infinity s =>
    cases s with
    | positive => exact .inr (eq_of_infinity hx unpack_infinity)
    | negative => exact .inl rfl

/-- A double that is a number is greater than negative infinity or negative infinity itself. -/
theorem neg_infinity_lt_or_eq {x : Float} (h : Numeric.isNaN x = false) : -Numeric.infinity < x ∨ x = -Numeric.infinity := by
  have hlt : -Numeric.infinity < x ↔ (UnpackedFloat.lt (.infinity .negative) x.toModel.unpack) = true := decide_eq_true_iff
  have hnumber : x.toModel.unpack.isNaN = false := h
  rw [hlt]
  cases hx : x.toModel.unpack with
  | notANumber =>
    rw [hx] at hnumber
    nomatch hnumber
  | zero => exact .inl rfl
  | finite => exact .inl rfl
  | infinity s =>
    cases s with
    | positive => exact .inl rfl
    | negative => exact .inr (eq_of_infinity hx unpack_neg_infinity)

/-- A double below zero is finite or the negative infinity. -/
theorem isFinite_or_eq_of_neg {x : Float} (h : x < 0) : Numeric.isFinite x = true ∨ x = -Numeric.infinity := by
  have hlt : UnpackedFloat.lt x.toModel.unpack (.zero .positive) = true := of_decide_eq_true h
  have hfinite : Numeric.isFinite x = (!x.toModel.unpack.isNaN && !x.toModel.unpack.isInf) := rfl
  rw [hfinite]
  cases hx : x.toModel.unpack with
  | notANumber =>
    rw [hx] at hlt
    nomatch hlt
  | zero | finite => exact .inl rfl
  | infinity s =>
    rw [hx] at hlt
    cases s with
    | positive => nomatch hlt
    | negative => exact .inr (eq_of_infinity hx unpack_neg_infinity)

/-- What is not a number is not less than a double and not greater. -/
theorem not_lt_of_isNaN {x y : Float} (h : Numeric.isNaN y = true) : ¬y < x ∧ ¬x < y := by
  have hlt : y < x ↔ (UnpackedFloat.lt y.toModel.unpack x.toModel.unpack) = true := decide_eq_true_iff
  have hgt : x < y ↔ (UnpackedFloat.lt x.toModel.unpack y.toModel.unpack) = true := decide_eq_true_iff
  have hnone : y.toModel.unpack.isNaN = true := h
  rw [hlt, hgt]
  cases hy : y.toModel.unpack with
  | notANumber => cases x.toModel.unpack <;> exact ⟨nofun, nofun⟩
  | _ =>
    rw [hy] at hnone
    nomatch hnone

/-! ## The least and the greatest -/

/-- The least of some doubles is what a search from infinity on finds. -/
theorem extremeOf_min (xs : List Float) :
    extremeOf Numeric.min Numeric.infinity xs = xs.foldl Numeric.min Numeric.infinity :=
  extremeOf_eq_foldl (congrArg UnpackedFloat.isNaN unpack_infinity) (fun _ => lt_infinity_or_eq)
    (fun _ _ hy => (not_lt_of_isNaN hy).1) xs

/-- The greatest of some doubles is what a search from negative infinity on finds. -/
theorem extremeOf_max (xs : List Float) :
    extremeOf Numeric.max (-Numeric.infinity) xs = xs.foldl Numeric.max (-Numeric.infinity) :=
  @extremeOf_eq_foldl Float _ (fun y x => x < y) _ _ (congrArg UnpackedFloat.isNaN unpack_neg_infinity)
    (fun _ => neg_infinity_lt_or_eq) (fun _ _ hy => (not_lt_of_isNaN hy).2) xs

end Binary64

end QuantityCalculus
