import QuantityCalculus.Proofs.Binary64.Rounding
import QuantityCalculus.Proofs.Composition.MixedRadix

/-!
# The signs of components

In doubles, a whole component has the sign of what remains before it: no conversion by a positive scale and no rounding to an integer
goes past zero. What remains may have another sign than the base value, since a component that is snapped to the next integer takes
too much. That is less than the tolerance of the base value or of the unit; in exact arithmetic no whole component is of the wrong
sign as long as this is less than one of every further unit (`components_agree_in_sign`).
-/

namespace QuantityCalculus

open Float.Model.UnpackedFloat (Sign)

section Positive

variable {F : Type} [Numeric F]

/-- Both parts of the scale are finite, and they have one sign. -/
def Ratio.IsPositive (r : Ratio F) : Prop :=
  Numeric.isFinite r.multiplier ∧ Numeric.isFinite r.divisor ∧
    (0 < r.multiplier ∧ 0 < r.divisor ∨ r.multiplier < 0 ∧ r.divisor < 0)

instance (r : Ratio F) : Decidable r.IsPositive :=
  inferInstanceAs (Decidable (_ ∧ _ ∧ (_ ∧ _ ∨ _ ∧ _)))

/-- The unit has a positive scale. -/
def UnitOfMeasure.HasPositiveScale (u : UnitOfMeasure F) : Prop := ∃ r, u.ratio? = some r ∧ r.IsPositive

end Positive

/-! ## Doubles -/

namespace Binary64

/-- A double has one sign. -/
theorem IsFactor.sign_eq {s t : Sign} {x : Float} (h : IsFactor s x) (hx : OnSide t x) : s = t := by
  obtain ⟨m, e, hm, h⟩ := h
  unfold OnSide at hx
  rw [h] at hx
  exact hx

/-- Both parts of a positive scale have one sign. -/
theorem exists_isFactor_of_isPositive {r : Ratio Float} (h : r.IsPositive) :
    ∃ s, IsFactor s r.multiplier ∧ IsFactor s r.divisor := by
  obtain ⟨hmultiplier, hdivisor, ⟨hm, hd⟩ | ⟨hm, hd⟩⟩ := h
  · exact ⟨.positive, .of_pos hmultiplier hm, .of_pos hdivisor hd⟩
  · exact ⟨.negative, .of_neg hmultiplier hm, .of_neg hdivisor hd⟩

/-- A step of scaling has a sign, by which undoing it changes sides. -/
theorem exists_sign_of_step {step : Step Float} {r r' : Ratio Float} (h : step.scale? r = some r') {s t : Sign}
    (hs : IsFactor s r'.multiplier) (ht : IsFactor t r'.divisor) :
    ∃ s' t' v, IsFactor s' r.multiplier ∧ IsFactor t' r.divisor ∧ s * t = s' * t' * v ∧
      ∀ side x, OnSide side x → OnSide (side * v) (step.undo x) := by
  cases step with
  | mul a =>
    obtain rfl := Option.some.inj h
    obtain ⟨s', v, hs', hv, rfl⟩ := hs.of_mul
    exact ⟨s', t, v, hs', ht, sign_mul_right_comm s' v t, fun side x hx => hx.div hv⟩
  | div a =>
    obtain rfl := Option.some.inj h
    obtain ⟨t', v, ht', hv, rfl⟩ := ht.of_mul
    exact ⟨s, t', v, hs, ht', (sign_mul_assoc s t' v).symm, fun side x hx => hx.mul hv⟩
  | add a => nomatch h
  | sub a => nomatch h

/-- Steps of scaling have a sign, by which undoing them changes sides. -/
theorem exists_sign_of_steps {steps : List (Step Float)} {r r' : Ratio Float}
    (h : steps.foldlM (fun r step => step.scale? r) r = some r') {s t : Sign} (hs : IsFactor s r'.multiplier)
    (ht : IsFactor t r'.divisor) :
    ∃ s' t' v, IsFactor s' r.multiplier ∧ IsFactor t' r.divisor ∧ s * t = s' * t' * v ∧
      ∀ side x, OnSide side x → OnSide (side * v) (steps.foldr (fun step x => step.undo x) x) := by
  induction steps generalizing r with
  | nil =>
    obtain rfl := Option.some.inj h
    exact ⟨s, t, .positive, hs, ht, (sign_mul_positive _).symm, fun side x hx => by rwa [sign_mul_positive]⟩
  | cons step steps ih =>
    rw [List.foldlM_cons] at h
    obtain ⟨r₁, hstep, h⟩ := Option.bind_eq_some_iff.1 h
    obtain ⟨s₁, t₁, v₁, hs₁, ht₁, heq₁, hundo₁⟩ := ih h
    obtain ⟨s', t', v, hs', ht', heq, hundo⟩ := exists_sign_of_step hstep hs₁ ht₁
    refine ⟨s', t', v * v₁, hs', ht', ?_, ?_⟩
    · rw [heq₁, heq, sign_mul_assoc]
    · intro side x hx
      rw [← sign_mul_assoc, sign_mul_right_comm, List.foldr_cons]
      exact hundo _ _ (hundo₁ _ _ hx)

/-- Steps with a positive scale are undone on one side of zero. -/
theorem OnSide.undo {steps : List (Step Float)} {r : Ratio Float} (h : Step.ratio? steps = some r) (hr : r.IsPositive)
    {side : Sign} {x : Float} (hx : OnSide side x) :
    OnSide side (steps.reverse.foldl (fun x step => step.undo x) x) := by
  obtain ⟨s, hm, hd⟩ := exists_isFactor_of_isPositive hr
  obtain ⟨s', t', v, hs', ht', heq, hundo⟩ := exists_sign_of_steps h hm hd
  have hone : OnSide .positive 1 := zero_le_iff.1 (by decide +kernel)
  obtain rfl : s' = .positive := hs'.sign_eq hone
  obtain rfl : t' = .positive := ht'.sign_eq hone
  -- The signs of the two parts of the scale are one sign, and their product is positive.
  obtain rfl : v = .positive := by cases s <;> cases v <;> first | rfl | nomatch heq
  rw [List.foldl_reverse, ← sign_mul_positive side]
  exact hundo side x hx

/-- A unit with a positive scale converts a double to one on its side of zero, and every double back. -/
theorem exists_conversions {u : UnitOfMeasure Float} (hu : u.HasPositiveScale) (x : Float) (dep : Option (Scalar Float)) :
    (∃ value, u.fromBase (.number x) dep = .ok (.number value) ∧ ∀ side, OnSide side x → OnSide side value) ∧
      ∃ base, u.toBase (.number x) dep = .ok (.number base) := by
  obtain ⟨r, h, hr⟩ := hu
  unfold UnitOfMeasure.ratio? at h
  unfold UnitOfMeasure.fromBase UnitOfMeasure.toBase
  split at h
  · exact ⟨⟨x, rfl, fun _ hx => hx⟩, x, rfl⟩
  · obtain rfl := Option.some.inj h
    refine ⟨⟨_, rfl, fun side hx => ?_⟩, _, rfl⟩
    obtain ⟨s, hm, hd⟩ := exists_isFactor_of_isPositive hr
    rw [← sign_mul_mul_self side s]
    exact (hx.mul hd).div hm
  · rename_i i _
    cases hsteps : i.steps (F := Float) with
    | error e =>
      rw [hsteps] at h
      nomatch h
    | ok steps =>
      rw [hsteps] at h
      exact ⟨⟨_, rfl, fun side hx => hx.undo h hr⟩, _, rfl⟩
  · nomatch h

/-- The whole part of a double is on its side of zero. -/
theorem OnSide.wholePart {s : Sign} {x : Float} (hx : OnSide s x) : OnSide s (Composition.wholePart x) := by
  unfold Composition.wholePart
  dsimp only
  split
  · exact hx.round
  split
  · exact hx.ceil
  · exact hx.floor

end Binary64

namespace Composition

open Binary64

/-- Units of positive scales split every double. -/
theorem exists_splitOff_double {us : List (UnitOfMeasure Float)} (h : ∀ u ∈ us, u.HasPositiveScale) (x : Float)
    (dep : Option (Scalar Float)) : ∃ wholes y, splitOff dep us x = .ok (wholes, y) := by
  induction us generalizing x with
  | nil => exact ⟨[], x, rfl⟩
  | cons u us ih =>
    have hu := h u (List.mem_cons_self ..)
    obtain ⟨value, hvalue, -⟩ := (exists_conversions hu x dep).1
    obtain ⟨taken, htaken⟩ := (exists_conversions hu (wholePart value) dep).2
    obtain ⟨wholes, y, hsplit⟩ := ih (fun v hv => h v (List.mem_cons_of_mem _ hv)) (x - taken)
    refine ⟨wholePart value :: wholes, y, splitOff_cons_eq_ok_iff.2 ⟨value, taken, wholes, ?_, ?_, hsplit, rfl⟩⟩
    · rw [UnitOfMeasure.fromBaseNumber, hvalue]
      rfl
    · rw [UnitOfMeasure.toBaseNumber, htaken]
      rfl

/-- A whole component of a double is on the side of zero of what remains before it. -/
theorem exists_rest_onSide {us : List (UnitOfMeasure Float)} (h : ∀ u ∈ us, u.HasPositiveScale) {x y : Float}
    {dep : Option (Scalar Float)} {wholes : List Float} (hsplit : splitOff dep us x = .ok (wholes, y)) {i : ℕ} {c : Float}
    (hc : wholes[i]? = some c) :
    ∃ rest, splitOff dep (us.take i) x = .ok (wholes.take i, rest) ∧ ∀ side, OnSide side rest → OnSide side c := by
  obtain ⟨u, rest, value, hu, hrest, hvalue, rfl⟩ := exists_wholePart_of_splitOff hsplit hc
  refine ⟨rest, hrest, fun side hside => ?_⟩
  obtain ⟨value', hvalue', honSide⟩ := (exists_conversions (h u (List.mem_of_getElem? hu)) rest dep).1
  rw [UnitOfMeasure.fromBaseNumber, hvalue'] at hvalue
  obtain rfl := Except.ok.inj hvalue
  exact (honSide side hside).wholePart

/-! ## Exact numbers -/

namespace Splits

variable {scales : List ℚ} {scale x y : ℚ} {wholes : List ℤ}

/-- The opposite is split into opposites. -/
theorem neg (h : Splits scales x wholes y) : Splits scales (-x) (wholes.map (-·)) (-y) := by
  induction h with
  | nil x => exact .nil (-x)
  | @cons scale scales x wholes y _ ih =>
    have hwhole : wholeOf (-x / scale) = -wholeOf (x / scale) := by rw [neg_div, wholeOf_neg]
    have hrest : -(x - wholeOf (x / scale) * scale) = -x - wholeOf (-x / scale) * scale := by
      rw [hwhole]
      push_cast
      ring
    rw [hrest] at ih
    rw [List.map_cons, ← hwhole]
    exact .cons ih

/-- Nothing is taken in units that are larger by more than the tolerance. -/
theorem eq_zero_of_abs_lt (h : Splits scales x wholes y) (hsmall : ∀ scale ∈ scales, |x| < (1 - tolerance) * scale) :
    ∀ n ∈ wholes, n = 0 := by
  induction h with
  | nil => simp
  | @cons scale scales x wholes y _ ih =>
    have htolerance : 0 < 1 - tolerance := by norm_num [tolerance]
    have hx := hsmall scale (List.mem_cons_self ..)
    have hscale : 0 < scale := pos_of_mul_pos_right ((abs_nonneg x).trans_lt hx) htolerance.le
    have hzero : wholeOf (x / scale) = 0 := by
      refine wholeOf_eq_zero ?_
      rw [abs_div, abs_of_pos hscale]
      exact (div_lt_iff₀ hscale).2 hx
    rw [hzero, Int.cast_zero, zero_mul, sub_zero] at ih
    intro n hn
    rcases List.mem_cons.1 hn with rfl | hn
    · exact hzero
    · exact ih (fun scale hscale => hsmall scale (List.mem_cons_of_mem _ hscale)) n hn

/-- What is split past zero is less than the tolerance of a unit, in which nothing is taken. -/
theorem nonneg {bound : ℚ} (h : Splits scales x wholes y) (hx : 0 ≤ x) (hbound : x ≤ bound) (hpos : ∀ scale ∈ scales, 0 < scale)
    (hfine : scales.Pairwise fun r r' => tolerance * max bound r < (1 - tolerance) * r') : ∀ n ∈ wholes, 0 ≤ n := by
  induction h with
  | nil => simp
  | @cons scale scales x wholes y hrest ih =>
    have hscale := hpos scale (List.mem_cons_self ..)
    have hvalue : 0 ≤ x / scale := div_nonneg hx hscale.le
    obtain ⟨hhead, htail⟩ := List.pairwise_cons.1 hfine
    intro n hn
    rcases List.mem_cons.1 hn with rfl | hn
    · exact wholeOf_nonneg hvalue
    have htaken : (0 : ℚ) ≤ wholeOf (x / scale) * scale :=
      mul_nonneg (by exact_mod_cast wholeOf_nonneg hvalue) hscale.le
    by_cases hz : 0 ≤ x - wholeOf (x / scale) * scale
    · exact ih hz (by linarith) (fun scale hscale => hpos scale (List.mem_cons_of_mem _ hscale)) htail n hn
    · have hover : |x - wholeOf (x / scale) * scale| ≤ tolerance * max x scale := by
        calc |x - wholeOf (x / scale) * scale| = (wholeOf (x / scale) - x / scale) * scale := by
              rw [abs_of_neg (not_le.1 hz), sub_mul, div_mul_cancel₀ _ hscale.ne', neg_sub]
          _ ≤ tolerance * max (x / scale) 1 * scale := mul_le_mul_of_nonneg_right (wholeOf_sub_le hvalue) hscale.le
          _ = tolerance * max x scale := by
              rw [mul_assoc, max_mul_of_nonneg _ _ hscale.le, div_mul_cancel₀ _ hscale.ne', one_mul]
      have hmax : tolerance * max x scale ≤ tolerance * max bound scale :=
        mul_le_mul_of_nonneg_left (max_le_max_right _ hbound) (by norm_num [tolerance])
      exact (hrest.eq_zero_of_abs_lt (fun scale' hscale' => (hover.trans hmax).trans_lt (hhead scale' hscale')) n hn).ge

/-- Where snapping never goes past zero by a unit, all that is taken has the sign of the whole. -/
theorem agree (h : Splits scales x wholes y) (hpos : ∀ scale ∈ scales, 0 < scale)
    (hfine : scales.Pairwise fun r r' => tolerance * max |x| r < (1 - tolerance) * r') :
    ∀ n ∈ wholes, (0 ≤ x → 0 ≤ n) ∧ (x ≤ 0 → n ≤ 0) := by
  intro n hn
  constructor
  · intro hx
    exact h.nonneg hx (le_abs_self x) hpos hfine n hn
  · intro hx
    exact neg_nonneg.1 (h.neg.nonneg (neg_nonneg.2 hx) (neg_le_abs x) hpos hfine _ (List.mem_map_of_mem hn))

end Splits

section Exact

open ExactNumeric

variable {F : Type} [ExactNumeric F]

/-- An exact unit with a positive scale is some of its base unit. -/
theorem scale_pos {u : UnitOfMeasure F} (h : u.HasPositiveScale) : 0 < u.scale := by
  obtain ⟨r, hr, -, -, hsign⟩ := h
  rw [UnitOfMeasure.scale, hr, Option.map_some, Option.getD_some, Ratio.amount]
  rcases hsign with ⟨hm, hd⟩ | ⟨hm, hd⟩
  · exact div_pos ((toRat_pos_iff _).2 hm) ((toRat_pos_iff _).2 hd)
  · exact div_pos_of_neg_of_neg ((toRat_neg_iff _).2 hm) ((toRat_neg_iff _).2 hd)

end Exact

end Composition

end QuantityCalculus
