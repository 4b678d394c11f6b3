import QuantityCalculus.Catalog.Standard
import QuantityCalculus.Proofs.Composition.WholePart
import QuantityCalculus.Proofs.Evaluation.Outcome
import QuantityCalculus.Proofs.Measure.Scale

/-!
# Mixed-radix components

The components of a base value are whole ones, split off one after another, and a last one for what remains (`decompose_concat`). In
exact arithmetic, one step takes a whole number of a unit off and leaves less than one of it, and so the components of a run add up
to the base value, and a whole component with another unit before it stays below the radix (`decompose_exact`).
-/

namespace QuantityCalculus.Composition

section Splitting

variable {F : Type} [Numeric F]

/-- The whole components of a base value in units, and what remains of it. -/
def splitOff (dep : Option (Scalar F)) : List (UnitOfMeasure F) → F → Except ConversionError (List F × F)
  | [], x => .ok ([], x)
  | u :: us, x =>
    (u.fromBaseNumber x dep).bind fun value =>
      (u.toBaseNumber (wholePart value) dep).bind fun taken =>
        (splitOff dep us (x - taken)).map fun split => (wholePart value :: split.1, split.2)

/-- The components of a base value are the whole ones, and what remains in the last unit. -/
theorem decompose_concat (dep : Option (Scalar F)) (us : List (UnitOfMeasure F)) (last : UnitOfMeasure F) (x : F) :
    decompose dep (us ++ [last]) x = (splitOff dep us x).bind fun split =>
      (last.fromBase (.number split.2) dep).map fun component => split.1.map .number ++ [component] := by
  induction us generalizing x with
  | nil =>
    simp only [List.nil_append, decompose, splitOff, Except.bind]
    rfl
  | cons u us ih =>
    have hcons : decompose dep (u :: (us ++ [last])) x = (u.fromBaseNumber x dep).bind fun value =>
        (u.toBaseNumber (wholePart value) dep).bind fun taken =>
          (decompose dep (us ++ [last]) (x - taken)).map (.number (wholePart value) :: ·) := by
      cases us <;> rfl
    rw [List.cons_append, hcons, splitOff]
    cases u.fromBaseNumber x dep with
    | error e => rfl
    | ok value =>
      cases htaken : u.toBaseNumber (wholePart value) dep with
      | error e => simp only [Except.bind, htaken]
      | ok taken =>
        simp only [Except.bind, htaken, ih]
        cases splitOff dep us (x - taken) with
        | error e => rfl
        | ok split =>
          simp only [Except.map]
          cases last.fromBase (.number split.2) dep <;> rfl

/-- Whole components and what remains in the last unit, if it is a number of it, are the components. -/
theorem decompose_of_splitOff {dep : Option (Scalar F)} {init : List (UnitOfMeasure F)} {last : UnitOfMeasure F} {x y c : F}
    {wholes : List F} (h : splitOff dep init x = .ok (wholes, y)) (hc : last.fromBase (.number y) dep = .ok (.number c)) :
    decompose dep (init ++ [last]) x = .ok ((wholes ++ [c]).map .number) := by
  rw [decompose_concat, h]
  simp only [Except.bind, hc, Except.map, List.map_append, List.map_cons, List.map_nil]

/-- One more unit in front takes its whole part off, and the others take theirs from what remains. -/
theorem splitOff_cons_eq_ok_iff {dep : Option (Scalar F)} {u : UnitOfMeasure F} {us : List (UnitOfMeasure F)} {x y : F}
    {wholes : List F} :
    splitOff dep (u :: us) x = .ok (wholes, y) ↔ ∃ value taken wholes', u.fromBaseNumber x dep = .ok value ∧
      u.toBaseNumber (wholePart value) dep = .ok taken ∧ splitOff dep us (x - taken) = .ok (wholes', y) ∧
      wholePart value :: wholes' = wholes := by
  constructor
  · intro h
    obtain ⟨value, hvalue, h⟩ := Outcome.bind_eq_ok_iff.1 h
    obtain ⟨taken, htaken, h⟩ := Outcome.bind_eq_ok_iff.1 h
    obtain ⟨⟨wholes', y'⟩, hsplit, h⟩ := Outcome.map_eq_ok_iff.1 h
    obtain ⟨rfl, rfl⟩ := Prod.mk.inj h
    exact ⟨value, taken, wholes', hvalue, htaken, hsplit, rfl⟩
  · rintro ⟨value, taken, wholes', hvalue, htaken, hsplit, rfl⟩
    rw [splitOff, hvalue]
    simp only [Except.bind, htaken, hsplit, Except.map]

/-- There is a whole component for each unit. -/
theorem length_of_splitOff {dep : Option (Scalar F)} {us : List (UnitOfMeasure F)} {x y : F} {wholes : List F}
    (h : splitOff dep us x = .ok (wholes, y)) : wholes.length = us.length := by
  induction us generalizing x wholes with
  | nil =>
    obtain ⟨rfl, -⟩ := Prod.mk.inj (Except.ok.inj h)
    rfl
  | cons u us ih =>
    obtain ⟨value, taken, wholes', -, -, hsplit, rfl⟩ := splitOff_cons_eq_ok_iff.1 h
    rw [List.length_cons, List.length_cons, ih hsplit]

/-- With a last component there is one for each unit. -/
theorem length_components {dep : Option (Scalar F)} {init : List (UnitOfMeasure F)} {x y : F} {wholes : List F}
    (h : splitOff dep init x = .ok (wholes, y)) (last : UnitOfMeasure F) (c : F) :
    (wholes ++ [c]).length = (init ++ [last]).length := by
  rw [List.length_append, List.length_append, length_of_splitOff h, List.length_singleton, List.length_singleton]

/-- The whole components in the first units are the first of the whole components. -/
theorem splitOff_take {dep : Option (Scalar F)} {us : List (UnitOfMeasure F)} {x y : F} {wholes : List F}
    (h : splitOff dep us x = .ok (wholes, y)) (n : ℕ) : ∃ z, splitOff dep (us.take n) x = .ok (wholes.take n, z) := by
  induction us generalizing x wholes n with
  | nil =>
    obtain ⟨rfl, -⟩ := Prod.mk.inj (Except.ok.inj h)
    exact ⟨x, by rw [List.take_nil, List.take_nil, splitOff]⟩
  | cons u us ih =>
    cases n with
    | zero => exact ⟨x, rfl⟩
    | succ n =>
      obtain ⟨value, taken, wholes', hvalue, htaken, hsplit, rfl⟩ := splitOff_cons_eq_ok_iff.1 h
      obtain ⟨z, hz⟩ := ih hsplit n
      exact ⟨z, splitOff_cons_eq_ok_iff.2 ⟨value, taken, wholes'.take n, hvalue, htaken, hz, rfl⟩⟩

/-- A whole component is the whole part of what remains before it. -/
theorem exists_wholePart_of_splitOff {dep : Option (Scalar F)} {us : List (UnitOfMeasure F)} {x y : F} {wholes : List F}
    (h : splitOff dep us x = .ok (wholes, y)) {i : ℕ} {c : F} (hc : wholes[i]? = some c) :
    ∃ u rest value, us[i]? = some u ∧ splitOff dep (us.take i) x = .ok (wholes.take i, rest) ∧
      u.fromBaseNumber rest dep = .ok value ∧ wholePart value = c := by
  induction us generalizing x wholes i with
  | nil =>
    obtain ⟨rfl, -⟩ := Prod.mk.inj (Except.ok.inj h)
    nomatch hc
  | cons u us ih =>
    obtain ⟨value, taken, wholes', hvalue, htaken, hsplit, rfl⟩ := splitOff_cons_eq_ok_iff.1 h
    cases i with
    | zero => exact ⟨u, x, value, rfl, rfl, hvalue, Option.some.inj hc⟩
    | succ i =>
      obtain ⟨v, rest, value', hv, hrest, hvalue', hwhole⟩ := ih hsplit hc
      exact ⟨v, rest, value', hv, splitOff_cons_eq_ok_iff.2 ⟨value, taken, wholes'.take i, hvalue, htaken, hrest, rfl⟩,
        hvalue', hwhole⟩

end Splitting

/-! ## Splitting off rationals -/

/-- From a rational, whole numbers of some units are taken one after another, and another one remains. -/
inductive Splits : List ℚ → ℚ → List ℤ → ℚ → Prop
  | nil (x) : Splits [] x [] x
  | cons {scale scales x wholes y} : Splits scales (x - wholeOf (x / scale) * scale) wholes y →
      Splits (scale :: scales) x (wholeOf (x / scale) :: wholes) y

namespace Splits

variable {scales : List ℚ} {scale x y : ℚ} {wholes : List ℤ}

/-- What is taken and what remains add up to the whole. -/
theorem sum_add (h : Splits scales x wholes y) :
    (List.zipWith (· * ·) (wholes.map fun (n : ℤ) => (n : ℚ)) scales).sum + y = x := by
  induction h with
  | nil => simp
  | cons _ ih =>
    rw [List.map_cons, List.zipWith_cons_cons, List.sum_cons]
    linarith

/-- A split at several units is a split at the first ones and another of what remains. -/
theorem of_append {before after : List ℚ} (h : Splits (before ++ after) x wholes y) :
    ∃ wholes₁ z wholes₂, wholes = wholes₁ ++ wholes₂ ∧ Splits before x wholes₁ z ∧ Splits after z wholes₂ y := by
  induction before generalizing x wholes with
  | nil => exact ⟨[], x, wholes, rfl, .nil x, h⟩
  | cons scale before ih =>
    cases h with
    | cons h =>
      obtain ⟨wholes₁, z, wholes₂, rfl, hbefore, hafter⟩ := ih h
      exact ⟨_ :: wholes₁, z, wholes₂, rfl, .cons hbefore, hafter⟩

/-- After a unit, less than one of it remains. -/
theorem abs_lt (h : Splits (scales ++ [scale]) x wholes y) (hscale : scale ≠ 0) : |y| < |scale| := by
  obtain ⟨_, z, _, -, -, hlast⟩ := h.of_append
  cases hlast with
  | cons hnil =>
    cases hnil with
    | nil =>
      have hrest : z - wholeOf (z / scale) * scale = (z / scale - wholeOf (z / scale)) * scale := by
        rw [sub_mul, div_mul_cancel₀ _ hscale]
      rw [hrest, abs_mul]
      exact mul_lt_of_lt_one_left (abs_pos.2 hscale) (abs_sub_wholeOf_lt_one _)

/-- After a unit that is `k` of the next one, less than `k` of that are taken. -/
theorem abs_le_radix {scale' : ℚ} {k : ℕ} {n : ℤ} (h : Splits (scales ++ [scale, scale']) x (wholes ++ [n]) y) (hk : 0 < k)
    (hradix : scale / scale' = k) (hscale : scale ≠ 0) : |n| ≤ k - 1 := by
  obtain ⟨wholes₁, z, _, hwholes, -, hlast⟩ := h.of_append
  cases hlast with
  | cons hlast =>
    cases hlast with
    | cons hnil =>
      cases hnil with
      | nil =>
        have hrest : (z - wholeOf (z / scale) * scale) / scale' = k * (z / scale - wholeOf (z / scale)) := by
          rw [← hradix, mul_sub, sub_div]
          congr 1
          · rw [div_mul_div_comm, mul_comm scale z, mul_div_mul_right _ _ hscale]
          · ring
        have hn : n = wholeOf ((z - wholeOf (z / scale) * scale) / scale') := by
          simpa using congrArg List.getLast? hwholes
        rw [hn, hrest]
        exact abs_wholeOf_mul_le hk _

end Splits

/-! ## Splitting off exact numbers -/

section Exact

open ExactNumeric

variable {F : Type} [ExactNumeric F]

/-- A unit of nonzero scale divides by its scale on the way from the base unit, and multiplies by it on the way back. -/
theorem exists_numbers {u : UnitOfMeasure F} (hscale : u.scale ≠ 0) (x : F) (dep : Option (Scalar F)) :
    (∃ value, u.fromBase (.number x) dep = .ok (.number value) ∧ toRat value = toRat x / u.scale) ∧
      ∃ base, u.toBase (.number x) dep = .ok (.number base) ∧ toRat base = toRat x * u.scale := by
  unfold UnitOfMeasure.scale at hscale ⊢
  cases hr : u.ratio? with
  | none =>
    rw [hr] at hscale
    exact absurd rfl hscale
  | some r =>
    rw [hr] at hscale
    have hnonzero : r.IsNonzero := div_ne_zero_iff.1 hscale
    exact ⟨UnitOfMeasure.exists_fromBase_number hr hnonzero x dep, UnitOfMeasure.exists_toBase_number hr hnonzero x dep⟩

/-- Units of nonzero scales split an exact number as their scales split its rational. -/
theorem exists_splitOff {us : List (UnitOfMeasure F)} (hscale : ∀ u ∈ us, u.scale ≠ 0) (x : F) (dep : Option (Scalar F)) :
    ∃ wholes y ns, splitOff dep us x = .ok (wholes, y) ∧ Splits (us.map (·.scale)) (toRat x) ns (toRat y) ∧
      wholes.map toRat = ns.map (fun (n : ℤ) => (n : ℚ)) := by
  induction us generalizing x with
  | nil => exact ⟨[], x, [], rfl, .nil _, rfl⟩
  | cons u us ih =>
    have hu := hscale u (List.mem_cons_self ..)
    obtain ⟨value, hvalue, hvalueRat⟩ := (exists_numbers hu x dep).1
    obtain ⟨taken, htaken, htakenRat⟩ := (exists_numbers hu (wholePart value) dep).2
    obtain ⟨wholes, y, ns, hsplit, hsplits, hwholes⟩ := ih (fun v hv => hscale v (List.mem_cons_of_mem _ hv)) (x - taken)
    rw [toRat_wholePart, hvalueRat] at htakenRat
    rw [toRat_sub, htakenRat] at hsplits
    refine ⟨wholePart value :: wholes, y, _, splitOff_cons_eq_ok_iff.2 ⟨value, taken, wholes, ?_, ?_, hsplit, rfl⟩,
      .cons hsplits, ?_⟩
    · rw [UnitOfMeasure.fromBaseNumber, hvalue]
      rfl
    · rw [UnitOfMeasure.toBaseNumber, htaken]
      rfl
    · rw [List.map_cons, List.map_cons, hwholes, toRat_wholePart, hvalueRat]

/-- The same for the first of the units, whose whole components are the first ones. -/
theorem exists_splitOff_take {us : List (UnitOfMeasure F)} (hscale : ∀ u ∈ us, u.scale ≠ 0) {x y : F}
    {dep : Option (Scalar F)} {wholes : List F} (h : splitOff dep us x = .ok (wholes, y)) (n : ℕ) :
    ∃ z ns, splitOff dep (us.take n) x = .ok (wholes.take n, z) ∧
      Splits ((us.take n).map (·.scale)) (toRat x) ns (toRat z) ∧
      (wholes.take n).map toRat = ns.map (fun (n : ℤ) => (n : ℚ)) := by
  obtain ⟨z, hz⟩ := splitOff_take h n
  obtain ⟨wholes', z', ns, hsplit, hsplits, hwholes⟩ :=
    exists_splitOff (fun u hu => hscale u (List.mem_of_mem_take hu)) x dep
  obtain ⟨rfl, rfl⟩ := Prod.mk.inj (Except.ok.inj (hsplit.symm.trans hz))
  exact ⟨z', ns, hsplit, hsplits, hwholes⟩

/-- The total of components is the sum of their amounts. -/
theorem exists_addComponents {us : List (UnitOfMeasure F)} (hscale : ∀ u ∈ us, u.scale ≠ 0) (dep : Option (Scalar F))
    (total : F) {components : List F} (hlength : components.length = us.length) :
    ∃ y, addComponents dep total (us.zip (components.map .number)) = .ok y ∧
      toRat y = toRat total + (List.zipWith (· * ·) (components.map toRat) (us.map (·.scale))).sum := by
  induction us generalizing total components with
  | nil => exact ⟨total, by rw [List.zip_nil_left, addComponents], by simp⟩
  | cons u us ih =>
    cases components with
    | nil => nomatch hlength
    | cons c components =>
      obtain ⟨base, hbase, hbaseRat⟩ := (exists_numbers (hscale u (List.mem_cons_self ..)) c dep).2
      obtain ⟨y, hy, hyRat⟩ := ih (fun v hv => hscale v (List.mem_cons_of_mem _ hv)) (total + base)
        (Nat.succ.inj hlength)
      refine ⟨y, ?_, ?_⟩
      · rw [List.map_cons, List.zip_cons_cons, addComponents, hbase]
        exact hy
      · rw [hyRat, toRat_add, hbaseRat, List.map_cons, List.map_cons, List.zipWith_cons_cons, List.sum_cons, add_assoc]

/-- Each whole component is an integer, which leaves less than one of its unit. -/
theorem whole_of_splitOff {us : List (UnitOfMeasure F)} (hscale : ∀ u ∈ us, u.scale ≠ 0) {x y : F}
    {dep : Option (Scalar F)} {wholes : List F} (h : splitOff dep us x = .ok (wholes, y)) {i : ℕ} {u : UnitOfMeasure F} {c : F}
    (hu : us[i]? = some u) (hc : wholes[i]? = some c) :
    (∃ n : ℤ, toRat c = n) ∧
      ∃ rest, splitOff dep (us.take (i + 1)) x = .ok (wholes.take (i + 1), rest) ∧ |toRat rest| < |u.scale| := by
  obtain ⟨rest, ns, hsplit, hsplits, hwholes⟩ := exists_splitOff_take hscale h (i + 1)
  refine ⟨?_, rest, hsplit, ?_⟩
  · rw [List.take_add_one, hc, Option.toList_some, List.map_append] at hwholes
    obtain ⟨_, ns', -, -, hlast⟩ := List.map_eq_append_iff.1 hwholes.symm
    obtain ⟨n, -, -, hn, -⟩ := List.map_eq_cons_iff.1 hlast
    exact ⟨n, hn.symm⟩
  · rw [List.take_add_one, hu, Option.toList_some, List.map_append] at hsplits
    exact hsplits.abs_lt (hscale u (List.mem_of_getElem? hu))

/-- A whole component after another one stays below the radix. -/
theorem abs_le_radix_of_splitOff {us : List (UnitOfMeasure F)} (hscale : ∀ u ∈ us, u.scale ≠ 0) {x y : F}
    {dep : Option (Scalar F)} {wholes : List F} (h : splitOff dep us x = .ok (wholes, y)) {i k : ℕ} {u v : UnitOfMeasure F} {c : F}
    (hu : us[i]? = some u) (hv : us[i + 1]? = some v) (hc : wholes[i + 1]? = some c) (hk : 0 < k)
    (hradix : u.scale / v.scale = k) : |toRat c| ≤ k - 1 := by
  obtain ⟨rest, ns, -, hsplits, hwholes⟩ := exists_splitOff_take hscale h (i + 2)
  rw [List.take_add_one, hc, Option.toList_some, List.map_append] at hwholes
  obtain ⟨ns, ns', rfl, -, hlast⟩ := List.map_eq_append_iff.1 hwholes.symm
  obtain ⟨n, ns', rfl, hn, hnil⟩ := List.map_eq_cons_iff.1 hlast
  obtain rfl := List.map_eq_nil_iff.1 hnil
  rw [List.take_add_one, hv, List.take_add_one, hu, Option.toList_some, Option.toList_some, List.append_assoc,
    List.map_append] at hsplits
  have hle := hsplits.abs_le_radix hk hradix (hscale u (List.mem_of_getElem? hu))
  rw [← hn]
  exact_mod_cast hle

/-- The total of the whole components and what remains in the last unit is the base value. -/
theorem recompose_of_splitOff {init : List (UnitOfMeasure F)} {last : UnitOfMeasure F}
    (hscale : ∀ u ∈ init ++ [last], u.scale ≠ 0) {x y c : F} {dep : Option (Scalar F)} {wholes : List F}
    (h : splitOff dep init x = .ok (wholes, y)) (hc : toRat c = toRat y / last.scale) :
    recompose (init ++ [last]) (.tuple ((wholes ++ [c]).map .number)) dep = .ok (.number x) := by
  have hlast : last.scale ≠ 0 := hscale last (List.mem_append_right _ (List.mem_singleton_self _))
  have hwholesLength := length_of_splitOff h
  have hlength := length_components h last c
  obtain ⟨_, _, ns, hsplit, hsplits, hwholes⟩ := exists_splitOff (fun u hu => hscale u (List.mem_append_left _ hu)) x dep
  obtain ⟨rfl, rfl⟩ := Prod.mk.inj (Except.ok.inj (h.symm.trans hsplit))
  obtain ⟨total, htotal, htotalRat⟩ := exists_addComponents hscale dep 0 hlength
  have hx : total = x := by
    have hlengths : (wholes.map toRat).length = (init.map (·.scale)).length := by
      rw [List.length_map, List.length_map, hwholesLength]
    apply toRat_injective
    rw [htotalRat, List.map_append, List.map_append, List.zipWith_append hlengths, hwholes, List.sum_append, ← hsplits.sum_add]
    simp only [List.map_cons, List.map_nil, List.zipWith_cons_cons, List.zipWith_nil_left, List.sum_cons, List.sum_nil, hc,
      div_mul_cancel₀ _ hlast, toRat_zero, zero_add, add_zero]
  simp only [recompose, Scalar.expectTuple, Except.bind, List.length_map, hlength, if_true, htotal, hx, Except.map]

/-- The components of an exact base value in units of nonzero scales are numbers, one for each unit, and their total is the base
value. Each but the last is an integer and leaves less than one of its unit; and where a unit is an integer multiple of the next
one, the component of that, unless it is the last, is below the multiple. -/
theorem decompose_exact {us : List (UnitOfMeasure F)} (hne : us ≠ []) (hscale : ∀ u ∈ us, u.scale ≠ 0) (x : F)
    (dep : Option (Scalar F)) :
    ∃ components : List F, decompose dep us x = .ok (components.map .number) ∧ components.length = us.length ∧
      recompose us (.tuple (components.map .number)) dep = .ok (.number x) ∧
      ∀ i u c, i + 1 < us.length → us[i]? = some u → components[i]? = some c →
        (∃ n : ℤ, toRat c = n) ∧
        (∃ rest, splitOff dep (us.take (i + 1)) x = .ok (components.take (i + 1), rest) ∧ |toRat rest| < |u.scale|) ∧
        ∀ v c' (k : ℕ), i + 2 < us.length → us[i + 1]? = some v → components[i + 1]? = some c' → 0 < k →
          u.scale / v.scale = k → |toRat c'| ≤ k - 1 := by
  obtain rfl | ⟨init, last, rfl⟩ := List.eq_nil_or_concat us
  · exact absurd rfl hne
  rw [List.concat_eq_append] at hscale ⊢
  have hinit : ∀ u ∈ init, u.scale ≠ 0 := fun u hu => hscale u (List.mem_append_left _ hu)
  have hlast : last.scale ≠ 0 := hscale last (List.mem_append_right _ (List.mem_singleton_self _))
  obtain ⟨wholes, y, _, hsplit, -, -⟩ := exists_splitOff hinit x dep
  obtain ⟨c, hc, hcRat⟩ := (exists_numbers hlast y dep).1
  have hwholesLength := length_of_splitOff hsplit
  have hlength := length_components hsplit last c
  have htake (n : ℕ) (hn : n ≤ init.length) :
      (wholes ++ [c]).take n = wholes.take n ∧ (init ++ [last]).take n = init.take n :=
    ⟨List.take_append_of_le_length (by omega), List.take_append_of_le_length hn⟩
  have hget (n : ℕ) (hn : n < init.length) : (wholes ++ [c])[n]? = wholes[n]? ∧ (init ++ [last])[n]? = init[n]? :=
    ⟨List.getElem?_append_left (by omega), List.getElem?_append_left hn⟩
  refine ⟨wholes ++ [c], ?_, hlength, ?_, ?_⟩
  · exact decompose_of_splitOff hsplit hc
  · exact recompose_of_splitOff hscale hsplit hcRat
  · intro i u c₁ hi hu hc₁
    rw [List.length_append, List.length_singleton] at hi
    rw [(hget i (by omega)).1] at hc₁
    rw [(hget i (by omega)).2] at hu
    obtain ⟨hinteger, hrest⟩ := whole_of_splitOff hinit hsplit hu hc₁
    rw [(htake (i + 1) (by omega)).1, (htake (i + 1) (by omega)).2]
    refine ⟨hinteger, hrest, fun v c₂ k hi₂ hv hc₂ hk hradix => ?_⟩
    rw [List.length_append, List.length_singleton] at hi₂
    rw [(hget (i + 1) (by omega)).1] at hc₂
    rw [(hget (i + 1) (by omega)).2] at hv
    exact abs_le_radix_of_splitOff hinit hsplit hu hv hc₂ hk hradix

/-- The scale of a unit that is a quotient of two integers. -/
theorem scale_multiple (dimension : Dimension) (symbol one other : String) (multiplier divisor : ℕ) :
    (Catalog.Standard.multiple dimension symbol one other multiplier divisor : UnitOfMeasure F).scale = multiplier / divisor := by
  change toRat (Numeric.ofNat multiplier : F) / toRat (Numeric.ofNat divisor : F) = multiplier / divisor
  rw [toRat_ofNat, toRat_ofNat]

end Exact

/-- A time before the present in hours, minutes and seconds. -/
theorem decompose_into_hours_minutes_seconds :
    let time (symbol name : String) (seconds : ℕ) : UnitOfMeasure ℚ :=
      Catalog.Standard.multiple (.single "time") symbol name name seconds 1
    let us := [time "h" "hour" 3600, time "min" "minute" 60, time "s" "second" 1]
    us ≠ [] ∧ (∀ u ∈ us, u.scale ≠ 0) ∧ ∃ hours minutes seconds : ℚ,
      decompose none us (-7199999 / 1000) = .ok [.number hours, .number minutes, .number seconds] ∧
      recompose us (.tuple [.number hours, .number minutes, .number seconds]) none = .ok (.number (-7199999 / 1000)) ∧
      |minutes| ≤ 59 := by
  intro time us
  have hscale : ∀ u ∈ us, u.scale ≠ 0 := by
    simp only [us, time, List.forall_mem_cons, scale_multiple]
    norm_num
  have hne : us ≠ [] := List.cons_ne_nil _ _
  obtain ⟨components, hdecompose, hlength, hrecompose, hcomponents⟩ := decompose_exact hne hscale (-7199999 / 1000) none
  obtain ⟨hours, minutes, seconds, rfl⟩ := List.length_eq_three.1 hlength
  have hradix : (time "h" "hour" 3600).scale / (time "min" "minute" 60).scale = (60 : ℕ) := by
    simp only [time, scale_multiple]
    norm_num
  have hminutes := (hcomponents 0 _ hours (by decide) rfl rfl).2.2 _ minutes 60 (by decide) rfl rfl (by decide) hradix
  refine ⟨hne, hscale, hours, minutes, seconds, hdecompose, hrecompose, hminutes.trans ?_⟩
  norm_num

end QuantityCalculus.Composition
