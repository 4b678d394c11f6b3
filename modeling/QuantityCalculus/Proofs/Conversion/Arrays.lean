import QuantityCalculus.Catalog.Standard
import QuantityCalculus.Numeric.Binary64
import QuantityCalculus.Proofs.Composition.PrefixedPayloads
import QuantityCalculus.Proofs.Conversion.Quantity

/-!
# Arrays there and back

An array in a unit without components is converted element by element (`Algebra.convertPayload_array_eq_ok_iff`), and in a unit with
components it is one payload. From a unit without components to another one and back, an array survives if its elements do. A unit
with components writes every element as an array, and takes the array of these for the components of a single value on the way back.
-/

namespace QuantityCalculus

variable {F : Type}

namespace Value

/-- The values of conversions, one after another. -/
theorem ofScalars_eq_map (ss : List (Scalar F)) : ofScalars ss = ss.map ofScalar := by
  induction ss with
  | nil => rw [ofScalars, List.map_nil]
  | cons s ss ih => rw [ofScalars, ih, List.map_cons]

/-- A payload is the value of the payload that a conversion takes of it. -/
theorem ofScalar_injective {s t : Scalar F} (h : ofScalar s = ofScalar t) : s = t := by
  have := congrArg toScalar? h
  simpa using this

end Value

namespace Algebra

open Outcome

/-- The elements of an operation on several values are those of the operation on each. -/
theorem mapEach_eq_ok_iff {f : Value F → Outcome (Value F)} {ps qs : List (Value F)} :
    mapEach f ps = .ok qs ↔ List.Forall₂ (fun p q => mapElements f p = .ok q) ps qs := by
  induction ps generalizing qs with
  | nil =>
    rw [mapEach, List.forall₂_nil_left_iff, Except.ok.injEq]
    exact eq_comm
  | cons p ps ih =>
    simp only [mapEach, bind_eq_ok_iff, pure_eq_ok_iff, List.forall₂_cons_left_iff, ih]
    constructor
    · rintro ⟨q, hq, qs, hqs, rfl⟩
      exact ⟨q, qs, hq, hqs, rfl⟩
    · rintro ⟨q, qs, hq, hqs, rfl⟩
      exact ⟨q, hq, qs, hqs, rfl⟩

variable [Numeric F] {c : Catalog F} {u v : UnitOfMeasure F}

/-- A payload in one unit comes back from its conversion to another unit as it was. -/
def Survives (c : Catalog F) (u v : UnitOfMeasure F) (p : Value F) : Prop :=
  ∃ q, convert c (p.inUnit u) v none = .ok q ∧ convert c q u none = .ok (p.inUnit u)

/-! ## Payloads of quantities -/

/-- Between units that are not dependent, a quantity is converted by its payload. -/
theorem convert_inUnit_eq_ok_iff (hu : u.isDependent = false) (hv : v.isDependent = false) {p z : Value F} :
    convert c (p.inUnit u) v none = .ok z ↔ ∃ q, convertPayload c u none v none p = .ok q ∧ z = q.inUnit v := by
  rw [Value.inUnit, convert_quantity_eq_ok_iff]
  constructor
  · rintro ⟨binding, sourceDep, targetDep, q, hbinding, hsource, htarget, hq, rfl⟩
    obtain rfl : none = binding := Except.ok.inj hbinding
    obtain rfl := Except.ok.inj ((bindingBase_of_isDependent_eq_false hu .source).symm.trans hsource)
    obtain rfl := Except.ok.inj ((bindingBase_of_isDependent_eq_false hv .target).symm.trans htarget)
    exact ⟨q, hq, rfl⟩
  · rintro ⟨q, hq, rfl⟩
    exact ⟨none, none, none, q, rfl, bindingBase_of_isDependent_eq_false hu .source,
      bindingBase_of_isDependent_eq_false hv .target, hq, rfl⟩

/-- A payload survives if it comes back from the payload that it is converted to. -/
theorem survives_iff (hu : u.isDependent = false) (hv : v.isDependent = false) {p : Value F} :
    Survives c u v p ↔ ∃ q, convertPayload c u none v none p = .ok q ∧ convertPayload c v none u none q = .ok p := by
  have hinj (p q : Value F) : p.inUnit u = q.inUnit u ↔ q = p := by
    simp [Value.inUnit, eq_comm]
  constructor
  · rintro ⟨z, hthere, hback⟩
    obtain ⟨q, hq, rfl⟩ := (convert_inUnit_eq_ok_iff hu hv).1 hthere
    obtain ⟨p', hp', heq⟩ := (convert_inUnit_eq_ok_iff hv hu).1 hback
    rw [(hinj p p').1 heq] at hp'
    exact ⟨q, hq, hp'⟩
  · rintro ⟨q, hthere, hback⟩
    exact ⟨q.inUnit v, (convert_inUnit_eq_ok_iff hu hv).2 ⟨q, hthere, rfl⟩, (convert_inUnit_eq_ok_iff hv hu).2 ⟨p, hback, rfl⟩⟩

/-! ## Arrays element by element -/

/-- From a unit without components, a payload is converted by its elements. -/
theorem convertPayload_eq_mapElements {sourceDep targetDep : Option (Scalar F)} (hconverts : u.dimension.ConvertsTo v.dimension)
    (htuple : u.datatype ≠ .tuple) (p : Value F) : convertPayload c u sourceDep v targetDep p =
      mapElements (convertScalar c (!u.dimension.sameAs v.dimension) u sourceDep v targetDep) p := by
  unfold convertPayload
  dsimp only
  rw [if_neg htuple, if_neg htuple]
  cases hsame : u.dimension.sameAs v.dimension with
  | true => rfl
  | false =>
    have hcomplement := Dimension.sameAs_or_complements_iff.2 hconverts
    rw [hsame, Bool.false_or] at hcomplement
    rw [if_neg Bool.false_ne_true, if_pos hcomplement]
    rfl

/-- From a unit without components, an array is converted to the array of what its elements are converted to. -/
theorem convertPayload_array_eq_ok_iff {sourceDep targetDep : Option (Scalar F)}
    (hconverts : u.dimension.ConvertsTo v.dimension) (htuple : u.datatype ≠ .tuple) {ps : List (Value F)} {z : Value F} :
    convertPayload c u sourceDep v targetDep (.array ps) = .ok z ↔
      ∃ qs, List.Forall₂ (fun p q => convertPayload c u sourceDep v targetDep p = .ok q) ps qs ∧ z = .array qs := by
  simp only [convertPayload_eq_mapElements hconverts htuple, mapElements, map_eq_ok_iff, mapEach_eq_ok_iff]
  constructor
  · rintro ⟨qs, hqs, rfl⟩
    exact ⟨qs, hqs, rfl⟩
  · rintro ⟨qs, hqs, rfl⟩
    exact ⟨qs, hqs, rfl⟩

/-- Between units without components, an array survives if its elements do. -/
theorem Survives.array (hu : u.isDependent = false) (hv : v.isDependent = false) (hconverts : u.dimension.ConvertsTo v.dimension)
    (hutuple : u.datatype ≠ .tuple) (hvtuple : v.datatype ≠ .tuple) {ps : List (Value F)} (h : ∀ p ∈ ps, Survives c u v p) :
    Survives c u v (.array ps) := by
  suffices hpairs : ∃ qs, List.Forall₂ (fun p q => convertPayload c u none v none p = .ok q) ps qs ∧
      List.Forall₂ (fun q p => convertPayload c v none u none q = .ok p) qs ps by
    obtain ⟨qs, hthere, hback⟩ := hpairs
    exact (survives_iff hu hv).2 ⟨.array qs, (convertPayload_array_eq_ok_iff hconverts hutuple).2 ⟨qs, hthere, rfl⟩,
      (convertPayload_array_eq_ok_iff hconverts.symm hvtuple).2 ⟨ps, hback, rfl⟩⟩
  induction ps with
  | nil => exact ⟨[], .nil, .nil⟩
  | cons p ps ih =>
    obtain ⟨q, hq, hp⟩ := (survives_iff hu hv).1 (h p List.mem_cons_self)
    obtain ⟨qs, hqs, hps⟩ := ih fun p' hp' => h p' (List.mem_cons_of_mem p hp')
    exact ⟨q :: qs, .cons hq hqs, .cons hp hps⟩

/-! ## Arrays in units with components -/

/-- What a unit of the same dimension writes for a payload. -/
def WritesAs (u v : UnitOfMeasure F) (x t : Scalar F) : Prop :=
  ∃ s, u.toBase x none = .ok s ∧ v.fromBase s none = .ok t

/-- A payload that is not taken apart is converted within a dimension to what the other unit writes for it. -/
theorem convertPayload_whole_eq_ok_iff (hd : u.dimension = v.dimension) {p z : Value F} {x : Scalar F}
    (hwhole : u.datatype = .tuple ∨ p.elems? = none) (hx : p.toScalar? = some x) :
    convertPayload c u none v none p = .ok z ↔ ∃ t, WritesAs u v x t ∧ z = .ofScalar t := by
  have hsame : (!u.dimension.sameAs v.dimension) = false := by
    rw [Dimension.sameAs_iff.2 hd, Bool.not_true]
  rw [convertPayload_of_whole (.inl hd) hwhole, convertScalar_eq_ok_iff, hsame]
  constructor
  · rintro ⟨x', s, s', t, hx', hs, hs', ht, rfl⟩
    obtain rfl := Option.some.inj (hx.symm.trans hx')
    obtain rfl := Option.some.inj hs'
    exact ⟨t, ⟨s, hs, ht⟩, rfl⟩
  · rintro ⟨t, ⟨s, hs, ht⟩, rfl⟩
    exact ⟨x, s, s, t, hx, hs, rfl, ht, rfl⟩

/-- A number survives if the other unit writes it as something that the unit itself writes as the number. -/
theorem survives_of_writesAs (hu : u.datatype = .numeric) (hv : v.isDependent = false) (hd : u.dimension = v.dimension) {x : F}
    {t : Scalar F} (hthere : WritesAs u v (.number x) t) (hback : WritesAs v u t (.number x))
    (hwhole : v.datatype = .tuple ∨ t.kind ≠ .tuple) : Survives c u v (.number x) := by
  have hdependent : u.isDependent = false := by
    simp [UnitOfMeasure.isDependent, hu]
  have helems : v.datatype = .tuple ∨ (Value.ofScalar t).elems? = none := by
    refine hwhole.imp_right fun hkind => ?_
    cases t with
    | number y => simp [Value.ofScalar, Value.elems?]
    | text s => simp [Value.ofScalar, Value.elems?]
    | tuple ts => exact absurd rfl hkind
  refine (survives_iff hdependent hv).2 ⟨.ofScalar t, (convertPayload_whole_eq_ok_iff hd (.inr rfl) rfl).2 ⟨t, hthere, rfl⟩, ?_⟩
  exact (convertPayload_whole_eq_ok_iff hd.symm helems (Value.toScalar?_ofScalar t)).2
    ⟨.number x, hback, by rw [Value.ofScalar]⟩

/-- Numbers that survive one by one are converted together to what the other unit writes for them. -/
theorem exists_components (hu : u.datatype = .numeric) (hv : v.isDependent = false) (hd : u.dimension = v.dimension) {xs : List F}
    (h : ∀ x ∈ xs, Survives c u v (.number x)) : ∃ ts, List.Forall₂ (fun x t => WritesAs u v (.number x) t) xs ts ∧
      convertPayload c u none v none (.array (xs.map .number)) = .ok (.array (ts.map .ofScalar)) := by
  have hdependent : u.isDependent = false := by
    simp [UnitOfMeasure.isDependent, hu]
  have htuple : u.datatype ≠ .tuple := by
    simp [hu]
  suffices hpairs : ∃ ts, List.Forall₂ (fun x t => WritesAs u v (.number x) t) xs ts ∧
      List.Forall₂ (fun p q => convertPayload c u none v none p = .ok q) (xs.map .number) (ts.map .ofScalar) by
    obtain ⟨ts, hts, hqs⟩ := hpairs
    exact ⟨ts, hts, (convertPayload_array_eq_ok_iff (.inl hd) htuple).2 ⟨_, hqs, rfl⟩⟩
  induction xs with
  | nil => exact ⟨[], .nil, .nil⟩
  | cons x xs ih =>
    obtain ⟨q, hq, -⟩ := (survives_iff hdependent hv).1 (h x List.mem_cons_self)
    obtain ⟨t, ht, rfl⟩ := (convertPayload_whole_eq_ok_iff hd (.inr rfl) rfl).1 hq
    obtain ⟨ts, hts, hqs⟩ := ih fun y hy => h y (List.mem_cons_of_mem x hy)
    exact ⟨t :: ts, .cons ht hts, .cons hq hqs⟩

/-- On the way back from a unit with components, an array that was converted to `ts` is read as the one payload with these
components. -/
theorem survives_array_iff_of_tuple (hu : u.isDependent = false) (hv : v.datatype = .tuple) (hd : u.dimension = v.dimension)
    {xs : List F} {ts : List (Scalar F)}
    (hthere : convertPayload c u none v none (.array (xs.map .number)) = .ok (.array (ts.map .ofScalar))) :
    Survives c u v (.array (xs.map .number)) ↔ WritesAs v u (.tuple ts) (.tuple (xs.map .number)) := by
  have hdependent : v.isDependent = false := by
    simp [UnitOfMeasure.isDependent, hv]
  have htuple (ss : List (Scalar F)) : Value.array (ss.map .ofScalar) = .ofScalar (.tuple ss) := by
    rw [Value.ofScalar, Value.ofScalars_eq_map]
  have hnumbers : Value.array (xs.map Value.number) = .ofScalar (.tuple (xs.map .number)) := by
    rw [← htuple, List.map_map]
    rfl
  have hback : convertPayload c v none u none (.array (ts.map .ofScalar)) = .ok (.array (xs.map .number)) ↔
      WritesAs v u (.tuple ts) (.tuple (xs.map .number)) := by
    rw [htuple, hnumbers, convertPayload_whole_eq_ok_iff hd.symm (.inl hv) (Value.toScalar?_ofScalar _)]
    constructor
    · rintro ⟨t, ht, heq⟩
      rwa [Value.ofScalar_injective heq]
    · intro h
      exact ⟨_, h, rfl⟩
  rw [survives_iff hu hdependent, ← hback]
  constructor
  · rintro ⟨q, hq, hp⟩
    obtain rfl := Except.ok.inj (hthere.symm.trans hq)
    exact hp
  · intro hp
    exact ⟨_, hthere, hp⟩

/-- Components that are read together make a number. -/
theorem exists_number_of_recompose {us : List (UnitOfMeasure F)} {x s : Scalar F} {dep : Option (Scalar F)}
    (h : Composition.recompose us x dep = .ok s) : ∃ total, s = .number total := by
  obtain ⟨components, -, hcomponents⟩ := bind_eq_ok_iff.1 (h : (x.expectTuple >>= _) = _)
  split at hcomponents
  · obtain ⟨total, -, rfl⟩ := map_eq_ok_iff.1 hcomponents
    exact ⟨total, rfl⟩
  · nomatch hcomponents

/-- A unit of several components converts by its components. -/
theorem conversion_of_hierarchical {us : List (UnitOfMeasure F)} (h : Composition.hierarchical c us = .ok v) :
    v.datatype = .tuple ∧ v.toBase = Composition.recompose us ∧ v.fromBase = (Composition.hierarchyTransform us).fromBase := by
  cases us with
  | nil => cases h
  | cons first rest =>
    rw [Composition.hierarchical] at h
    cases hcheck : Composition.checkHierarchy c first (first :: rest) with
    | error e =>
      rw [hcheck] at h
      cases h
    | ok _ =>
      rw [hcheck] at h
      obtain rfl := Except.ok.inj h
      exact ⟨rfl, rfl, rfl⟩

/-- No array survives in a unit of several components, since these make one number. -/
theorem not_survives_of_hierarchical (hu : u.datatype = .numeric) (hd : u.dimension = v.dimension)
    (hv : ∃ us, Composition.hierarchical c us = .ok v) (hwrites : ∀ x s, u.fromBase (.number x) none = .ok s → s.kind = .number)
    {xs : List F} (h : ∀ x ∈ xs, Survives c u v (.number x)) : ¬Survives c u v (.array (xs.map .number)) := by
  obtain ⟨us, hus⟩ := hv
  obtain ⟨htuple, htoBase, -⟩ := conversion_of_hierarchical hus
  have hdependent {w : UnitOfMeasure F} {d : Datatype} (hw : w.datatype = d) (hd : d ≠ .dependent) : w.isDependent = false := by
    simp [UnitOfMeasure.isDependent, hw, hd]
  obtain ⟨ts, -, hthere⟩ := exists_components hu (hdependent htuple nofun) hd h
  rw [survives_array_iff_of_tuple (hdependent hu nofun) htuple hd hthere]
  rintro ⟨s, hs, hx⟩
  rw [htoBase] at hs
  obtain ⟨total, rfl⟩ := exists_number_of_recompose hs
  nomatch hwrites total _ hx

/-! ## Feet and inches -/

/-- Feet, of 0.3048 meters. -/
def feet : UnitOfMeasure Float := Catalog.Standard.multiple (.single "length") "ft" "foot" "feet" 3048 10000

/-- Inches, of 0.0254 meters. -/
def inches : UnitOfMeasure Float := Catalog.Standard.multiple (.single "length") "in" "inch" "inches" 254 10000

/-- Inches measure what feet measure. -/
theorem dimension_inches : feet.dimension = inches.dimension := rfl

/-- Feet write numbers. -/
theorem kind_of_fromBase_feet (x : Float) (s : Scalar Float) (h : feet.fromBase (.number x) none = .ok s) : s.kind = .number :=
  UnitOfMeasure.kind_of_fromBase (u := feet) (fun _ ht => nomatch (ht : Conversion.ratio _ = _)) h

/-- One and a half feet and three feet survive the conversion to inches. -/
theorem feet_survive_in_inches : ∀ x ∈ [1.5, 3], Survives .empty feet inches (.number x) := by
  have hsurvives {x base y total z : Float} (hbase : feet.toBase (.number x) none = .ok (.number base))
      (hthere : inches.fromBase (.number base) none = .ok (.number y)) (hback : inches.toBase (.number y) none = .ok (.number total))
      (hz : feet.fromBase (.number total) none = .ok (.number z)) (hx : z = x) : Survives .empty feet inches (.number x) := by
    subst hx
    have hwrites : WritesAs feet inches (.number z) (.number y) := ⟨.number base, hbase, hthere⟩
    have hreads : WritesAs inches feet (.number y) (.number z) := ⟨.number total, hback, hz⟩
    exact survives_of_writesAs rfl rfl dimension_inches hwrites hreads (.inr nofun)
  simp only [List.forall_mem_cons]
  exact ⟨hsurvives rfl rfl rfl rfl (by decide +kernel), hsurvives rfl rfl rfl rfl (by decide +kernel), nofun⟩

variable {both : UnitOfMeasure Float}

/-- Feet and inches are a unit of length with two components. -/
theorem feet_and_inches (h : Composition.hierarchical .empty [feet, inches] = .ok both) :
    both.isDependent = false ∧ feet.dimension = both.dimension := by
  obtain rfl := Except.ok.inj h
  exact ⟨rfl, rfl⟩

/-- One and a half feet and three feet survive the conversion to feet and inches. -/
theorem feet_survive_in_both (h : Composition.hierarchical .empty [feet, inches] = .ok both) :
    ∀ x ∈ [1.5, 3], Survives .empty feet both (.number x) := by
  obtain ⟨hdependent, hdimension⟩ := feet_and_inches h
  obtain ⟨htuple, htoBase, hfromBase⟩ := conversion_of_hierarchical h
  have hsurvives {x base total z : Float} {ts : List (Scalar Float)} (hbase : feet.toBase (.number x) none = .ok (.number base))
      (hthere : Composition.decompose none [feet, inches] base = .ok ts)
      (hback : Composition.recompose [feet, inches] (.tuple ts) none = .ok (.number total))
      (hz : feet.fromBase (.number total) none = .ok (.number z)) (hx : z = x) : Survives .empty feet both (.number x) := by
    subst hx
    have hwrites : WritesAs feet both (.number z) (.tuple ts) := by
      refine ⟨.number base, hbase, ?_⟩
      rw [hfromBase]
      exact map_eq_ok_iff.2 ⟨ts, hthere, rfl⟩
    have hreads : WritesAs both feet (.tuple ts) (.number z) := by
      refine ⟨.number total, ?_, hz⟩
      rw [htoBase, hback]
    exact survives_of_writesAs rfl hdependent hdimension hwrites hreads (.inl htuple)
  simp only [List.forall_mem_cons]
  exact ⟨hsurvives rfl rfl rfl rfl (by decide +kernel), hsurvives rfl rfl rfl rfl (by decide +kernel), nofun⟩

/-! ## Where arrays survive -/

/-- An array of numbers survives a conversion to a unit of the same dimension without components if its numbers do. In a unit with
components it becomes the array of what its numbers are written as, and survives just if that array comes back as the payload of one
value. A unit of several components makes one number of it, and so it never comes back to a unit that writes numbers. -/
theorem array_survives_unless_tuple (hu : u.datatype = .numeric) (hv : v.isDependent = false) (hd : u.dimension = v.dimension)
    {xs : List F} (h : ∀ x ∈ xs, Survives c u v (.number x)) :
    (v.datatype ≠ .tuple → Survives c u v (.array (xs.map .number))) ∧
    (v.datatype = .tuple → ∃ ts, List.Forall₂ (fun x t => WritesAs u v (.number x) t) xs ts ∧
      convert c ((Value.array (xs.map .number)).inUnit u) v none = .ok ((Value.array (ts.map .ofScalar)).inUnit v) ∧
      (Survives c u v (.array (xs.map .number)) ↔ WritesAs v u (.tuple ts) (.tuple (xs.map .number)))) ∧
    ((∃ us, Composition.hierarchical c us = .ok v) → (∀ x s, u.fromBase (.number x) none = .ok s → s.kind = .number) →
      ¬Survives c u v (.array (xs.map .number))) := by
  have hdependent : u.isDependent = false := by
    simp [UnitOfMeasure.isDependent, hu]
  have hutuple : u.datatype ≠ .tuple := by
    simp [hu]
  have hnumbers : ∀ p ∈ xs.map Value.number, Survives c u v p := by
    intro p hp
    obtain ⟨x, hx, rfl⟩ := List.mem_map.1 hp
    exact h x hx
  obtain ⟨ts, hts, hthere⟩ := exists_components hu hv hd h
  refine ⟨fun hvtuple => .array hdependent hv (.inl hd) hutuple hvtuple hnumbers, fun hvtuple => ?_,
    fun hhierarchical hwrites => not_survives_of_hierarchical hu hd hhierarchical hwrites h⟩
  exact ⟨ts, hts, (convert_inUnit_eq_ok_iff hdependent hv).2 ⟨_, hthere, rfl⟩,
    survives_array_iff_of_tuple hdependent hvtuple hd hthere⟩

/-- An array of feet survives in inches, and does not survive in feet and inches. -/
theorem feet_in_inches_and_in_both :
    Survives .empty feet inches (.array [.number 1.5, .number 3]) ∧
      ∃ both, Composition.hierarchical .empty [feet, inches] = .ok both ∧
        ¬Survives .empty feet both (.array [.number 1.5, .number 3]) := by
  obtain ⟨both, hboth⟩ : ∃ both, Composition.hierarchical .empty [feet, inches] = .ok both := ⟨_, rfl⟩
  obtain ⟨hdependent, hdimension⟩ := feet_and_inches hboth
  have hinches := array_survives_unless_tuple rfl rfl dimension_inches feet_survive_in_inches
  have hcomponents := array_survives_unless_tuple rfl hdependent hdimension (feet_survive_in_both hboth)
  exact ⟨hinches.1 nofun, both, hboth, hcomponents.2.2 ⟨_, hboth⟩ kind_of_fromBase_feet⟩

/-- One and a half feet and three feet survive in feet and inches, and the array of them does not: it comes back as one number. -/
theorem feet_lost_in_both : ∃ both, Composition.hierarchical .empty [feet, inches] = .ok both ∧
    feet.datatype = .numeric ∧ both.isDependent = false ∧ feet.dimension = both.dimension ∧
    (∀ x ∈ [1.5, 3], Survives .empty feet both (.number x)) ∧ ¬Survives .empty feet both (.array [.number 1.5, .number 3]) := by
  obtain ⟨both, hboth⟩ : ∃ both, Composition.hierarchical .empty [feet, inches] = .ok both := ⟨_, rfl⟩
  obtain ⟨hdependent, hdimension⟩ := feet_and_inches hboth
  have hsurvive := feet_survive_in_both hboth
  have hlost := not_survives_of_hierarchical rfl hdimension ⟨_, hboth⟩ kind_of_fromBase_feet hsurvive
  exact ⟨both, hboth, rfl, hdependent, hdimension, hsurvive, hlost⟩

end Algebra

end QuantityCalculus
