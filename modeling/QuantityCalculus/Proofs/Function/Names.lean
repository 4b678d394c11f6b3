import Mathlib.Data.List.Chain
import QuantityCalculus.Proofs.Function.Composition

/-!
# The names of functions

Names are words whose neighbours are added up when they have one base and one sign. Only the ends that meet in a composition can be such
neighbours, as long as the names on both sides are `Reduced`, and all names that functions get are (`FunctionValue.Reachable.regular`). So
composing and inverting functions composes and inverts their names as in a group, except that a factor and its inverse never cancel
(`FunctionValue.names_follow_functions`).
-/

namespace QuantityCalculus

/-! ## Factors -/

namespace NameTerm

/-- Two factors that are added up where they meet: powers of one base with the same sign. -/
def Alike (s t : NameTerm) : Prop := s.base = t.base ∧ s.exponent.sign = t.exponent.sign

/-- The power of a base with both exponents. -/
def add (s t : NameTerm) : NameTerm := ⟨s.base, s.exponent + t.exponent⟩

/-- The power of the inverse. -/
def inverse (t : NameTerm) : NameTerm := ⟨t.base, -t.exponent⟩

/-- Factors of one sign are added up to a factor of this sign. -/
theorem Alike.sign_add {s t : NameTerm} (h : s.Alike t) : (s.add t).exponent.sign = s.exponent.sign := by
  have hsign := h.2
  show (s.exponent + t.exponent).sign = s.exponent.sign
  rcases Int.lt_trichotomy s.exponent 0 with hs | hs | hs
  · rw [Int.sign_eq_neg_one_of_neg hs] at hsign ⊢
    have ht := Int.neg_of_sign_eq_neg_one hsign.symm
    exact Int.sign_eq_neg_one_of_neg (by omega)
  · rw [hs, Int.sign_zero] at hsign ⊢
    have ht := Int.eq_zero_of_sign_eq_zero hsign.symm
    rw [ht]
    rfl
  · rw [Int.sign_eq_one_of_pos hs] at hsign ⊢
    have ht := Int.pos_of_sign_eq_one hsign.symm
    exact Int.sign_eq_one_of_pos (by omega)

/-- A factor that was added up is alike to what it was alike to before. -/
theorem Alike.add_left_iff {s t u : NameTerm} (h : s.Alike t) : (s.add t).Alike u ↔ s.Alike u := by
  unfold Alike
  rw [h.sign_add]
  rfl

/-- What is alike to a factor is alike to it when it was added up. -/
theorem Alike.add_right_iff {s t u : NameTerm} (h : s.Alike t) : u.Alike (s.add t) ↔ u.Alike s := by
  unfold Alike
  rw [h.sign_add]
  rfl

/-- Two factors that are alike are alike to the same ones. -/
theorem Alike.congr_left {s t u : NameTerm} (h : s.Alike t) : s.Alike u ↔ t.Alike u := by
  unfold Alike
  rw [h.1, h.2]

/-- Being alike goes both ways. -/
theorem alike_comm {s t : NameTerm} : s.Alike t ↔ t.Alike s := by
  unfold Alike
  rw [eq_comm, @eq_comm _ s.exponent.sign]

/-- The inverses of factors are alike if the factors are. -/
theorem inverse_alike_inverse_iff {s t : NameTerm} : s.inverse.Alike t.inverse ↔ s.Alike t := by
  unfold Alike inverse
  simp only [Int.sign_neg, Int.neg_inj]

/-- The inverse of a sum is the sum of the inverses, in the other order too. -/
theorem Alike.inverse_add {s t : NameTerm} (h : s.Alike t) : (s.add t).inverse = t.inverse.add s.inverse := by
  unfold inverse add
  rw [h.1, Int.neg_add, Int.add_comm]

end NameTerm

/-! ## Words of factors -/

/-- A factor that is not alike to the last one follows it. -/
theorem appendTerm_of_not_alike {s t : NameTerm} (h : ¬s.Alike t) (names : List NameTerm) :
    appendTerm (names ++ [s]) t = names ++ [s] ++ [t] := by
  unfold appendTerm
  rw [List.getLast?_concat]
  exact if_neg h

/-- A factor that is alike to the last one is added to it. -/
theorem appendTerm_of_alike {s t : NameTerm} (h : s.Alike t) (names : List NameTerm) :
    appendTerm (names ++ [s]) t = names ++ [s.add t] := by
  unfold appendTerm
  rw [List.getLast?_concat, List.dropLast_concat]
  exact if_pos h

/-- Two factors that are alike may be added up first. -/
theorem appendTerm_appendTerm {s t : NameTerm} (h : s.Alike t) (names : List NameTerm) :
    appendTerm (appendTerm names s) t = appendTerm names (s.add t) := by
  rcases List.eq_nil_or_concat' names with rfl | ⟨names, r, rfl⟩
  · exact appendTerm_of_alike h []
  · by_cases hr : r.Alike s
    · have hadd : (r.add s).add t = r.add (s.add t) := by
        unfold NameTerm.add
        rw [Int.add_assoc]
      rw [appendTerm_of_alike hr, appendTerm_of_alike (hr.add_left_iff.2 (hr.congr_left.2 h)), hadd,
        appendTerm_of_alike (h.add_right_iff.2 hr)]
    · rw [appendTerm_of_not_alike hr, appendTerm_of_not_alike (h.add_right_iff.not.2 hr), appendTerm_of_alike h]

/-- Merging reads the inner name from its outer end. -/
theorem mergeNames_append_singleton (outer inner : List NameTerm) (t : NameTerm) :
    mergeNames outer (inner ++ [t]) = appendTerm (mergeNames outer inner) t := by
  unfold mergeNames
  rw [List.foldl_append]
  rfl

/-- A factor may be appended before or after merging. -/
theorem mergeNames_appendTerm (outer inner : List NameTerm) (t : NameTerm) :
    mergeNames outer (appendTerm inner t) = appendTerm (mergeNames outer inner) t := by
  rcases List.eq_nil_or_concat' inner with rfl | ⟨inner, s, rfl⟩
  · rfl
  · by_cases h : s.Alike t
    · rw [appendTerm_of_alike h, mergeNames_append_singleton, mergeNames_append_singleton, appendTerm_appendTerm h]
    · rw [appendTerm_of_not_alike h, mergeNames_append_singleton]

/-- Merging is associative. -/
theorem mergeNames_assoc (a b c : List NameTerm) : mergeNames (mergeNames a b) c = mergeNames a (mergeNames b c) := by
  -- Names grow at their inner end, so the innermost one is taken apart from there.
  induction c using List.reverseRecOn with
  | nil => rfl
  | append_singleton c t ih => rw [mergeNames_append_singleton, mergeNames_append_singleton, ih, mergeNames_appendTerm]

/-- A name without factors of exponent zero, in which no two neighbours are alike. -/
structure Reduced (names : List NameTerm) : Prop where
  nonzero : ∀ t ∈ names, t.exponent ≠ 0
  apart : names.IsChain fun s t => ¬s.Alike t

/-- The empty name is reduced. -/
theorem reduced_nil : Reduced [] := ⟨List.forall_mem_nil _, .nil⟩

/-- A single power that is not zero is reduced. -/
theorem reduced_singleton {t : NameTerm} (h : t.exponent ≠ 0) : Reduced [t] := ⟨List.forall_mem_singleton.2 h, .singleton t⟩

/-- A name with one more factor is reduced if the name is, and the factor is neither zero nor alike to the last one. -/
theorem reduced_append_singleton_iff {names : List NameTerm} {t : NameTerm} :
    Reduced (names ++ [t]) ↔ Reduced names ∧ t.exponent ≠ 0 ∧ ∀ s ∈ names.getLast?, ¬s.Alike t := by
  constructor
  · rintro ⟨hnonzero, hapart⟩
    rw [List.isChain_append] at hapart
    exact ⟨⟨fun s hs => hnonzero s (List.mem_append_left _ hs), hapart.1⟩, hnonzero t (List.mem_append_right _ (List.mem_singleton_self t)),
      fun s hs => hapart.2.2 s hs t rfl⟩
  · rintro ⟨⟨hnonzero, hapart⟩, ht, hlast⟩
    refine ⟨List.forall_mem_append.2 ⟨hnonzero, List.forall_mem_singleton.2 ht⟩, List.isChain_append.2 ⟨hapart, .singleton t, ?_⟩⟩
    intro s hs u hu
    obtain rfl := Option.some.inj hu
    exact hlast s hs

/-- A reduced name is appended to as it stands. -/
theorem Reduced.append_eq {names : List NameTerm} {t : NameTerm} (h : Reduced (names ++ [t])) : appendTerm names t = names ++ [t] := by
  rcases List.eq_nil_or_concat' names with rfl | ⟨names, s, rfl⟩
  · rfl
  · have hlast := (reduced_append_singleton_iff.1 h).2.2 s List.getLast?_concat
    exact appendTerm_of_not_alike hlast names

/-- A reduced name merged into the empty one is itself. -/
theorem Reduced.nil_merge {names : List NameTerm} (h : Reduced names) : mergeNames [] names = names := by
  induction names using List.reverseRecOn with
  | nil => rfl
  | append_singleton names t ih => rw [mergeNames_append_singleton, ih (reduced_append_singleton_iff.1 h).1, h.append_eq]

/-- A reduced name stays so when a factor is appended. -/
theorem Reduced.append {names : List NameTerm} {t : NameTerm} (h : Reduced names) (ht : t.exponent ≠ 0) : Reduced (appendTerm names t) := by
  rcases List.eq_nil_or_concat' names with rfl | ⟨names, s, rfl⟩
  · exact reduced_singleton ht
  · by_cases hs : s.Alike t
    · obtain ⟨hnames, hzero, hlast⟩ := reduced_append_singleton_iff.1 h
      rw [appendTerm_of_alike hs, reduced_append_singleton_iff]
      refine ⟨hnames, ?_, fun r hr => hs.add_right_iff.not.2 (hlast r hr)⟩
      rw [Ne, ← Int.sign_eq_zero_iff_zero, hs.sign_add, Int.sign_eq_zero_iff_zero]
      exact hzero
    · rw [appendTerm_of_not_alike hs, reduced_append_singleton_iff]
      refine ⟨h, ht, fun r hr => ?_⟩
      rw [List.getLast?_concat] at hr
      obtain rfl := Option.some.inj hr
      exact hs

/-- Reduced names are merged to a reduced name. -/
theorem Reduced.merge {outer inner : List NameTerm} (h : Reduced outer) (h' : Reduced inner) : Reduced (mergeNames outer inner) := by
  induction inner using List.reverseRecOn with
  | nil => exact h
  | append_singleton inner t ih =>
    obtain ⟨hinner, ht, -⟩ := reduced_append_singleton_iff.1 h'
    rw [mergeNames_append_singleton]
    exact (ih hinner).append ht

/-! ## Inverse words -/

/-- The inverse of a name with one more factor starts with its inverse. -/
theorem invertNames_append_singleton (names : List NameTerm) (t : NameTerm) :
    invertNames (names ++ [t]) = t.inverse :: invertNames names := by
  unfold invertNames
  rw [List.map_append, List.map_singleton, List.reverse_concat]
  rfl

/-- The inverse of a name with a factor in front ends with its inverse. -/
theorem invertNames_cons (t : NameTerm) (names : List NameTerm) : invertNames (t :: names) = invertNames names ++ [t.inverse] := by
  unfold invertNames
  rw [List.map_cons, List.reverse_cons]
  rfl

/-- Inverting twice restores the name. -/
theorem invertNames_invertNames (names : List NameTerm) : invertNames (invertNames names) = names := by
  induction names with
  | nil => rfl
  | cons t names ih =>
    have hinverse : t.inverse.inverse = t := by
      unfold NameTerm.inverse
      rw [Int.neg_neg]
    rw [invertNames_cons, invertNames_append_singleton, ih, hinverse]

/-- The inverse of a reduced name is reduced. -/
theorem Reduced.invert {names : List NameTerm} (h : Reduced names) : Reduced (invertNames names) := by
  obtain ⟨hnonzero, hapart⟩ := h
  constructor
  · intro t ht
    obtain ⟨s, hs, rfl⟩ := List.mem_map.1 (List.mem_reverse.1 ht)
    exact Int.neg_ne_zero.2 (hnonzero s hs)
  · refine List.isChain_reverse.2 ((List.isChain_map NameTerm.inverse).2 (hapart.imp fun s t hst => ?_))
    exact fun hts => hst (NameTerm.alike_comm.1 (NameTerm.inverse_alike_inverse_iff.1 hts))

/-- The inverse of a reduced name with a factor appended is that of the factor, with the inverse of the name merged into it. -/
theorem Reduced.invert_append {names : List NameTerm} {t : NameTerm} (h : Reduced names) (ht : t.exponent ≠ 0) :
    invertNames (appendTerm names t) = mergeNames [t.inverse] (invertNames names) := by
  rw [← (h.append ht).invert.nil_merge]
  rcases List.eq_nil_or_concat' names with rfl | ⟨names, s, rfl⟩
  · rfl
  · by_cases hs : s.Alike t
    · have hmerge : appendTerm [t.inverse] s.inverse = [t.inverse.add s.inverse] :=
        appendTerm_of_alike (NameTerm.inverse_alike_inverse_iff.2 (NameTerm.alike_comm.1 hs)) []
      rw [appendTerm_of_alike hs, invertNames_append_singleton, invertNames_append_singleton, hs.inverse_add]
      unfold mergeNames
      rw [List.foldl_cons, List.foldl_cons, hmerge]
      rfl
    · rw [appendTerm_of_not_alike hs, invertNames_append_singleton]
      rfl

/-- The inverse of merged names is that of the inner one with that of the outer one merged into it. -/
theorem Reduced.invert_merge {outer inner : List NameTerm} (h : Reduced outer) (h' : Reduced inner) :
    invertNames (mergeNames outer inner) = mergeNames (invertNames inner) (invertNames outer) := by
  -- The first factor of the inner name goes over to the outer one, which stays reduced.
  induction inner generalizing outer with
  | nil => exact h.invert.nil_merge.symm
  | cons t inner ih =>
    have ht : t.exponent ≠ 0 := h'.nonzero t (List.mem_cons_self ..)
    have hinner : Reduced inner := ⟨fun s hs => h'.nonzero s (List.mem_cons_of_mem _ hs), h'.apart.of_cons⟩
    have hend : appendTerm (invertNames inner) t.inverse = invertNames inner ++ [t.inverse] := by
      have hinverse := h'.invert
      rw [invertNames_cons] at hinverse
      exact hinverse.append_eq
    calc invertNames (mergeNames outer (t :: inner))
      _ = mergeNames (invertNames inner) (invertNames (appendTerm outer t)) := ih (h.append ht) hinner
      _ = mergeNames (appendTerm (invertNames inner) t.inverse) (invertNames outer) := by
        rw [h.invert_append ht, ← mergeNames_assoc]
        rfl
      _ = mergeNames (invertNames (t :: inner)) (invertNames outer) := by rw [hend, invertNames_cons]

/-! ## Functions and their names -/

namespace FunctionValue

variable {F : Type} {f f' g g' : FunctionValue F}

/-- The factors of the name of a function. -/
abbrev names (f : FunctionValue F) : List NameTerm := f.signature.names

/-- The functions that composing, inverting and powers make of built-in functions, conversions and the identity. A variable that is
assigned a function may become its owner. -/
inductive Reachable : FunctionValue F → Prop
  | builtin (b : Builtin) : Reachable (.ofBuiltin b)
  | conversion (name : String) (source target : UnitOfMeasure F) (targetDep : Option (Scalar F)) :
      Reachable (.conversion name source target targetDep)
  | identity : Reachable .identity
  | compose {f g : FunctionValue F} : Reachable f → Reachable g → Reachable (f.compose g)
  | invert {f f' : FunctionValue F} : Reachable f → f.invert = .ok f' → Reachable f'
  | pow {f f' : FunctionValue F} {exponent : Int} : Reachable f → f.pow exponent = .ok f' → Reachable f'
  | owned {f : FunctionValue F} (owner : Option Owner) : Reachable f → Reachable { f with owner }

/-- A function with a reduced name, which takes one argument if it has an inverse. -/
structure Regular (f : FunctionValue F) : Prop where
  reduced : Reduced f.names
  unary : f.isInvertible = true → f.signature.arity = .unary

/-- The built-in functions that have an inverse take one argument. -/
theorem regular_ofBuiltin (b : Builtin) : Regular (F := F) (.ofBuiltin b) := by
  refine ⟨reduced_singleton Int.one_ne_zero, fun hinvertible => ?_⟩
  have hunary : ∀ p ∈ Builtin.inversePairs ++ Builtin.inversePairs.map Prod.swap, p.1.arity = .unary := by decide
  unfold isInvertible ofBuiltin at hinvertible
  rw [Option.isSome_map, Builtin.inverse?, List.lookup_isSome_iff] at hinvertible
  obtain ⟨p, hp, hb⟩ := hinvertible
  rw [eq_of_beq hb]
  exact hunary p hp

/-- The identity is regular. -/
theorem regular_identity : Regular (F := F) .identity := ⟨reduced_nil, fun _ => rfl⟩

/-- A composition takes the arguments of the inner function. -/
theorem Regular.compose (hf : Regular f) (hg : Regular g) : Regular (f.compose g) :=
  ⟨hf.reduced.merge hg.reduced, fun hinvertible => hg.unary ((isInvertible_compose f g).1 hinvertible).2⟩

/-- An inverse has the inverse name. -/
theorem names_invert (h : f.invert = .ok f') : f'.names = invertNames f.names := by
  unfold FunctionValue.invert at h
  split at h
  · nomatch h
  · obtain rfl := Except.ok.inj h
    rfl

/-- An inverse takes one argument. -/
theorem Regular.invert (hf : Regular f) (h : f.invert = .ok f') : Regular f' := by
  refine ⟨?_, fun _ => (invert_eq_ok h).2⟩
  rw [names_invert h]
  exact hf.reduced.invert

/-- Powers are regular. -/
theorem Regular.pow (hf : Regular f) {exponent : Int} (h : f.pow exponent = .ok f') : Regular f' := by
  have hpower {base : FunctionValue F} (hbase : Regular base) {p : FunctionValue F}
      (hp : powBySquaring (m := Outcome) (fun f g => .ok (FunctionValue.compose f g)) .identity base exponent.natAbs = .ok p) : Regular p := by
    obtain ⟨q, hq, hregular⟩ := powFrom_induction (m := Outcome) (R := fun _ q => Regular q) (S := fun _ q => Regular q)
      (fun hx hy => hx.compose hy) (fun hy => hy.compose hy) (i := 0) (j := 1) regular_identity hbase exponent.natAbs
    obtain rfl := Except.ok.inj (hq.symm.trans hp)
    exact hregular
  unfold FunctionValue.pow at h
  split at h
  · obtain ⟨base, hbase, hp⟩ := Outcome.bind_eq_ok_iff.1 h
    exact hpower (hf.invert hbase) hp
  · exact hpower hf h

/-- All functions are regular. -/
theorem Reachable.regular (h : Reachable f) : Regular f := by
  induction h with
  | builtin b => exact regular_ofBuiltin b
  | conversion => exact ⟨reduced_singleton Int.one_ne_zero, fun _ => rfl⟩
  | identity => exact regular_identity
  | compose _ _ ihf ihg => exact ihf.compose ihg
  | invert _ h ih => exact ih.invert h
  | pow _ h ih => exact ih.pow h
  | owned _ _ ih => exact ⟨ih.reduced, ih.unary⟩

/-- The inverse of the inverse is the function. -/
theorem Regular.invert_invert (hf : Regular f) (h : f.invert = .ok f') : f'.invert = .ok f := by
  have hunary := hf.unary (isInvertible_iff.2 ⟨f', h⟩)
  unfold FunctionValue.invert at h
  split at h
  · nomatch h
  · rename_i rule hrule
    obtain rfl := Except.ok.inj h
    obtain ⟨forward, inverse, ⟨names, arity⟩, owner⟩ := f
    obtain rfl : arity = .unary := hunary
    obtain rfl : inverse = some rule := hrule
    unfold FunctionValue.invert
    dsimp only
    rw [invertNames_invertNames]
    cases owner <;> simp

/-- The name of a power of a function with a single factor: nothing if the exponent is zero. -/
def powerNames (t : NameTerm) (n : Nat) : List NameTerm := if n = 0 then [] else [⟨t.base, t.exponent * n⟩]

/-- Powers of a factor are merged by adding their exponents. -/
theorem mergeNames_powerNames (t : NameTerm) (m : Nat) {n : Nat} (hn : 0 < n) :
    mergeNames (powerNames t m) (powerNames t n) = powerNames t (m + n) := by
  have hsign {k : Nat} (hk : 0 < k) : (t.exponent * k).sign = t.exponent.sign := by
    rw [Int.sign_mul, Int.sign_eq_one_of_pos (Int.natCast_pos.2 hk), Int.mul_one]
  unfold powerNames
  rw [if_neg hn.ne', if_neg (Nat.add_pos_right m hn).ne']
  split
  · rename_i hm
    rw [hm, Nat.zero_add]
    rfl
  · rename_i hm
    have halike : NameTerm.Alike ⟨t.base, t.exponent * m⟩ ⟨t.base, t.exponent * n⟩ :=
      ⟨rfl, (hsign (Nat.pos_of_ne_zero hm)).trans (hsign hn).symm⟩
    rw [Int.natCast_add, Int.mul_add]
    exact appendTerm_of_alike halike []

/-- A positive power of a function with a single factor multiplies its exponent. -/
theorem exists_pow_natCast_names {t : NameTerm} (hf : f.names = [t]) {n : Nat} (hn : 0 < n) :
    ∃ p, f.pow n = .ok p ∧ p.names = [⟨t.base, t.exponent * n⟩] := by
  -- Squares have a factor, so that only the result so far can have the empty name.
  have hmul {i j} {x y : FunctionValue F} (hx : x.names = powerNames t i) (hy : 0 < j ∧ y.names = powerNames t j) :
      (x.compose y).names = powerNames t (i + j) := (congrArg₂ mergeNames hx hy.2).trans (mergeNames_powerNames t i hy.1)
  have hsquare {j} {y : FunctionValue F} (hy : 0 < j ∧ y.names = powerNames t j) : 0 < j + j ∧ (y.compose y).names = powerNames t (j + j) :=
    ⟨Nat.add_pos_left hy.1 j, hmul hy.2 hy⟩
  have hzero : (identity : FunctionValue F).names = powerNames t 0 := rfl
  have hone : f.names = powerNames t 1 := hf.trans (by simp [powerNames])
  obtain ⟨p, hpow, hnames⟩ := powFrom_induction (m := Outcome) (R := fun i x => names x = powerNames t i)
    (S := fun j y => 0 < j ∧ names y = powerNames t j) hmul hsquare hzero ⟨Nat.one_pos, hone⟩ n
  refine ⟨p, ?_, ?_⟩
  · rw [FunctionValue.pow, if_neg (Int.natCast_nonneg n).not_gt]
    exact hpow
  · rw [hnames, Nat.zero_add, Nat.one_mul, powerNames, if_neg hn.ne']

/-- A power of a function with a single factor multiplies its exponent, if the function has an inverse or the power is positive. -/
theorem exists_pow_names {t : NameTerm} (hf : f.names = [t]) {n : Int} (hn : n ≠ 0) (hinvertible : n < 0 → f.isInvertible = true) :
    ∃ p, f.pow n = .ok p ∧ p.names = [⟨t.base, t.exponent * n⟩] := by
  rcases Int.lt_or_gt_of_ne hn with hneg | hpos
  · obtain ⟨f', hinvert⟩ := isInvertible_iff.1 (hinvertible hneg)
    have hf' : f'.names = [t.inverse] := by
      rw [names_invert hinvert, hf]
      rfl
    obtain ⟨p, hpow, hnames⟩ := exists_pow_natCast_names hf' (Int.natAbs_pos.2 hn)
    have hexponent : t.inverse.exponent * (n.natAbs : Int) = t.exponent * n := by
      rw [Int.ofNat_natAbs_of_nonpos hneg.le, NameTerm.inverse, Int.neg_mul_neg]
    rw [hexponent] at hnames
    refine ⟨p, ?_, hnames⟩
    rw [FunctionValue.pow, if_neg (Int.natCast_nonneg _).not_gt] at hpow
    rw [FunctionValue.pow, if_pos hneg, hinvert]
    exact hpow
  · obtain ⟨n, rfl⟩ := Int.eq_ofNat_of_zero_le hpos.le
    exact exists_pow_natCast_names hf (Int.natCast_pos.1 hpos)

/-- The names of functions follow what is done with the functions. For all functions that composing, inverting and powers make of built-in
functions, conversions and the identity: no factor has the exponent zero, and no two neighbours have one base and one sign; compositions of
three functions have one name in both groupings, and the identity adds nothing to a name on either side; the inverse of a composition has the
name of the inverses composed the other way round; inverting twice gives the function itself, with its name, its arity and both rules; and a
power that is not zero multiplies the exponent of a single factor. -/
theorem names_follow_functions (hf : Reachable f) (hg : Reachable g) (h : FunctionValue F) :
    (∀ t ∈ f.names, t.exponent ≠ 0) ∧
    (∀ before s t after, f.names = before ++ s :: t :: after → s.base = t.base → s.exponent.sign ≠ t.exponent.sign) ∧
    ((f.compose g).compose h).names = (f.compose (g.compose h)).names ∧
    (identity.compose f).names = f.names ∧ (f.compose identity).names = f.names ∧
    ((f.compose g).isInvertible = true → ∃ f' g' p, f.invert = .ok f' ∧ g.invert = .ok g' ∧ (f.compose g).invert = .ok p ∧
      p.names = (g'.compose f').names) ∧
    (∀ f', f.invert = .ok f' → f'.invert = .ok f) ∧
    ∀ t (n : Int), f.names = [t] → n ≠ 0 → (n < 0 → f.isInvertible = true) →
      ∃ p, f.pow n = .ok p ∧ p.names = [⟨t.base, t.exponent * n⟩] := by
  have hreduced := hf.regular.reduced
  refine ⟨hreduced.nonzero, fun before s t after hnames hbase hsign => ?_, mergeNames_assoc .., hreduced.nil_merge, rfl, fun hinvertible => ?_,
    fun f' => hf.regular.invert_invert, fun t n hnames hn => exists_pow_names hnames hn⟩
  · have hapart := hreduced.apart
    rw [hnames] at hapart
    exact (List.isChain_append_cons_cons.1 hapart).2.1 ⟨hbase, hsign⟩
  · obtain ⟨hf', hg'⟩ := (isInvertible_compose f g).1 hinvertible
    obtain ⟨f', hinvert⟩ := isInvertible_iff.1 hf'
    obtain ⟨g', hinvert'⟩ := isInvertible_iff.1 hg'
    obtain ⟨p, hp⟩ := isInvertible_iff.1 hinvertible
    refine ⟨f', g', p, hinvert, hinvert', hp, ?_⟩
    rw [names_invert hp]
    show invertNames (mergeNames f.names g.names) = mergeNames g'.names f'.names
    rw [names_invert hinvert, names_invert hinvert']
    exact hreduced.invert_merge hg.regular.reduced

/-- The sine of the cosine, of the cosine of the exponential: only the two cosines are added up, in the inverse too. -/
theorem names_of_sine_and_cosines :
    let sine : FunctionValue ℚ := ofBuiltin (.elementary .sin)
    let cosine : FunctionValue ℚ := ofBuiltin (.elementary .cos)
    let exponential : FunctionValue ℚ := ofBuiltin (.elementary .exp)
    let f := sine.compose cosine
    let g := cosine.compose exponential
    Reachable f ∧ Reachable g ∧ (f.compose g).names = [⟨"sin", 1⟩, ⟨"cos", 2⟩, ⟨"exp", 1⟩] ∧
      (∃ p, (f.compose g).invert = .ok p ∧ p.names = [⟨"exp", -1⟩, ⟨"cos", -2⟩, ⟨"sin", -1⟩]) ∧
      ∃ p, cosine.pow (-2) = .ok p ∧ p.names = [⟨"cos", -2⟩] := by
  intro sine cosine exponential f g
  have hf : Reachable f := .compose (.builtin _) (.builtin _)
  have hg : Reachable g := .compose (.builtin _) (.builtin _)
  obtain ⟨-, -, -, -, -, hinvert, -, -⟩ := names_follow_functions hf hg f
  obtain ⟨-, -, -, -, -, -, -, hpow⟩ := names_follow_functions (.builtin (.elementary .cos)) hg cosine
  obtain ⟨f', g', p, hf', hg', hp, hnames⟩ := hinvert rfl
  obtain rfl := Except.ok.inj hf'
  obtain rfl := Except.ok.inj hg'
  exact ⟨hf, hg, by decide, ⟨p, hp, hnames.trans (by decide)⟩, hpow _ (-2) rfl (by decide) fun _ => rfl⟩

end FunctionValue

end QuantityCalculus
