import QuantityCalculus.Proofs.LanguageString.Join
import QuantityCalculus.Proofs.UnitExpression.Rationalizable

/-!
# Products and quotients taken pair by pair

A product of many units is the product of all but the last with the last, and a quotient by many units is divided by the last one at the
end (`regroup_last`). Dimensions, scales, symbols and names are each folded on their own, and each fold takes up one more operand in the
same way (`foldScales_append_singleton`, `joinedSymbol_append_singleton`, `productName_append_singleton`,
`quotientName_append_singleton`). Names only do if all operands have texts in the same languages and forms. So the units that are composed
pair by pair are those that are composed at once (`multiply_eq_foldlM`, `divide_eq_foldlM`).
-/

namespace QuantityCalculus

open LanguageString

variable {F : Type}

/-- The names of the units have texts in the same languages and forms. -/
def UnitOfMeasure.SameNameKeys (us : List (UnitOfMeasure F)) : Prop :=
  ∀ u ∈ us, ∀ w ∈ us, ∀ name ∈ u.name, ∀ name' ∈ w.name, ∀ key, key ∈ name.keys ↔ key ∈ name'.keys

namespace Composition

/-! ## Folds over operands -/

/-- What is found for every operand can be mapped afterwards. -/
theorem mapM_option_map {α β γ : Type} (f : α → Option β) (g : β → γ) (xs : List α) :
    (xs.mapM fun x => (f x).map g) = (xs.mapM f).map (List.map g) := by
  induction xs with
  | nil => rfl
  | cons x xs ih =>
    simp only [List.mapM_cons, ih]
    cases f x with
    | none => rfl
    | some y => cases xs.mapM f <;> rfl

/-- What is found for every operand is found for the first and for the rest. -/
theorem mapM_cons_eq_some {α β : Type} {f : α → Option β} {x : α} {xs : List α} {ys : List β}
    (h : (x :: xs).mapM f = some ys) : ∃ y rest, ys = y :: rest ∧ f x = some y ∧ xs.mapM f = some rest := by
  rw [List.mapM_cons] at h
  obtain ⟨y, hy, h⟩ := Option.bind_eq_some_iff.1 h
  obtain ⟨rest, hrest, h⟩ := Option.bind_eq_some_iff.1 h
  exact ⟨y, rest, (Option.some.inj h).symm, hy, hrest⟩

/-- Texts of all units that are folded can be folded in two steps if the fold takes up the last one. -/
theorem bind_mapM_append_singleton {α : Type} {text? : UnitOfMeasure F → Option α} {fold : List α → Option α}
    {us : List (UnitOfMeasure F)} {p u : UnitOfMeasure F} (hp : text? p = (us.mapM text?).bind fold)
    (hfold : ∀ texts text, us.mapM text? = some texts → text? u = some text →
      fold (texts ++ [text]) = (fold texts).bind fun folded => fold [folded, text]) :
    ((us ++ [u]).mapM text?).bind fold = ([p, u].mapM text?).bind fold := by
  simp only [List.mapM_append, List.mapM_cons, List.mapM_nil, hp, Option.bind_eq_bind, Option.pure_def]
  cases htexts : us.mapM text? with
  | none => rfl
  | some texts =>
    cases htext : text? u with
    | none => simp only [Option.bind_some, Option.bind_none, Option.bind_fun_none]
    | some text =>
      simp only [Option.bind_some, hfold texts text htexts htext]
      cases fold texts <;> rfl

/-! ## Symbols -/

/-- The symbol of a unit, if it has a single one. -/
def singleSymbol? (u : UnitOfMeasure F) : Option String :=
  match u.symbol with
  | some (.single symbol) => some symbol
  | _ => none

/-- The joined symbol does not depend on the language. -/
theorem joinedSymbol_eq (c : Catalog F) (joiner : Joiner) (us : List (UnitOfMeasure F)) :
    joinedSymbol c joiner us = (us.mapM singleSymbol?).bind (joinPlain? joiner.symbol joiner.order) := by
  have hplain : joinedSymbol c joiner us = (us.mapM fun u => (singleSymbol? u).map plain).bind fun symbols =>
      (join joiner.symbol joiner.order symbols).lookup? c.language .other := by
    unfold joinedSymbol
    dsimp only
    congr
    funext u
    unfold singleSymbol?
    rcases u.symbol with _ | symbol | symbols <;> rfl
  rw [hplain, mapM_option_map]
  cases us.mapM singleSymbol? with
  | none => rfl
  | some symbols =>
    cases hjoined : joinPlain? joiner.symbol joiner.order symbols with
    | none =>
      cases symbols with
      | nil => rfl
      | cons symbol symbols => nomatch hjoined
    | some symbol => rw [Option.map_some, Option.bind_some, Option.bind_some, join_plain hjoined, lookup?_plain, hjoined]

/-- The joined symbol takes up one more unit. -/
theorem joinedSymbol_append_singleton (c : Catalog F) (joiner : Joiner) {us : List (UnitOfMeasure F)} (hus : us ≠ [])
    {p : UnitOfMeasure F} (hp : p.symbol = (joinedSymbol c joiner us).map .single) (u : UnitOfMeasure F) :
    joinedSymbol c joiner (us ++ [u]) = joinedSymbol c joiner [p, u] := by
  have hsymbol : singleSymbol? p = joinedSymbol c joiner us := by
    unfold singleSymbol?
    rw [hp]
    cases joinedSymbol c joiner us <;> rfl
  rw [joinedSymbol_eq] at hsymbol
  rw [joinedSymbol_eq, joinedSymbol_eq]
  refine bind_mapM_append_singleton hsymbol fun symbols symbol hsymbols _ => ?_
  obtain ⟨v, us, rfl⟩ := List.exists_cons_of_ne_nil hus
  obtain ⟨first, rest, rfl, -, -⟩ := mapM_cons_eq_some hsymbols
  exact joinTexts_append_singleton _ _ rfl symbol

/-! ## Names -/

/-- The name of a product takes up one more unit with a name in the same languages and forms. -/
theorem productName_append_singleton (joiner : Joiner) {us : List (UnitOfMeasure F)} (hus : us ≠ []) {p u : UnitOfMeasure F}
    (hp : p.name = (us.mapM UnitOfMeasure.name).map (joinedName joiner)) (h : UnitOfMeasure.SameNameKeys (us ++ [u])) :
    ((us ++ [u]).mapM UnitOfMeasure.name).map (joinedName joiner) =
      ([p, u].mapM UnitOfMeasure.name).map (joinedName joiner) := by
  simp only [Option.map_eq_bind] at hp ⊢
  refine bind_mapM_append_singleton hp fun names last hnames hlast => ?_
  obtain ⟨v, us, rfl⟩ := List.exists_cons_of_ne_nil hus
  obtain ⟨first, rest, rfl, hfirst, -⟩ := mapM_cons_eq_some hnames
  have hkeys : ∀ key ∈ last.keys, key ∈ keysOf (first :: rest) := by
    intro key hkey
    have hsame := h v (by simp) u (by simp) first hfirst last hlast key
    exact mem_keysOf_iff.2 ⟨first, List.mem_cons_self .., hsame.2 hkey⟩
  exact congrArg some (join_append_singleton joiner.name joiner.order (first :: rest) hkeys)

/-- The name of a quotient takes up one more divisor with a name in the same languages and forms, once there is a first one: the names of
divisors have both forms of every language. -/
theorem quotientName_append_singleton (joiner : Joiner) {us : List (UnitOfMeasure F)} (hus : 2 ≤ us.length) {p u : UnitOfMeasure F}
    (hp : p.name = (us.mapM UnitOfMeasure.name).map fun names => joinedName joiner (quotientNames names))
    (h : UnitOfMeasure.SameNameKeys (us ++ [u])) :
    (((us ++ [u]).mapM UnitOfMeasure.name).map fun names => joinedName joiner (quotientNames names)) =
      ([p, u].mapM UnitOfMeasure.name).map fun names => joinedName joiner (quotientNames names) := by
  simp only [Option.map_eq_bind] at hp ⊢
  refine bind_mapM_append_singleton hp fun names last hnames hlast => ?_
  obtain ⟨v, w, us, rfl⟩ : ∃ v w rest, us = v :: w :: rest := by
    match us, hus with
    | v :: w :: us, _ => exact ⟨v, w, us, rfl⟩
  obtain ⟨dividend, rest, rfl, -, hrest⟩ := mapM_cons_eq_some hnames
  obtain ⟨divisor, rest, rfl, hdivisor, -⟩ := mapM_cons_eq_some hrest
  have hkeys : ∀ key ∈ last.singular.keys, key ∈ keysOf (quotientNames (dividend :: divisor :: rest)) := by
    intro key hkey
    obtain ⟨plural, hkey⟩ := mem_keys_singular.1 hkey
    have hsame := h w (by simp) u (by simp) divisor hdivisor last hlast (key.1, plural)
    refine mem_keysOf_iff.2 ⟨divisor.singular, ?_, mem_keys_singular.2 ⟨plural, hsame.2 hkey⟩⟩
    exact List.mem_cons_of_mem _ (List.mem_cons_self ..)
  have happend : quotientNames (dividend :: divisor :: rest ++ [last]) =
      quotientNames (dividend :: divisor :: rest) ++ [last.singular] := by
    simp [quotientNames]
  have hjoin := join_append_singleton joiner.name joiner.order _ hkeys
  rw [← happend] at hjoin
  exact congrArg some hjoin

/-! ## Outcomes -/

/-- Units that are the same but for their scales, unless `scales` holds, and for their names, unless `names` does. -/
structure SameUnit (scales names : Prop) (u w : UnitOfMeasure F) : Prop where
  id : u.id = w.id
  symbol : u.symbol = w.symbol
  name : names → u.name = w.name
  dimension : u.dimension = w.dimension
  datatype : u.datatype = w.datatype
  conversion : ∃ r s, u.conversion = .ratio r ∧ w.conversion = .ratio s ∧ (scales → r = s)
  dependent : u.dependent = w.dependent

/-- The same error, or units that are the same but for scales and names. -/
def SameOutcome (scales names : Prop) :
    Except CompositionError (UnitOfMeasure F) → Except CompositionError (UnitOfMeasure F) → Prop
  | .ok u, .ok w => SameUnit scales names u w
  | .error e, .error e' => e = e'
  | _, _ => False

/-- Units made of the same parts are the same. -/
theorem sameUnit_scaledUnit {scales names : Prop} {d e : Dimension} (hdimension : d = e) {r s : Ratio F} (hscale : scales → r = s)
    {symbol symbol' : Option String} (hsymbol : symbol = symbol') {name name' : Option LanguageString} (hname : names → name = name') :
    SameUnit scales names (scaledUnit d r symbol name) (scaledUnit e s symbol' name') :=
  ⟨rfl, congrArg (Option.map UnitSymbol.single) hsymbol, hname, hdimension, rfl, ⟨r, s, rfl, rfl, hscale⟩, rfl⟩

/-- Outcomes with the same scales and names are equal. -/
theorem SameOutcome.eq {scales names : Prop} {x y : Except CompositionError (UnitOfMeasure F)} (h : SameOutcome scales names x y)
    (hscales : scales) (hnames : names) : x = y := by
  rcases x with e | u <;> rcases y with e' | w
  · exact congrArg Except.error h
  · exact h.elim
  · exact h.elim
  · obtain ⟨id, symbol, name, dimension, datatype, conversion, dependent⟩ := u
    obtain ⟨r, s, hr, hs, hscale⟩ := h.conversion
    obtain rfl := hscale hscales
    obtain rfl : _ = w.id := h.id
    obtain rfl : _ = w.symbol := h.symbol
    obtain rfl : _ = w.name := h.name hnames
    obtain rfl : _ = w.dimension := h.dimension
    obtain rfl : _ = w.datatype := h.datatype
    obtain rfl : _ = w.dependent := h.dependent
    obtain rfl : _ = w.conversion := hr.trans hs.symm
    rfl

/-- Where the last operand can always be composed afterwards, operands can be composed pair by pair. -/
theorem eq_foldlM_of_regroups {compose : List (UnitOfMeasure F) → Except CompositionError (UnitOfMeasure F)}
    (hregroup : ∀ us u, 2 ≤ us.length → UnitOfMeasure.SameNameKeys (us ++ [u]) →
      compose (us ++ [u]) = (compose us).bind fun p => compose [p, u])
    {u v : UnitOfMeasure F} {us : List (UnitOfMeasure F)} (h : UnitOfMeasure.SameNameKeys (u :: v :: us)) :
    compose (u :: v :: us) = (compose [u, v]).bind fun p => us.foldlM (fun p w => compose [p, w]) p := by
  -- The operands are taken from the end: the last one is composed with the unit that the induction hypothesis is about.
  induction us using List.reverseRecOn with
  | nil => cases compose [u, v] <;> rfl
  | append_singleton us w ih =>
    have hbefore : UnitOfMeasure.SameNameKeys (u :: v :: us) :=
      fun x hx y hy => h x (List.mem_append_left [w] hx) y (List.mem_append_left [w] hy)
    have hlast := hregroup (u :: v :: us) w (by simp) h
    rw [List.cons_append, List.cons_append, ih hbefore] at hlast
    rw [hlast]
    cases compose [u, v] with
    | error e => rfl
    | ok p =>
      simp only [Except.bind, List.foldlM_append, List.foldlM_cons, List.foldlM_nil, bind_pure]
      rfl

/-! ## Scales -/

variable [Numeric F]

/-- The scale of one more unit is combined with that of the units before. -/
theorem foldScales_append_singleton (c : Catalog F) (combine : Ratio F → Ratio F → Ratio F) (r : Ratio F)
    (us : List (UnitOfMeasure F)) (u : UnitOfMeasure F) : foldScales c combine r (us ++ [u]) =
      (foldScales c combine r us).bind fun s => (scaleOf c u).map (combine s) := by
  induction us generalizing r with
  | nil =>
    rw [List.nil_append, foldScales, foldScales]
    cases scaleOf c u <;> rfl
  | cons v us ih =>
    rw [List.cons_append, foldScales, foldScales]
    cases scaleOf c v with
    | error e => rfl
    | ok s => exact ih (combine r s)

/-- Units whose scales are combined compose. -/
theorem check_of_foldScales {c : Catalog F} {combine : Ratio F → Ratio F → Ratio F} {r s : Ratio F} {us : List (UnitOfMeasure F)}
    (h : foldScales c combine r us = .ok s) : ∀ u ∈ us, check c u = .ok () := by
  induction us generalizing r with
  | nil => exact fun _ hu => absurd hu List.not_mem_nil
  | cons v us ih =>
    rw [foldScales] at h
    cases hscale : scaleOf c v with
    | error e =>
      rw [hscale] at h
      cases h
    | ok t =>
      rw [hscale] at h
      intro u hu
      rcases List.mem_cons.1 hu with rfl | hu
      · exact check_of_scaleOf hscale
      · exact ih h u hu

/-- The scale of a product starts from that of a base unit. -/
theorem productScale_one (h : ∀ x : F, 1 * x = x) (r : Ratio F) : productScale .one r = r := by
  unfold productScale Ratio.one
  rw [h, h]

/-! ## Products and quotients -/

/-- The last factor can be multiplied afterwards. -/
theorem sameOutcome_multiply (c : Catalog F) {us : List (UnitOfMeasure F)} (hus : us ≠ []) (u : UnitOfMeasure F) :
    SameOutcome (∀ x : F, 1 * x = x) (UnitOfMeasure.SameNameKeys (us ++ [u])) (multiply c (us ++ [u]))
      ((multiply c us).bind fun p => multiply c [p, u]) := by
  rw [multiply_eq c (by simp), multiply_eq c hus, foldScales_append_singleton]
  cases hfold : foldScales c productScale .one us with
  | error e => exact rfl
  | ok r =>
    have hcomposable : (us.map (·.dimension)).prod ∈ c.composable := prod_mem_composable (check_of_foldScales hfold)
    simp only [Except.map, Except.bind]
    -- Of the product of the others, only its scale and what it was made of matter from here on.
    generalize hp : scaledUnit _ r _ _ = p
    have hscale : scaleOf c p = .ok r := hp ▸ scaleOf_scaledUnit hcomposable ..
    rw [multiply_eq c (by simp)]
    simp only [foldScales, hscale]
    cases scaleOf c u with
    | error e => exact rfl
    | ok s =>
      have hdimension : ((us ++ [u]).map (·.dimension)).prod = ([p, u].map (·.dimension)).prod := by
        rw [← hp, List.map_append, List.prod_append, List.map_cons, List.prod_cons]
        rfl
      have hsymbol := joinedSymbol_append_singleton c c.joiners.product hus (p := p) (by rw [← hp]; rfl) u
      have hname := productName_append_singleton c.joiners.product hus (p := p) (u := u) (by rw [← hp]; rfl)
      refine sameUnit_scaledUnit hdimension (fun hone => ?_) hsymbol hname
      rw [productScale_one hone]

/-- The last divisor can be divided by afterwards, if it is not the only one. -/
theorem sameOutcome_divide (c : Catalog F) {us : List (UnitOfMeasure F)} (hus : 2 ≤ us.length) (u : UnitOfMeasure F) :
    SameOutcome True (UnitOfMeasure.SameNameKeys (us ++ [u])) (divide c (us ++ [u]))
      ((divide c us).bind fun p => divide c [p, u]) := by
  cases us with
  | nil => nomatch hus
  | cons v us =>
    rw [List.cons_append, divide_eq, divide_eq]
    cases hfirst : scaleOf c v with
    | error e => exact rfl
    | ok t =>
      simp only [Except.bind]
      rw [foldScales_append_singleton]
      cases hfold : foldScales c quotientScale t us with
      | error e => exact rfl
      | ok r =>
        have hcomposable : v.dimension / (us.map (·.dimension)).prod ∈ c.composable :=
          Subgroup.div_mem _ (composable_of_check (check_of_scaleOf hfirst)) (prod_mem_composable (check_of_foldScales hfold))
        simp only [Except.map, Except.bind]
        generalize hp : scaledUnit _ r _ _ = p
        have hscale : scaleOf c p = .ok r := hp ▸ scaleOf_scaledUnit hcomposable ..
        rw [divide_eq]
        simp only [foldScales, hscale, Except.bind]
        cases scaleOf c u with
        | error e => exact rfl
        | ok s =>
          have hdimension : v.dimension / ((us ++ [u]).map (·.dimension)).prod = p.dimension / ([u].map (·.dimension)).prod := by
            rw [← hp, List.map_append, List.prod_append]
            exact (div_div ..).symm
          have hsymbol := joinedSymbol_append_singleton c c.joiners.quotient (List.cons_ne_nil v us) (p := p) (by rw [← hp]; rfl) u
          have hname := quotientName_append_singleton c.joiners.quotient hus (p := p) (u := u) (by rw [← hp]; rfl)
          exact sameUnit_scaledUnit hdimension (fun _ => rfl) hsymbol hname

/-- Factors with names in the same languages and forms can be multiplied pair by pair. -/
theorem multiply_eq_foldlM (hone : ∀ x : F, 1 * x = x) (c : Catalog F) {u v : UnitOfMeasure F} {us : List (UnitOfMeasure F)}
    (h : UnitOfMeasure.SameNameKeys (u :: v :: us)) :
    multiply c (u :: v :: us) = (multiply c [u, v]).bind fun p => us.foldlM (fun p w => multiply c [p, w]) p := by
  refine eq_foldlM_of_regroups (fun us w hus hkeys => ?_) h
  have hne : us ≠ [] := List.ne_nil_of_length_pos (by omega)
  exact (sameOutcome_multiply c hne w).eq hone hkeys

/-- Divisors with names in the same languages and forms can be divided by one by one. -/
theorem divide_eq_foldlM (c : Catalog F) {u v : UnitOfMeasure F} {us : List (UnitOfMeasure F)}
    (h : UnitOfMeasure.SameNameKeys (u :: v :: us)) :
    divide c (u :: v :: us) = (divide c [u, v]).bind fun p => us.foldlM (fun p w => divide c [p, w]) p :=
  eq_foldlM_of_regroups (fun _ w hus hkeys => (sameOutcome_divide c hus w).eq trivial hkeys) h

/-- The last operand of a product or of a quotient of three or more units can be composed afterwards: with the same error, or to the same
unit. Its scale is the same if `1 * x` is `x`, and its name if the names of the operands have texts in the same languages and forms. -/
theorem regroup_last (c : Catalog F) {us : List (UnitOfMeasure F)} (hus : 2 ≤ us.length) (u : UnitOfMeasure F) :
    SameOutcome (∀ x : F, 1 * x = x) (UnitOfMeasure.SameNameKeys (us ++ [u])) (multiply c (us ++ [u]))
        ((multiply c us).bind fun p => multiply c [p, u]) ∧
      SameOutcome True (UnitOfMeasure.SameNameKeys (us ++ [u])) (divide c (us ++ [u]))
        ((divide c us).bind fun p => divide c [p, u]) := by
  have hne : us ≠ [] := by
    rintro rfl
    nomatch hus
  exact ⟨sameOutcome_multiply c hne u, sameOutcome_divide c hus u⟩

/-- A catalog with marks and words for products and quotients. -/
def joining : Catalog ℚ :=
  Catalog.empty.withJoiners ⟨⟨.plain "·", .plain " ", .empty⟩, ⟨.plain "/", .plain " per ", .empty⟩, .empty⟩

/-- The base unit of a dimension with a symbol and a name. -/
def baseUnit (dimension symbol one other : String) : UnitOfMeasure ℚ :=
  { UnitOfMeasure.base (.single dimension) with symbol := some (.single symbol), name := some (.english one other) }

/-- The kilogram. -/
def kilogram : UnitOfMeasure ℚ := baseUnit "mass" "kg" "kilogram" "kilograms"

/-- The meter. -/
def meter : UnitOfMeasure ℚ := baseUnit "length" "m" "meter" "meters"

/-- The second. -/
def second : UnitOfMeasure ℚ := baseUnit "time" "s" "second" "seconds"

/-- Kilogram meters are multiplied by seconds, and kilograms per meter divided by them. -/
theorem regroup_second :
    ((multiply joining [kilogram, meter, second]).toBool = true ∧ (divide joining [kilogram, meter, second]).toBool = true) ∧
      multiply joining [kilogram, meter, second] = ((multiply joining [kilogram, meter]).bind fun p => multiply joining [p, second]) ∧
      divide joining [kilogram, meter, second] = (divide joining [kilogram, meter]).bind fun p => divide joining [p, second] := by
  obtain ⟨hproduct, hquotient⟩ := regroup_last joining (show 2 ≤ [kilogram, meter].length from Nat.le_refl 2) second
  have hkeys : ∀ u ∈ [kilogram, meter] ++ [second], ∀ name ∈ u.name, name.keys = [("en", .one), ("en", .other)] := by
    intro u hu name hname
    simp only [List.cons_append, List.nil_append, List.mem_cons, List.not_mem_nil, or_false] at hu
    rcases hu with rfl | rfl | rfl <;> exact Option.some.inj hname ▸ rfl
  have hsame : UnitOfMeasure.SameNameKeys ([kilogram, meter] ++ [second]) := by
    intro u hu w hw name hname name' hname' key
    rw [hkeys u hu name hname, hkeys w hw name' hname']
  exact ⟨by decide +kernel, hproduct.eq one_mul hsame, hquotient.eq trivial hsame⟩

end Composition

end QuantityCalculus
