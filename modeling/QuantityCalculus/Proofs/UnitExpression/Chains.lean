import QuantityCalculus.Numeric.Binary64
import QuantityCalculus.Proofs.UnitExpression.Recognition

/-!
# Unit expressions are read by their grammar

Chains are read as their members are, and so are whole unit expressions, by induction on how deep parentheses are nested. The main
result is `read_recognizes_grammar`: a text is read exactly if it is a unit expression, apart from compositions that fail, and as
what its tree evaluates to.
-/

namespace QuantityCalculus.UnitExpression

variable {F : Type} [Numeric F] {c : Catalog F}

/-! ## Chains -/

section Chains

variable {k : Chain} {n p q : Nat} {member : Reader (UnitOfMeasure F)}

/-- What is read of a chain after its first member is links. -/
theorem chainRest_sound (hmember : Recognizes c n q member k.member) {fuel : Nat} {cs rest : List Char}
    {us : List (UnitOfMeasure F)} (h : chainRest k.separator member fuel cs = .ok (us, rest)) :
    ∃ w ts, cs = w ++ rest ∧ Derives c (.links k) w (.chain k ts) ∧ Tree.evaluateAll c ts = .ok us := by
  induction fuel generalizing cs us with
  | zero =>
    obtain ⟨rfl, rfl⟩ := Prod.mk.inj (Except.ok.inj h)
    exact ⟨[], [], rfl, .noLinks, rfl⟩
  | succ fuel ih =>
    rw [chainRest] at h
    split at h
    · obtain ⟨rfl, rfl⟩ := Prod.mk.inj (Except.ok.inj h)
      exact ⟨[], [], rfl, .noLinks, rfl⟩
    rename_i after hafter
    obtain ⟨s, rfl, hs⟩ := after?_eq_some hafter
    split at h
    · nomatch h
    rename_i u rest' hu
    obtain ⟨w, t, rfl, ht, heval⟩ := hmember.sound hu
    split at h
    · nomatch h
    rename_i us' rest'' hus
    obtain ⟨rfl, rfl⟩ := Prod.mk.inj (Except.ok.inj h)
    obtain ⟨v, ts, rfl, hts, hevals⟩ := ih hus
    refine ⟨s ++ k.separator :: w ++ v, t :: ts, by simp, .link hs ht hts, ?_⟩
    rw [Tree.evaluateAll, heval, hevals]
    rfl

/-- A member of a chain stops before links, and before what follows them. -/
theorem Derives.stops_links {w : List Char} {ts : List (Tree F)} (h : Derives c (.links k) w (.chain k ts))
    (hbinding : binding k.separator = some p) (hpq : p < q) {rest : List Char} (hstop : Stops p rest) :
    Stops q (w ++ rest) := by
  cases h with
  | noLinks => exact hstop.mono (Nat.le_of_lt hpq)
  | @link _ s w t v ts hs ht hts =>
    have hmark : k.separator ∈ ['(', ')', '*', '/', '^', '%', ',', '_', '.', ':'] := by cases k <;> decide
    rw [List.append_assoc, List.append_assoc, List.cons_append]
    refine stops_mark hs hmark (fun r hr => ?_) fun _ => ht.spanInteger?_eq_none (Chain.member_ne_links k) _
    rw [hbinding] at hr
    obtain rfl := Option.some.inj hr
    exact hpq

/-- Links are read as a whole, with the outcome of their members. -/
theorem chainRest_complete (hmember : Recognizes c n q member k.member) (hbinding : binding k.separator = some p)
    (hpq : p < q) {ts : List (Tree F)} {w rest : List Char} (h : Derives c (.links k) w (.chain k ts)) {fuel : Nat}
    (hn : w.length ≤ n) (hfuel : w.length ≤ fuel) (hstop : Stops p rest) :
    chainRest k.separator member fuel (w ++ rest) = (Tree.evaluateAll c ts).map (·, rest) := by
  induction ts generalizing w fuel with
  | nil =>
    cases h
    cases fuel with
    | zero => rfl
    | succ fuel =>
      rw [List.nil_append, chainRest, hstop.after?_eq_none hbinding]
      rfl
  | cons t ts ih =>
    cases h with
    | @link _ s w _ v _ hs ht hts =>
      have hblank : Text.isBlank k.separator = false := by cases k <;> exact isBlank_of_mem (by decide)
      simp only [List.length_append, List.length_cons] at hn hfuel
      obtain ⟨fuel, rfl⟩ : ∃ m, fuel = m + 1 := ⟨fuel - 1, by omega⟩
      have hread := hmember.complete ht (by omega) (hts.stops_links hbinding hpq hstop)
      have hrest := ih hts (by omega) (show v.length ≤ fuel by omega)
      have htext : s ++ k.separator :: w ++ v ++ rest = s ++ k.separator :: (w ++ (v ++ rest)) := by simp
      rw [htext, chainRest, after?_append hs hblank]
      dsimp only
      rw [hread, Tree.evaluateAll]
      cases t.evaluate c with
      | error e => rfl
      | ok u =>
        dsimp only [Except.map]
        rw [hrest]
        cases Tree.evaluateAll c ts <;> rfl

/-- Several trees evaluate one after another. -/
theorem evaluateAll_cons_eq_ok {t : Tree F} {ts : List (Tree F)} {us : List (UnitOfMeasure F)}
    (h : Tree.evaluateAll c (t :: ts) = .ok us) :
    ∃ u us', us = u :: us' ∧ t.evaluate c = .ok u ∧ Tree.evaluateAll c ts = .ok us' := by
  rw [Tree.evaluateAll] at h
  cases ht : t.evaluate c with
  | error e =>
    rw [ht] at h
    cases h
  | ok u =>
    cases hts : Tree.evaluateAll c ts with
    | error e =>
      rw [ht, hts] at h
      cases h
    | ok us' =>
      rw [ht, hts] at h
      exact ⟨u, us', (Except.ok.inj h).symm, rfl, rfl⟩

omit [Numeric F] in
/-- A chain is read as its first member and what follows it. -/
theorem chain_eq_ok {separator : Char} {cs rest : List Char} {u : UnitOfMeasure F} {us : List (UnitOfMeasure F)}
    (h : chain separator member cs = .ok ((u, us), rest)) :
    ∃ after, member cs = .ok (u, after) ∧ chainRest separator member after.length after = .ok (us, rest) := by
  unfold chain at h
  split at h
  · nomatch h
  rename_i u' after hu
  split at h
  · nomatch h
  rename_i us' rest' hus
  obtain ⟨hpair, rfl⟩ := Prod.mk.inj (Except.ok.inj h)
  obtain ⟨rfl, rfl⟩ := Prod.mk.inj hpair
  exact ⟨after, hu, hus⟩

omit [Numeric F] in
/-- A chain is read as its only member, or composed of several ones. -/
theorem composedChain_eq_ok {separator : Char} {compose : List (UnitOfMeasure F) → Except CompositionError (UnitOfMeasure F)}
    {cs rest : List Char} {u : UnitOfMeasure F} (h : composedChain c separator compose member cs = .ok (u, rest)) :
    ∃ first us after, member cs = .ok (first, after) ∧ chainRest separator member after.length after = .ok (us, rest) ∧
      (us = [] ∧ u = first ∨ us ≠ [] ∧ composed c (first :: us) (compose (first :: us)) = .ok u) := by
  unfold composedChain at h
  split at h
  · nomatch h
  · rename_i first rest' hchain
    obtain ⟨rfl, rfl⟩ := Prod.mk.inj (Except.ok.inj h)
    obtain ⟨after, hfirst, hus⟩ := chain_eq_ok hchain
    exact ⟨first, [], after, hfirst, hus, .inl ⟨rfl, rfl⟩⟩
  · rename_i first us rest' hne hchain
    obtain ⟨after, hfirst, hus⟩ := chain_eq_ok hchain
    cases hcomposed : composed c (first :: us) (compose (first :: us)) with
    | error e =>
      rw [hcomposed] at h
      nomatch h
    | ok v =>
      rw [hcomposed] at h
      obtain ⟨rfl, rfl⟩ := Prod.mk.inj (Except.ok.inj h)
      exact ⟨first, us, after, hfirst, hus, .inr ⟨hne, hcomposed⟩⟩

/-- Chains are read if their members are. -/
theorem recognizes_composedChain (hmember : Recognizes c n q member k.member) (hbinding : binding k.separator = some p)
    (hpq : p < q) : Recognizes c n p (composedChain c k.separator (k.compose c) member) (.chain k) where
  sound {cs u rest} h := by
    obtain ⟨first, us, after, hfirst, hus, hu⟩ := composedChain_eq_ok h
    obtain ⟨w, t, rfl, ht, heval⟩ := hmember.sound hfirst
    obtain ⟨v, ts, rfl, hts, hevals⟩ := chainRest_sound hmember hus
    cases ts with
    | nil =>
      obtain rfl := Except.ok.inj hevals
      rcases hu with ⟨-, rfl⟩ | ⟨hne, -⟩
      · cases hts
        exact ⟨w, t, rfl, .single ht, heval⟩
      · exact absurd rfl hne
    | cons t' ts =>
      obtain ⟨u', us', rfl, -, -⟩ := evaluateAll_cons_eq_ok hevals
      rcases hu with ⟨hnil, -⟩ | ⟨-, hcomposed⟩
      · nomatch hnil
      · refine ⟨w ++ v, .chain k (t :: t' :: ts), (List.append_assoc ..).symm, .several ht hts, ?_⟩
        rw [Tree.evaluate, Tree.evaluateAll, heval, hevals]
        exact hcomposed
  complete {w t} h hn rest hstop := by
    unfold composedChain chain
    cases h with
    | single ht =>
      have hrest := chainRest_complete hmember hbinding hpq .noLinks (Nat.zero_le n) (Nat.zero_le rest.length) hstop
      rw [List.nil_append] at hrest
      rw [hmember.complete ht hn (hstop.mono (Nat.le_of_lt hpq))]
      cases t.evaluate c with
      | error e => rfl
      | ok u =>
        dsimp only [Except.map]
        rw [hrest]
        rfl
    | @several _ w t v t' ts ht hts =>
      rw [List.length_append] at hn
      have hread := hmember.complete ht (by omega) (hts.stops_links hbinding hpq hstop)
      have hrest := chainRest_complete hmember hbinding hpq hts (by omega)
        (show v.length ≤ (v ++ rest).length by simp) hstop
      rw [List.append_assoc, hread, Tree.evaluate, Tree.evaluateAll]
      cases t.evaluate c with
      | error e => rfl
      | ok u =>
        dsimp only [Except.map]
        rw [hrest]
        cases hall : Tree.evaluateAll c (t' :: ts) with
        | error e => rfl
        | ok us =>
          obtain ⟨u', us', rfl, -, -⟩ := evaluateAll_cons_eq_ok hall
          rfl

end Chains

/-! ## Unit expressions -/

/-- Phrases with all their levels are read if what may stand in parentheses is. -/
theorem recognizes_hierarchy {n : Nat} {inner : Reader (UnitOfMeasure F)}
    (hinner : Recognizes c n 1 inner (.chain .hierarchy)) :
    Recognizes c (n + 1) 1 (hierarchy c inner) (.chain .hierarchy) := by
  have hpower := recognizes_powered (recognizes_prefixed (recognizes_atom hinner))
  have hproduct : Recognizes c (n + 1) 4 (composedChain c '*' (Composition.multiply c)
      (powered c (prefixed c (atom c inner)))) (.chain .product) :=
    @recognizes_composedChain F _ c .product (n + 1) 4 5 _ hpower rfl (by decide)
  have hquotient : Recognizes c (n + 1) 3 (composedChain c '/' (Composition.divide c) (composedChain c '*'
      (Composition.multiply c) (powered c (prefixed c (atom c inner))))) (.chain .quotient) :=
    @recognizes_composedChain F _ c .quotient (n + 1) 3 4 _ hproduct rfl (by decide)
  exact @recognizes_composedChain F _ c .hierarchy (n + 1) 1 2 _ (recognizes_fractional hquotient) rfl (by decide)

/-- Texts up to a length are read with parentheses nested at most so deep. -/
theorem recognizes_nested (c : Catalog F) (depth : Nat) : Recognizes c depth 1 (nested c depth) (.chain .hierarchy) := by
  induction depth with
  | zero =>
    constructor
    · intro cs u rest h
      nomatch h
    · intro w t h hn rest _
      obtain ⟨s, ch, v, rfl, -, -⟩ := h.exists_head nofun
      simp at hn
  | succ depth ih => exact recognizes_hierarchy ih

/-! ## Errors of trees -/

omit [Numeric F] in
/-- The error of a composition is what it fails with. -/
theorem exists_of_composed_eq_error {us : List (UnitOfMeasure F)} {outcome : Except CompositionError (UnitOfMeasure F)}
    {e : UnitExpressionError} (h : composed c us outcome = .error e) : ∃ units cause, e = .composition units cause := by
  cases outcome with
  | error cause => exact ⟨_, cause, (Except.error.inj h).symm⟩
  | ok u => nomatch h

/-- What fails in two steps fails in the first or in the second one. -/
theorem bind_eq_error {α β : Type} {r : Except UnitExpressionError α} {f : α → Except UnitExpressionError β}
    {e : UnitExpressionError} (h : r.bind f = .error e) : r = .error e ∨ ∃ x, r = .ok x ∧ f x = .error e := by
  cases r with
  | error e' => exact .inl (congrArg Except.error (Except.error.inj h))
  | ok x => exact .inr ⟨x, rfl, h⟩

mutual

/-- A tree that evaluates to no unit has a composition that fails. -/
theorem exists_of_evaluate_eq_error (t : Tree F) {e : UnitExpressionError} (h : t.evaluate c = .error e) :
    ∃ units cause, e = .composition units cause := by
  cases t with
  | unit u => nomatch h
  | prefixed operand base exponent =>
    rcases bind_eq_error h with h | ⟨u, -, h⟩
    · exact exists_of_evaluate_eq_error operand h
    · exact exists_of_composed_eq_error h
  | power operand exponent =>
    rcases bind_eq_error h with h | ⟨u, -, h⟩
    · exact exists_of_evaluate_eq_error operand h
    · exact exists_of_composed_eq_error h
  | fraction operand bounds =>
    rcases bind_eq_error h with h | ⟨u, -, h⟩
    · exact exists_of_evaluate_eq_error operand h
    · exact exists_of_composed_eq_error h
  | chain k members =>
    rcases bind_eq_error h with h | ⟨us, -, h⟩
    · exact exists_of_evaluateAll_eq_error members h
    · exact exists_of_composed_eq_error h

/-- Trees that do not all evaluate to units have a composition that fails. -/
theorem exists_of_evaluateAll_eq_error (ts : List (Tree F)) {e : UnitExpressionError}
    (h : Tree.evaluateAll c ts = .error e) : ∃ units cause, e = .composition units cause := by
  cases ts with
  | nil => nomatch h
  | cons t ts =>
    rcases bind_eq_error h with h | ⟨u, -, h⟩
    · exact exists_of_evaluate_eq_error t h
    · rcases bind_eq_error h with h | ⟨us, -, h⟩
      · exact exists_of_evaluateAll_eq_error ts h
      · nomatch h

end

/-! ## Whole texts -/

/-- A unit expression is read as what its tree evaluates to. -/
theorem read_eq_evaluate {text : String} {t : Tree F} (h : Spells c text t) : read c text = t.evaluate c := by
  obtain ⟨w, s, htext, ht, hs⟩ := h
  have hlength : w.length ≤ text.toList.length + 1 := by
    rw [htext, List.length_append]
    omega
  have hread := (recognizes_nested c (text.toList.length + 1)).complete ht hlength (hs.stops 1)
  rw [← htext] at hread
  unfold read
  dsimp only
  rw [hread]
  cases t.evaluate c with
  | error e => rfl
  | ok u =>
    show (if (Text.trimStart s).isEmpty then _ else _) = _
    rw [hs.trimStart_eq_nil]
    rfl

/-- A text that is read is a unit expression. -/
theorem exists_spells_of_read {text : String} {u : UnitOfMeasure F} (h : read c text = .ok u) : ∃ t, Spells c text t := by
  unfold read at h
  dsimp only at h
  split at h
  · nomatch h
  rename_i v rest hv
  obtain ⟨w, t, htext, ht, -⟩ := (recognizes_nested c _).sound hv
  obtain ⟨s, hrest, hs⟩ := exists_blanks rest
  split at h
  · rename_i hempty
    rw [List.isEmpty_iff.1 hempty, List.append_nil] at hrest
    rw [hrest] at htext
    exact ⟨t, w, s, htext, ht, hs⟩
  · nomatch h

/-- Unit expressions are read by their grammar. A text with a tree is read as what the tree evaluates to, a unit or the error of the
first composition that fails, and a text without one is not read. In a hierarchy, no member after a comma starts with an integer. -/
theorem read_recognizes_grammar (c : Catalog F) (text : String) :
    (∀ t, Spells c text t → read c text = t.evaluate c ∧
      ∀ e, t.evaluate c = .error e → ∃ units cause, e = .composition units cause) ∧
    ((¬∃ t, Spells c text t) → ∃ e, read c text = .error e) ∧
    (∀ w t rest, Derives c .fraction w t → Decimal.spanInteger? (Text.trimStart (w ++ rest)) = none) := by
  refine ⟨fun t h => ⟨read_eq_evaluate h, fun e he => exists_of_evaluate_eq_error t he⟩, fun h => ?_,
    fun w t rest h => h.spanInteger?_eq_none nofun rest⟩
  cases hread : read c text with
  | error e => exact ⟨e, rfl⟩
  | ok u => exact absurd (exists_spells_of_read hread) h

/-- A catalog with kilometers and hours. -/
def roads : Catalog Float :=
  { (.empty : Catalog Float) with units := [("h", .base (.single "time")), ("km", .base (.single "length"))] }

/-- A speed is read as a quotient of two units. -/
theorem read_speed :
    Spells roads "km / h " (.chain .quotient [.unit (.base (.single "length")), .unit (.base (.single "time"))]) ∧
      read roads "km / h " =
        Tree.evaluate roads (.chain .quotient [.unit (.base (.single "length")), .unit (.base (.single "time"))]) := by
  have hblank : Blanks [' '] := by
    intro ch hch
    rw [List.mem_singleton.1 hch]
    decide +kernel
  have hkm : IsName ['k', 'm'] := .mk (by decide +kernel) fun d hd => by
    rw [List.mem_singleton.1 hd]
    decide +kernel
  have hh : IsName ['h'] := .mk (by decide +kernel) nofun
  have hlength : Derives roads .atom ['k', 'm'] (.unit (.base (.single "length"))) := @Derives.named _ _ _ [] _ _ nofun hkm rfl
  have htime : Derives roads .atom [' ', 'h'] (.unit (.base (.single "time"))) := .named hblank hh rfl
  have hproduct {w t} (h : Derives roads .atom w t) : Derives roads (.chain .product) w t :=
    .single (.first (.plain h))
  have hlinks := Derives.link (k := .quotient) hblank (hproduct htime) .noLinks
  have hquotient := Derives.several (hproduct hlength) hlinks
  have hspells : Spells roads "km / h " (.chain .quotient [.unit (.base (.single "length")), .unit (.base (.single "time"))]) :=
    ⟨_, [' '], rfl, .single (.whole hquotient), hblank⟩
  exact ⟨hspells, ((read_recognizes_grammar roads "km / h ").1 _ hspells).1⟩

end QuantityCalculus.UnitExpression
