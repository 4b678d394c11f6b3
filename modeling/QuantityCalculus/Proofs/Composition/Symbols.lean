import QuantityCalculus.Proofs.Composition.Regrouping
import QuantityCalculus.Proofs.LanguageString.Interleaving

/-!
# The language of joined symbols

The symbols of a product or a quotient are folded with the mark and the order that its joiner has in the default language, whatever the
language of the catalog is (`symbol_joined_in_default_language`): they are joined as texts of the default language, so that the joiner is
not asked in any other one. With the same order in two languages, the folds agree only where the marks do, or where the marks are not used
(`Joiner.foldSymbols_eq_iff`): a longer mark makes every text of the fold longer (`Template.length_foldl_fillText_le`), and so it is seen in
the last one (`Template.mark_eq_of_foldl_eq`).
-/

namespace QuantityCalculus

open LanguageString

/-! ## Folds with different marks -/

namespace Template

/-- Texts that are folded with a mark are not longer than with one that is not shorter. -/
theorem length_foldl_fillText_le (order : String) {mark mark' : String} (hmark : mark.length ≤ mark'.length) (texts : List String)
    {first first' : String} (hfirst : first.length ≤ first'.length) :
    (texts.foldl (fun joined next => fillText [joined, mark, next] order) first).length ≤
      (texts.foldl (fun joined next => fillText [joined, mark', next] order) first').length := by
  induction texts generalizing first first' with
  | nil => exact hfirst
  | cons text texts ih => exact ih (length_fillText_le (.cons hfirst (.cons hmark (.cons (Nat.le_refl _) .nil))) order)

/-- Texts that are folded with two marks to the same text are folded with the same mark, if the order has a place for it. -/
theorem mark_eq_of_foldl_eq {order : String} (hplace : HasPlace order 1) {mark mark' first : String} {texts : List String}
    (htexts : texts ≠ []) (h : texts.foldl (fun joined next => fillText [joined, mark, next] order) first =
      texts.foldl (fun joined next => fillText [joined, mark', next] order) first) : mark = mark' := by
  wlog hmark : mark.length ≤ mark'.length generalizing mark mark'
  · exact (this h.symm (Nat.le_of_not_le hmark)).symm
  -- What was folded before the last text is not longer with the shorter mark, and so it cannot make up for it.
  rw [← List.dropLast_append_getLast htexts, List.foldl_append, List.foldl_append] at h
  have hbefore := length_foldl_fillText_le order hmark texts.dropLast (Nat.le_refl first.length)
  have harguments := eq_of_fillText_eq (.cons hbefore (.cons hmark (.cons (Nat.le_refl _) .nil))) h hplace (by simp)
  exact Option.some.inj harguments

/-- An order without a place for the mark folds texts in the same way whatever the mark is. -/
theorem foldl_fillText_congr {order : String} (hplace : ¬HasPlace order 1) (mark mark' first : String) (texts : List String) :
    texts.foldl (fun joined next => fillText [joined, mark, next] order) first =
      texts.foldl (fun joined next => fillText [joined, mark', next] order) first := by
  refine List.foldl_ext _ _ _ fun joined next _ => fillText_congr hplace fun k hk => ?_
  match k with
  | 0 => rfl
  | 1 => exact absurd rfl hk
  | k + 2 => rfl

end Template

/-! ## What a joiner makes of symbols -/

namespace Joiner

/-- The order of a language: the first text among the fallbacks, and the default order if there is none. -/
def orderIn (joiner : Joiner) (lang : String) : String := (joiner.order.firstText? lang .other).getD defaultOrder

/-- The mark of a language between symbols: the first text among the fallbacks, and nothing if there is none. -/
def markIn (joiner : Joiner) (lang : String) : String := joiner.symbol.said lang .other

/-- A symbol and further ones, each joined to those before it by the mark and the order of a language. -/
def foldSymbols (joiner : Joiner) (lang first : String) (rest : List String) : String :=
  rest.foldl (fun joined next => Template.fillText [joined, joiner.markIn lang, next] (joiner.orderIn lang)) first

/-- With the same order in two languages, symbols are folded to the same text exactly if nothing is joined, the marks are the same, or the
order has no place for them. -/
theorem foldSymbols_eq_iff (joiner : Joiner) {lang lang' : String} (horder : joiner.orderIn lang = joiner.orderIn lang')
    (first : String) (rest : List String) : joiner.foldSymbols lang first rest = joiner.foldSymbols lang' first rest ↔
      rest = [] ∨ joiner.markIn lang = joiner.markIn lang' ∨ ¬Template.HasPlace (joiner.orderIn lang) 1 := by
  unfold foldSymbols
  rw [← horder]
  constructor
  · intro h
    refine or_iff_not_imp_left.2 fun hrest => or_iff_not_imp_right.2 fun hplace => ?_
    exact Template.mark_eq_of_foldl_eq (not_not.1 hplace) hrest h
  · rintro (rfl | hmark | hplace)
    · rfl
    · rw [hmark]
    · exact Template.foldl_fillText_congr hplace ..

end Joiner

/-! ## Symbols of products and quotients -/

namespace Composition

/-- A symbol is what a joiner makes of symbols in the default language. Where a language has the same order, it is what the joiner makes of
them in that language exactly if nothing is joined, the mark is the same, or the order has no place for it. -/
structure FoldedInDefaultLanguage (joiner : Joiner) (lang first : String) (rest : List String) (symbol : Option UnitSymbol) : Prop where
  folded : symbol = some (.single (joiner.foldSymbols defaultLanguage first rest))
  elsewhere : joiner.orderIn defaultLanguage = joiner.orderIn lang →
    (symbol = some (.single (joiner.foldSymbols lang first rest)) ↔
      rest = [] ∨ joiner.markIn defaultLanguage = joiner.markIn lang ∨ ¬Template.HasPlace (joiner.orderIn defaultLanguage) 1)

variable {F : Type}

/-- Units with single symbols have these. -/
theorem mapM_singleSymbol? {us : List (UnitOfMeasure F)} {symbols : List String}
    (h : us.map (·.symbol) = symbols.map fun symbol => some (.single symbol)) : us.mapM singleSymbol? = some symbols := by
  induction us generalizing symbols with
  | nil =>
    rw [List.map_eq_nil_iff.1 h.symm]
    rfl
  | cons u us ih =>
    obtain ⟨symbol, rest, rfl, hu, hus⟩ := List.map_eq_cons_iff.1 h.symm
    have hsymbol : u.symbol = some (.single symbol) := hu.symm
    have hsingle : singleSymbol? u = some symbol := by
      unfold singleSymbol?
      rw [hsymbol]
    rw [List.mapM_cons, hsingle, ih hus.symm]
    rfl

/-- Single symbols are joined in the default language. -/
theorem joinedSymbol_of_singles (c : Catalog F) (joiner : Joiner) {us : List (UnitOfMeasure F)} {first : String} {rest : List String}
    (h : us.map (·.symbol) = (first :: rest).map fun symbol => some (.single symbol)) :
    joinedSymbol c joiner us = some (joiner.foldSymbols defaultLanguage first rest) := by
  rw [joinedSymbol_eq, mapM_singleSymbol? h, Option.bind_some]
  unfold joinPlain?
  rw [lookup?_eq_firstText?, lookup?_eq_firstText?]
  rfl

/-- The joined symbol compares with the folds of the symbols in both languages. -/
theorem foldedInDefaultLanguage_joinedSymbol (c : Catalog F) (joiner : Joiner) {us : List (UnitOfMeasure F)} {first : String}
    {rest : List String} (h : us.map (·.symbol) = (first :: rest).map fun symbol => some (.single symbol)) :
    FoldedInDefaultLanguage joiner c.language first rest ((joinedSymbol c joiner us).map .single) := by
  rw [joinedSymbol_of_singles c joiner h, Option.map_some]
  refine ⟨rfl, fun horder => ?_⟩
  rw [Option.some_inj, UnitSymbol.single.injEq]
  exact joiner.foldSymbols_eq_iff horder first rest

variable [Numeric F]

/-- Rationalizable units with single symbols have a product and a quotient, and their symbols are joined in the default language, whatever
the language of the catalog is. -/
theorem symbol_joined_in_default_language (c : Catalog F) {us : List (UnitOfMeasure F)} {first : String} {rest : List String}
    (hsymbols : us.map (·.symbol) = (first :: rest).map fun symbol => some (.single symbol)) (hus : ∀ u ∈ us, u.IsRationalizable c) :
    (∃ p, multiply c us = .ok p ∧ FoldedInDefaultLanguage c.joiners.product c.language first rest p.symbol) ∧
      ∃ q, divide c us = .ok q ∧ FoldedInDefaultLanguage c.joiners.quotient c.language first rest q.symbol := by
  have hproduct := foldedInDefaultLanguage_joinedSymbol c c.joiners.product hsymbols
  have hquotient := foldedInDefaultLanguage_joinedSymbol c c.joiners.quotient hsymbols
  cases us with
  | nil => nomatch hsymbols
  | cons u us =>
    obtain ⟨hu, hrest⟩ := List.forall_mem_cons.1 hus
    obtain ⟨r, hmultiply⟩ := exists_multiply_eq_ok (List.cons_ne_nil u us) hus
    obtain ⟨s, hdivide⟩ := exists_divide_eq_ok hu hrest
    exact ⟨⟨_, hmultiply, hproduct⟩, _, hdivide, hquotient⟩

/-- A joiner with an English and a French mark, and the same order in both languages. -/
def bilingual (english french name : String) : Joiner :=
  ⟨(plain english).insert "fr" .other french, plain name, (plain defaultOrder).insert "fr" .other defaultOrder⟩

/-- A French catalog with English and French marks. -/
def frenchJoining : Catalog ℚ :=
  (Catalog.empty.withJoiners ⟨bilingual "·" " fois " " ", bilingual "/" " par " " per ", .empty⟩).withLanguage "fr"

/-- In French as well, the meter second and the meter per second have English marks. -/
theorem symbols_of_meter_second :
    [meter, second].map (·.symbol) = ["m", "s"].map (fun symbol => some (.single symbol)) ∧
      (∀ u ∈ [meter, second], u.IsRationalizable frenchJoining) ∧
      (∃ p, multiply frenchJoining [meter, second] = .ok p ∧ p.symbol = some (.single "m·s")) ∧
      ∃ q, divide frenchJoining [meter, second] = .ok q ∧ q.symbol = some (.single "m/s") := by
  have hsymbols : [meter, second].map (·.symbol) = ["m", "s"].map fun symbol => some (.single symbol) := rfl
  have hmeter : meter.IsRationalizable frenchJoining := ⟨by decide +kernel, Ratio.one, rfl⟩
  have hsecond : second.IsRationalizable frenchJoining := ⟨by decide +kernel, Ratio.one, rfl⟩
  have hus : ∀ u ∈ [meter, second], u.IsRationalizable frenchJoining := by simp [hmeter, hsecond]
  obtain ⟨⟨p, hp, hproduct⟩, q, hq, hquotient⟩ := symbol_joined_in_default_language frenchJoining hsymbols hus
  have hdot : frenchJoining.joiners.product.foldSymbols defaultLanguage "m" ["s"] = "m·s" := by decide +kernel
  have hslash : frenchJoining.joiners.quotient.foldSymbols defaultLanguage "m" ["s"] = "m/s" := by decide +kernel
  exact ⟨hsymbols, hus, ⟨p, hp, hdot ▸ hproduct.folded⟩, q, hq, hslash ▸ hquotient.folded⟩

/-- The French marks are not in the symbols of the product and of the quotient, which the French catalog has other folds for. -/
theorem french_marks_not_used :
    ((multiply frenchJoining [meter, second]).toOption.bind (·.symbol) = some (.single "m·s") ∧
      frenchJoining.joiners.product.foldSymbols frenchJoining.language "m" ["s"] = "m fois s") ∧
    (divide frenchJoining [meter, second]).toOption.bind (·.symbol) = some (.single "m/s") ∧
      frenchJoining.joiners.quotient.foldSymbols frenchJoining.language "m" ["s"] = "m par s" := by
  decide +kernel

end Composition

end QuantityCalculus
