import QuantityCalculus.Proofs.Catalog.Search
import QuantityCalculus.Proofs.Evaluation.Assignments
import QuantityCalculus.Proofs.Numeric.Exact

/-!
# Names that stand for several things

A term that stands for several things in a catalog means the only one that a rule about the term prefers (`Evaluator.Takes`). Which rules
these are is a matter of normal forms, and how often and in which order they are listed is not seen (`DisambiguationRule.SameAbout`), so a
term means the same with every list of rules that has the same ones about it, in every spelling of it and in every context
(`Evaluator.resolve_by_rules_about_term`).
-/

namespace QuantityCalculus

namespace DisambiguationRule

/-- One of the rules is about the term and has the kind and the key of the hit, as far as it gives them. -/
def Prefer (rules : List DisambiguationRule) (term : String) (hit : Hit) : Prop :=
  ∃ rule ∈ rules, normalizeTerm rule.term = normalizeTerm term ∧ (∀ kind ∈ rule.kind, kind = hit.kind.name) ∧
    ∀ key ∈ rule.key, key = hit.key

/-- Two lists have the same rules about a term. -/
def SameAbout (term : String) (rules rules' : List DisambiguationRule) : Prop :=
  ∀ rule : DisambiguationRule, normalizeTerm rule.term = normalizeTerm term → (rule ∈ rules ↔ rule ∈ rules')

variable {rules rules' : List DisambiguationRule} {term term' : String}

/-- The hits that rules about a term prefer pass the test of any of the applicable rules. -/
theorem any_prefers_iff {hit : Hit} : ((rules.filter (·.appliesTo term)).any (·.prefers hit)) = true ↔ Prefer rules term hit := by
  unfold Prefer appliesTo prefers
  simp only [List.any_eq_true, List.mem_filter, beq_iff_eq, Bool.and_eq_true, Option.all_eq_true, Option.mem_def, and_assoc]

/-- The hit that is chosen is the only one that is preferred. -/
theorem choose?_eq_some_iff {hits : List Hit} (hnodup : hits.Nodup) {hit : Hit} : choose? rules term hits = some hit ↔
    hit ∈ hits ∧ Prefer rules term hit ∧ ∀ other ∈ hits, Prefer rules term other → other = hit := by
  have hmem {h : Hit} : h ∈ hits.filter (fun hit => (rules.filter (·.appliesTo term)).any (·.prefers hit)) ↔
      h ∈ hits ∧ Prefer rules term h := List.mem_filter.trans (and_congr_right' any_prefers_iff)
  have hpreferred := hnodup.filter (fun hit => (rules.filter (·.appliesTo term)).any (·.prefers hit))
  unfold choose?
  dsimp only
  generalize hits.filter (fun hit => (rules.filter (·.appliesTo term)).any (·.prefers hit)) = preferred at hmem hpreferred ⊢
  constructor
  · intro h
    split at h
    · obtain rfl := Option.some.inj h
      obtain ⟨hhit, hprefer⟩ := hmem.1 (List.mem_singleton_self _)
      exact ⟨hhit, hprefer, fun other hother hprefer => List.mem_singleton.1 (hmem.2 ⟨hother, hprefer⟩)⟩
    · nomatch h
  · rintro ⟨hhit, hprefer, honly⟩
    have hall : ∀ other ∈ preferred, other = hit := fun other hother => honly other (hmem.1 hother).1 (hmem.1 hother).2
    -- Equal hits are the same entry of a list without duplicates, so there is no second one.
    match preferred, hmem.2 ⟨hhit, hprefer⟩, hall, hpreferred with
    | [other], _, hall, _ => rw [hall other (List.mem_singleton_self other)]
    | first :: second :: rest, _, hall, hpreferred =>
      obtain rfl : first = hit := hall first (by simp)
      obtain rfl : second = first := hall second (by simp)
      exact absurd (List.mem_cons_self ..) (List.nodup_cons.1 hpreferred).1

/-- Rules in another order are the same rules. -/
theorem sameAbout_of_perm (h : rules.Perm rules') : SameAbout term rules rules' := fun _ _ => h.mem_iff

/-- Rules that are listed again make no difference. -/
theorem sameAbout_append_of_subset {again : List DisambiguationRule} (h : again ⊆ rules) : SameAbout term rules (rules ++ again) :=
  fun _ _ => (List.mem_append.trans (or_iff_left_of_imp (h ·))).symm

/-- Rules about other terms make no difference. -/
theorem sameAbout_append_of_ne {others : List DisambiguationRule} (h : ∀ rule ∈ others, normalizeTerm rule.term ≠ normalizeTerm term) :
    SameAbout term rules (rules ++ others) :=
  fun rule hrule => (List.mem_append.trans (or_iff_left fun hother => h rule hother hrule)).symm

/-- The same rules prefer the same hits, however the term is spelled. -/
theorem SameAbout.prefer_iff (h : SameAbout term rules rules') (hnormal : normalizeTerm term' = normalizeTerm term) {hit : Hit} :
    Prefer rules' term' hit ↔ Prefer rules term hit := by
  unfold Prefer
  rw [hnormal]
  exact exists_congr fun rule => and_congr_left fun hrule => (h rule hrule.1).symm

end DisambiguationRule

namespace Evaluator

open DisambiguationRule

variable {F : Type} {e : Evaluator F} {term term' : String}

/-- A term means a hit in the catalog: it has no other hit, or it has several of which no other one is preferred by a rule about it. -/
def Takes (e : Evaluator F) (term : String) (hit : Hit) : Prop :=
  e.catalog.search term = [hit] ∨
    1 < (e.catalog.search term).length ∧ hit ∈ e.catalog.search term ∧ Prefer e.rules term hit ∧
      ∀ other ∈ e.catalog.search term, Prefer e.rules term other → other = hit

/-- What the catalog holds under a hit, if that has a value, else that the term is unknown. -/
def valueOf (e : Evaluator F) (term : String) (hit : Hit) : Outcome (Value F) :=
  match e.catalog.valueOf? hit with
  | some a => .ok a
  | none => .error (.unknownIdentifier term)

/-- A term without any hit is unknown. -/
theorem lookUp_of_no_hit (h : e.catalog.search term = []) : e.lookUp term = .error (.unknownIdentifier term) := by
  unfold lookUp
  rw [h]

/-- A term is looked up as the hit that it means. -/
theorem lookUp_of_takes {hit : Hit} (h : e.Takes term hit) : e.lookUp term = e.valueOf term hit := by
  unfold lookUp
  rcases h with h | ⟨hseveral, h⟩
  · rw [h]
    rfl
  · have hchoose := (choose?_eq_some_iff (e.catalog.nodup_search term)).2 h
    split
    · rename_i hsearch
      simp [hsearch] at hseveral
    · rename_i hsearch
      simp [hsearch] at hseveral
    · rename_i hsearch
      rw [hchoose]
      rfl

/-- A term with several hits that means none of them is ambiguous. -/
theorem lookUp_of_not_takes (hseveral : 1 < (e.catalog.search term).length) (h : ¬∃ hit, e.Takes term hit) :
    e.lookUp term = .error (.ambiguous term (e.catalog.search term).length) := by
  have hchoose : choose? e.rules term (e.catalog.search term) = none := by
    rw [Option.eq_none_iff_forall_not_mem]
    exact fun hit hhit => h ⟨hit, .inr ⟨hseveral, (choose?_eq_some_iff (e.catalog.nodup_search term)).1 hhit⟩⟩
  unfold lookUp
  split
  · rename_i hsearch
    simp [hsearch] at hseveral
  · rename_i hsearch
    simp [hsearch] at hseveral
  · rw [hchoose]

/-- A term has a value if it means a hit that has this value. -/
theorem lookUp_eq_ok_iff {a : Value F} : e.lookUp term = .ok a ↔ ∃ hit, e.Takes term hit ∧ e.catalog.valueOf? hit = some a := by
  have hvalue {hit : Hit} : e.valueOf term hit = .ok a ↔ e.catalog.valueOf? hit = some a := by
    unfold valueOf
    cases e.catalog.valueOf? hit <;> simp
  constructor
  · intro h
    by_cases htakes : ∃ hit, e.Takes term hit
    · obtain ⟨hit, htakes⟩ := htakes
      exact ⟨hit, htakes, hvalue.1 ((lookUp_of_takes htakes).symm.trans h)⟩
    · match hsearch : e.catalog.search term with
      | [] => nomatch (lookUp_of_no_hit hsearch).symm.trans h
      | [hit] => exact absurd ⟨hit, .inl hsearch⟩ htakes
      | first :: second :: rest =>
        have hseveral : 1 < (e.catalog.search term).length := by simp [hsearch]
        nomatch (lookUp_of_not_takes hseveral htakes).symm.trans h
  · rintro ⟨hit, htakes, h⟩
    rw [lookUp_of_takes htakes, hvalue]
    exact h

/-- What a term means depends on its normal form and on the rules about it. -/
theorem takes_iff_of_sameAbout {rules' : List DisambiguationRule} (h : SameAbout term e.rules rules')
    (hnormal : normalizeTerm term' = normalizeTerm term) {hit : Hit} : Takes ⟨e.catalog, rules'⟩ term' hit ↔ e.Takes term hit := by
  have hsearch : e.catalog.search term' = e.catalog.search term := by
    unfold Catalog.search
    rw [hnormal]
  unfold Takes
  simp only [hsearch, h.prefer_iff hnormal]

/-- A name that is neither a variable nor a built-in function is looked up in the catalog. -/
theorem resolve_eq_lookUp {ctx : Context F} (hvariable : ctx.get? term = none) (hbuiltin : functionNamed? (F := F) term = none) :
    e.resolve ctx term = e.lookUp term := by
  unfold resolve
  rw [hvariable, hbuiltin]

variable [Numeric F]

/-- A name that is neither a variable nor a built-in function means what the rules about it make of its hits in the catalog. Without any
hit it is unknown; it is taken for its only hit, or for the only one among several that a rule about it prefers; and otherwise it is ambiguous
between all of its hits. Rules in another order, rules listed again and rules for other terms are the same rules about it; with the same
rules about it, in any spelling with the same normal form and in any context, it is taken for the same hit and has the same value; and so it
has after every evaluation that does not assign it, a lookup of itself being one. -/
theorem resolve_by_rules_about_term (e : Evaluator F) (ctx : Context F) {term : String} (hvariable : ctx.get? term = none)
    (hbuiltin : functionNamed? (F := F) term = none) :
    (e.catalog.search term = [] → e.resolve ctx term = .error (.unknownIdentifier term)) ∧
    (∀ hit, e.Takes term hit → e.resolve ctx term = e.valueOf term hit) ∧
    (1 < (e.catalog.search term).length → (¬∃ hit, e.Takes term hit) →
      e.resolve ctx term = .error (.ambiguous term (e.catalog.search term).length)) ∧
    (∀ rules', e.rules.Perm rules' → SameAbout term e.rules rules') ∧
    (∀ again, again ⊆ e.rules → SameAbout term e.rules (e.rules ++ again)) ∧
    (∀ others : List DisambiguationRule, (∀ rule ∈ others, normalizeTerm rule.term ≠ normalizeTerm term) →
      SameAbout term e.rules (e.rules ++ others)) ∧
    (∀ rules' (ctx' : Context F) term', SameAbout term e.rules rules' → normalizeTerm term' = normalizeTerm term →
      ctx'.get? term' = none → functionNamed? (F := F) term' = none →
      (∀ hit, Takes ⟨e.catalog, rules'⟩ term' hit ↔ e.Takes term hit) ∧
        ∀ a, resolve ⟨e.catalog, rules'⟩ ctx' term' = .ok a ↔ e.resolve ctx term = .ok a) ∧
    ∀ t : Expression F, term ∉ t.targets → e.resolve ((e.evaluate t).run ctx).2 term = e.resolve ctx term := by
  have hlookUp : e.resolve ctx term = e.lookUp term := resolve_eq_lookUp hvariable hbuiltin
  refine ⟨fun h => hlookUp.trans (lookUp_of_no_hit h), fun hit h => hlookUp.trans (lookUp_of_takes h),
    fun hseveral h => hlookUp.trans (lookUp_of_not_takes hseveral h), fun _ => sameAbout_of_perm, fun _ => sameAbout_append_of_subset,
    fun _ => sameAbout_append_of_ne, fun rules' ctx' term' hrules hnormal hvariable' hbuiltin' => ?_, fun t ht => ?_⟩
  · have htakes (hit : Hit) : Takes ⟨e.catalog, rules'⟩ term' hit ↔ e.Takes term hit := takes_iff_of_sameAbout hrules hnormal
    refine ⟨htakes, fun a => ?_⟩
    rw [hlookUp, resolve_eq_lookUp hvariable' hbuiltin', lookUp_eq_ok_iff, lookUp_eq_ok_iff]
    exact exists_congr fun hit => and_congr_left' (htakes hit)
  · -- The rules and the catalog are not part of what an evaluation can change, and of the context only what it assigns.
    have hget : ((e.evaluate t).run ctx).2.get? term = ctx.get? term := by
      unfold Context.get?
      rw [(confined_evaluate t).find?_eq ht ctx]
    unfold resolve
    rw [hget]

/-- Of a metal and a solver of that name, a rule in other letters takes the metal, also in another spelling and after a rule for another term
was added. -/
theorem mercury_by_rule :
    let mercury : Entry := ⟨.plain "Mercury", none⟩
    let c : Catalog ℚ := (Catalog.empty.addEntry .element "mercury" mercury).addEntry .solver "mercury" mercury
    let e : Evaluator ℚ := ⟨c, [⟨" MERCURY", some "element", none⟩]⟩
    let others : List DisambiguationRule := [⟨"venus", none, none⟩]
    Context.empty.get? (F := ℚ) "mercury" = none ∧ functionNamed? (F := ℚ) "mercury" = none ∧
      Context.empty.get? (F := ℚ) "Mercury " = none ∧ functionNamed? (F := ℚ) "Mercury " = none ∧
      (∀ rule ∈ others, normalizeTerm rule.term ≠ normalizeTerm "mercury") ∧ normalizeTerm "Mercury " = normalizeTerm "mercury" ∧
      e.resolve .empty "mercury" = .ok (.reference ⟨⟨.element, "mercury"⟩, "Mercury"⟩) ∧
      resolve ⟨c, e.rules ++ others⟩ .empty "Mercury " = .ok (.reference ⟨⟨.element, "mercury"⟩, "Mercury"⟩) := by
  intro mercury c e others
  have hbuiltin : functionNamed? (F := ℚ) "mercury" = none := Option.isNone_iff_eq_none.1 (by decide +kernel)
  have hbuiltin' : functionNamed? (F := ℚ) "Mercury " = none := Option.isNone_iff_eq_none.1 (by decide +kernel)
  have hothers : ∀ rule ∈ others, normalizeTerm rule.term ≠ normalizeTerm "mercury" :=
    List.forall_mem_singleton.2 (by decide +kernel)
  have hnormal : normalizeTerm "Mercury " = normalizeTerm "mercury" := by decide +kernel
  have hnormal' : normalizeTerm " MERCURY" = normalizeTerm "mercury" := by decide +kernel
  have hsearch : c.search "mercury" = [⟨.element, "mercury"⟩, ⟨.solver, "mercury"⟩] := by decide +kernel
  have htakes : e.Takes "mercury" ⟨.element, "mercury"⟩ := by
    unfold Takes
    rw [hsearch]
    refine .inr ⟨by decide, by decide, ⟨_, List.mem_singleton_self _, hnormal', by simp [EntryKind.name], nofun⟩, ?_⟩
    rintro other hother ⟨rule, hrule, -, hkind, -⟩
    obtain rfl := List.mem_singleton.1 hrule
    rcases List.mem_pair.1 hother with rfl | rfl
    · rfl
    · exact absurd (hkind "element" rfl) (by decide)
  obtain ⟨-, htake, -, -, -, hadded, hsame, -⟩ := resolve_by_rules_about_term e .empty rfl hbuiltin
  have hmetal : e.resolve .empty "mercury" = .ok (.reference ⟨⟨.element, "mercury"⟩, "Mercury"⟩) := (htake _ htakes).trans rfl
  exact ⟨rfl, hbuiltin, rfl, hbuiltin', hothers, hnormal, hmetal,
    ((hsame _ .empty _ (hadded others hothers) hnormal rfl hbuiltin').2 _).2 hmetal⟩

end Evaluator

end QuantityCalculus
