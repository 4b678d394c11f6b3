import Mathlib.Data.List.Induction
import Mathlib.Data.List.Nodup
import QuantityCalculus.Catalog.Indexed
import QuantityCalculus.Proofs.LanguageString.Join

/-!
# A search finds exactly what the catalog holds

An index finds what was filed under a normal form, each hit once (`TermIndex.mem_lookup_insert`, `TermIndex.nodup_lookup_insert`), so the
index of a catalog finds exactly what the catalog holds under a term (`Catalog.mem_search_iff`). An index that is kept between searches is
that of the catalog after any sequence of commands (`IndexedCatalog.Consistent.run`), so it has no term of something that was replaced.
-/

namespace QuantityCalculus

/-! ## Filing -/

namespace TermIndex

/-- A hit is added to the others. -/
theorem mem_addHit {h hit : Hit} {hits : List Hit} : h ∈ addHit hit hits ↔ h = hit ∨ h ∈ hits := by
  unfold addHit
  by_cases hcontains : hits.contains hit = true
  · rw [if_pos hcontains]
    constructor
    · exact .inr
    · rintro (rfl | h)
      · exact List.contains_iff_mem.1 hcontains
      · exact h
  · rw [if_neg hcontains, List.mem_append, List.mem_singleton, or_comm]

/-- A hit is added once. -/
theorem nodup_addHit {hit : Hit} {hits : List Hit} (h : hits.Nodup) : (addHit hit hits).Nodup := by
  unfold addHit
  by_cases hcontains : hits.contains hit = true
  · rw [if_pos hcontains]
    exact h
  · rw [if_neg hcontains]
    have hnew : hit ∉ hits := fun hmem => hcontains (List.contains_iff_mem.2 hmem)
    refine List.nodup_append.2 ⟨h, List.nodup_singleton hit, ?_⟩
    rintro x hx y hy rfl
    rw [List.mem_singleton] at hy
    exact hnew (hy ▸ hx)

/-- Filing adds the hit under its normal form and leaves the others. -/
theorem lookup_file (normal n : String) (hit : Hit) (table : List (String × List Hit)) :
    ((file normal hit table).lookup n).getD [] =
      if n = normal then addHit hit ((table.lookup n).getD []) else (table.lookup n).getD [] := by
  induction table with
  | nil =>
    by_cases hn : n = normal
    · simp [file, addHit, hn]
    · simp [file, hn, List.lookup_cons, beq_eq_false_iff_ne.2 hn]
  | cons entry rest ih =>
    obtain ⟨key, hits⟩ := entry
    rw [file]
    by_cases hkey : key = normal
    · subst hkey
      by_cases hn : n = key
      · simp [hn]
      · simp [hn, List.lookup_cons, beq_eq_false_iff_ne.2 hn]
    · rw [if_neg (by simpa using hkey)]
      by_cases hn : n = key
      · subst hn
        simp [hkey]
      · simp only [List.lookup_cons, beq_eq_false_iff_ne.2 hn]
        exact ih

/-- What is found after one more insertion. -/
theorem lookup_insert (index : TermIndex) (term : String) (hit : Hit) (normal : String) :
    (index.insert term hit).lookup normal =
      if normalizeTerm term = normal ∧ normal ≠ "" then addHit hit (index.lookup normal) else index.lookup normal := by
  unfold insert lookup
  by_cases hblank : normalizeTerm term = ""
  · have hnot : ¬(normalizeTerm term = normal ∧ normal ≠ "") := by
      rintro ⟨rfl, h⟩
      exact h hblank
    rw [if_neg hnot, if_pos (by simp [hblank])]
  · rw [if_neg (by simpa using hblank), lookup_file]
    by_cases hterm : normal = normalizeTerm term
    · subst hterm
      simp [hblank]
    · have hnot : ¬(normalizeTerm term = normal ∧ normal ≠ "") := fun h => hterm h.1.symm
      rw [if_neg hterm, if_neg hnot]

/-- What is found after an insertion is what was found before, and the hit under the normal form of its term. -/
theorem mem_lookup_insert {index : TermIndex} {term normal : String} {h hit : Hit} :
    h ∈ (index.insert term hit).lookup normal ↔
      (h = hit ∧ normalizeTerm term = normal ∧ normal ≠ "") ∨ h ∈ index.lookup normal := by
  rw [lookup_insert]
  split
  · rename_i hterm
    rw [mem_addHit, and_iff_left hterm]
  · rename_i hterm
    simp [hterm]

/-- No hit is found twice after an insertion, if none was before. -/
theorem nodup_lookup_insert {index : TermIndex} {normal : String} (h : (index.lookup normal).Nodup) (term : String) (hit : Hit) :
    ((index.insert term hit).lookup normal).Nodup := by
  rw [lookup_insert]
  split
  · exact nodup_addHit h
  · exact h

/-- The index with a hit filed under several terms. -/
def insertAll (index : TermIndex) (hit : Hit) (terms : List String) : TermIndex :=
  terms.foldl (fun index term => index.insert term hit) index

/-- What is found after a hit was filed under several terms. -/
theorem mem_lookup_insertAll {index : TermIndex} {terms : List String} {normal : String} {h hit : Hit} :
    h ∈ (index.insertAll hit terms).lookup normal ↔
      (h = hit ∧ normal ≠ "" ∧ ∃ t ∈ terms, normalizeTerm t = normal) ∨ h ∈ index.lookup normal := by
  unfold insertAll
  induction terms generalizing index with
  | nil => simp
  | cons term terms ih =>
    rw [List.foldl_cons, ih, mem_lookup_insert]
    simp only [List.mem_cons, exists_eq_or_imp]
    constructor
    · rintro (⟨hhit, hblank, hterm⟩ | ⟨hhit, hterm, hblank⟩ | h)
      · exact .inl ⟨hhit, hblank, .inr hterm⟩
      · exact .inl ⟨hhit, hblank, .inl hterm⟩
      · exact .inr h
    · rintro (⟨hhit, hblank, hterm | hterm⟩ | h)
      · exact .inr (.inl ⟨hhit, hterm, hblank⟩)
      · exact .inl ⟨hhit, hblank, hterm⟩
      · exact .inr (.inr h)

/-- No hit is found twice after a hit was filed under several terms. -/
theorem nodup_lookup_insertAll {index : TermIndex} {normal : String} (h : (index.lookup normal).Nodup) (hit : Hit)
    (terms : List String) : ((index.insertAll hit terms).lookup normal).Nodup := by
  unfold insertAll
  induction terms generalizing index with
  | nil => exact h
  | cons term terms ih =>
    rw [List.foldl_cons]
    exact ih (nodup_lookup_insert h term hit)

end TermIndex

/-! ## Terms -/

/-- A text that a language string has in some language, under the key of a plural form. -/
def LanguageString.HasText (ls : LanguageString) (text : String) : Prop :=
  ∃ language forms plural, (language, forms) ∈ ls.texts ∧ (Plural.key plural, text) ∈ forms

/-- What a unit is filed under: its key, its symbol, and each of its names. -/
def UnitOfMeasure.HasTerm {F : Type} (u : UnitOfMeasure F) (key term : String) : Prop :=
  term = key ∨ u.symbolText? = some term ∨ ∃ name, u.name = some name ∧ name.HasText term

/-- What an entry is filed under: its key, its symbol, and each of its names. -/
def Entry.HasTerm (entry : Entry) (key term : String) : Prop :=
  term = key ∨ entry.symbol = some term ∨ entry.name.HasText term

/-- The texts among the entries of a language string. -/
theorem LanguageString.mem_entries_iff {ls : LanguageString} {text : String} :
    text ∈ ls.entries.map (·.2.2) ↔ ls.HasText text := by
  unfold HasText
  simp only [List.mem_map, Prod.exists, exists_eq_right, mem_entries]
  exact ⟨fun ⟨language, plural, forms, h⟩ => ⟨language, forms, plural, h⟩,
    fun ⟨language, forms, plural, h⟩ => ⟨language, plural, forms, h⟩⟩

/-! ## The order of hits -/

/-- A kind is determined by its place in the list of kinds. -/
theorem EntryKind.rank_injective {k k' : EntryKind} (h : k.rank = k'.rank) : k = k' := by
  cases k <;> cases k' <;> first | rfl | nomatch h

namespace Hit

/-- Hits are ordered by their kinds first. -/
theorem lt_iff {a b : Hit} : a.lt b = true ↔ a.kind.rank < b.kind.rank ∨ a.kind = b.kind ∧ a.key < b.key := by
  unfold lt
  simp only [Bool.or_eq_true, Bool.and_eq_true, decide_eq_true_eq, beq_iff_eq]

/-- No hit is before itself. -/
theorem lt_irrefl (a : Hit) : a.lt a = false := by
  rw [← Bool.not_eq_true, lt_iff]
  rintro (h | ⟨-, h⟩)
  · exact Nat.lt_irrefl _ h
  · exact String.lt_irrefl _ h

/-- The order of hits is transitive. -/
theorem lt_trans {a b c : Hit} (hab : a.lt b = true) (hbc : b.lt c = true) : a.lt c = true := by
  rw [lt_iff] at *
  rcases hab with hab | ⟨hkind, hab⟩
  · rcases hbc with hbc | ⟨hkind, -⟩
    · exact .inl (Nat.lt_trans hab hbc)
    · exact .inl (hkind ▸ hab)
  · rcases hbc with hbc | ⟨hkind', hbc⟩
    · exact .inl (hkind ▸ hbc)
    · exact .inr ⟨hkind.trans hkind', String.lt_trans hab hbc⟩

/-- Hits of which neither is before the other are equal. -/
theorem eq_of_not_lt {a b : Hit} (h : a.lt b = false) (h' : b.lt a = false) : a = b := by
  rw [← Bool.not_eq_true, lt_iff, not_or] at h h'
  have hrank : a.kind.rank = b.kind.rank := by omega
  have hkind : a.kind = b.kind := EntryKind.rank_injective hrank
  have hkey : a.key = b.key :=
    String.le_antisymm (String.not_lt.1 fun hlt => h'.2 ⟨hkind.symm, hlt⟩) (String.not_lt.1 fun hlt => h.2 ⟨hkind, hlt⟩)
  cases a
  cases b
  simp only at hkind hkey
  rw [hkind, hkey]

end Hit

namespace Catalog

variable {F : Type}

/-- The terms of a unit are those that it is filed under. -/
theorem mem_unitTerms_iff {key term : String} {u : UnitOfMeasure F} : term ∈ unitTerms key u ↔ u.HasTerm key term := by
  unfold unitTerms UnitOfMeasure.HasTerm
  cases hname : u.name with
  | none => simp
  | some name => simp [← LanguageString.mem_entries_iff]

/-- The terms of an entry are those that it is filed under. -/
theorem mem_entryTerms_iff {key term : String} {entry : Entry} : term ∈ entryTerms key entry ↔ entry.HasTerm key term := by
  unfold entryTerms Entry.HasTerm
  simp [← LanguageString.mem_entries_iff]

/-! ## The index of a catalog -/

/-- A catalog lists its units and entries in increasing order of their keys. -/
structure Ordered (c : Catalog F) : Prop where
  units : SortedList.Increasing SortedList.textLT c.units
  entries : SortedList.Increasing Hit.lt c.entries

/-- The catalog holds something that is filed under a term. -/
def Holds (c : Catalog F) (hit : Hit) (term : String) : Prop :=
  (hit.kind = .unit ∧ ∃ u, c.unit? hit.key = some u ∧ u.HasTerm hit.key term) ∨
    ∃ entry, c.entry? hit.kind hit.key = some entry ∧ entry.HasTerm hit.key term

/-- The index files every hit under all of its terms. -/
theorem index_eq (c : Catalog F) :
    c.index = c.terms.foldl (fun index entry => index.insertAll entry.1 entry.2) .empty := rfl

/-- What is found after everything was filed under its terms. -/
theorem mem_lookup_foldl_insertAll {filed : List (Hit × List String)} {index : TermIndex} {normal : String} {hit : Hit} :
    hit ∈ (filed.foldl (fun index entry => index.insertAll entry.1 entry.2) index).lookup normal ↔
      (normal ≠ "" ∧ ∃ terms, (hit, terms) ∈ filed ∧ ∃ t ∈ terms, normalizeTerm t = normal) ∨ hit ∈ index.lookup normal := by
  induction filed generalizing index with
  | nil => simp
  | cons entry filed ih =>
    obtain ⟨h, terms⟩ := entry
    rw [List.foldl_cons, ih, TermIndex.mem_lookup_insertAll]
    simp only [List.mem_cons, Prod.mk.injEq]
    constructor
    · rintro (⟨hblank, terms', hmem, hterm⟩ | ⟨rfl, hblank, hterm⟩ | hold)
      · exact .inl ⟨hblank, terms', .inr hmem, hterm⟩
      · exact .inl ⟨hblank, terms, .inl ⟨rfl, rfl⟩, hterm⟩
      · exact .inr hold
    · rintro (⟨hblank, terms', ⟨rfl, rfl⟩ | hmem, hterm⟩ | hold)
      · exact .inr (.inl ⟨rfl, hblank, hterm⟩)
      · exact .inl ⟨hblank, terms', hmem, hterm⟩
      · exact .inr (.inr hold)

/-- No hit is found twice after everything was filed under its terms. -/
theorem nodup_lookup_foldl_insertAll {index : TermIndex} {normal : String} (h : (index.lookup normal).Nodup)
    (filed : List (Hit × List String)) :
    ((filed.foldl (fun index entry => index.insertAll entry.1 entry.2) index).lookup normal).Nodup := by
  induction filed generalizing index with
  | nil => exact h
  | cons entry filed ih =>
    rw [List.foldl_cons]
    exact ih (TermIndex.nodup_lookup_insertAll h entry.1 entry.2)

section Ordered

variable {c : Catalog F} (hc : c.Ordered)

include hc

/-- What an ordered catalog lists is what it holds. -/
theorem exists_mem_terms_iff {hit : Hit} {term : String} : (∃ terms, (hit, terms) ∈ c.terms ∧ term ∈ terms) ↔ c.Holds hit term := by
  have hunit {key : String} {u : UnitOfMeasure F} : c.unit? key = some u ↔ (key, u) ∈ c.units :=
    SortedList.get?_eq_some_iff_mem SortedList.textLT_irrefl hc.units
  have hentry {hit : Hit} {entry : Entry} : c.entry? hit.kind hit.key = some entry ↔ (hit, entry) ∈ c.entries :=
    SortedList.get?_eq_some_iff_mem Hit.lt_irrefl hc.entries
  unfold terms Holds
  simp only [List.mem_append, List.mem_map, hunit, hentry]
  constructor
  · rintro ⟨_, ⟨⟨key, u⟩, hmem, heq⟩ | ⟨⟨h, entry⟩, hmem, heq⟩, hterm⟩
    · obtain ⟨rfl, rfl⟩ := Prod.mk.inj heq
      exact .inl ⟨rfl, u, hmem, mem_unitTerms_iff.1 hterm⟩
    · obtain ⟨rfl, rfl⟩ := Prod.mk.inj heq
      exact .inr ⟨entry, hmem, mem_entryTerms_iff.1 hterm⟩
  · rintro (⟨hkind, u, hmem, hterm⟩ | ⟨entry, hmem, hterm⟩)
    · refine ⟨unitTerms hit.key u, .inl ⟨(hit.key, u), hmem, ?_⟩, mem_unitTerms_iff.2 hterm⟩
      rw [← hkind]
    · exact ⟨entryTerms hit.key entry, .inr ⟨(hit, entry), hmem, rfl⟩, mem_entryTerms_iff.2 hterm⟩

/-- A search of an ordered catalog finds exactly what the catalog holds under the normal form of the term. -/
theorem mem_search_iff {hit : Hit} {term : String} :
    hit ∈ c.search term ↔ normalizeTerm term ≠ "" ∧ ∃ t, c.Holds hit t ∧ normalizeTerm t = normalizeTerm term := by
  have hempty : hit ∉ TermIndex.empty.lookup (normalizeTerm term) := List.not_mem_nil
  rw [search, index_eq, mem_lookup_foldl_insertAll, or_iff_left hempty]
  simp only [← exists_mem_terms_iff hc]
  constructor
  · rintro ⟨hblank, terms, hmem, t, ht, hnormal⟩
    exact ⟨hblank, t, ⟨terms, hmem, ht⟩, hnormal⟩
  · rintro ⟨hblank, t, ⟨terms, hmem, ht⟩, hnormal⟩
    exact ⟨hblank, terms, hmem, t, ht, hnormal⟩

end Ordered

/-- A search finds nothing twice. -/
theorem nodup_search (c : Catalog F) (term : String) : (c.search term).Nodup := by
  have hempty : (TermIndex.empty.lookup (normalizeTerm term)).Nodup := List.nodup_nil
  rw [search, index_eq]
  exact nodup_lookup_foldl_insertAll hempty c.terms

/-! ## Adding to a catalog -/

/-- The catalog that holds nothing is ordered. -/
theorem ordered_empty : (empty : Catalog F).Ordered :=
  ⟨List.Pairwise.nil, List.Pairwise.nil⟩

/-- Adding a unit keeps a catalog ordered. -/
theorem Ordered.addUnit {c : Catalog F} (h : c.Ordered) (key : String) (u : UnitOfMeasure F) : (c.addUnit key u).Ordered where
  units := by
    unfold Catalog.addUnit SortedList.insert
    refine SortedList.Increasing.insertWith (fun {a b c} hab hbc => ?_) h.units key _ _
    exact SortedList.textLT_trans hab hbc
  entries := h.entries

/-- Adding an entry keeps a catalog ordered. -/
theorem Ordered.addEntry {c : Catalog F} (h : c.Ordered) (kind : EntryKind) (key : String) (entry : Entry) :
    (c.addEntry kind key entry).Ordered where
  units := h.units
  entries := by
    unfold Catalog.addEntry SortedList.insert
    refine SortedList.Increasing.insertWith (fun {a b c} hab hbc => ?_) h.entries _ _ _
    exact Hit.lt_trans hab hbc

/-- The units after a unit was added. -/
theorem unit?_addUnit (c : Catalog F) (key k : String) (u : UnitOfMeasure F) :
    (c.addUnit key u).unit? k = if key = k then some { u with id := some key } else c.unit? k := by
  unfold addUnit unit?
  by_cases hk : key = k
  · subst hk
    rw [if_pos rfl]
    exact SortedList.get?_insert_self SortedList.eq_of_not_textLT key _ c.units
  · rw [if_neg hk]
    exact SortedList.get?_insertWith_of_ne SortedList.eq_of_not_textLT (Ne.symm hk) _ _ c.units

/-- The entries after an entry was added. -/
theorem entry?_addEntry (c : Catalog F) (kind kind' : EntryKind) (key k : String) (entry : Entry) :
    Catalog.entry? (c.addEntry kind key entry) kind' k = if kind = kind' ∧ key = k then some entry else c.entry? kind' k := by
  unfold addEntry entry?
  by_cases hk : kind = kind' ∧ key = k
  · obtain ⟨rfl, rfl⟩ := hk
    rw [if_pos ⟨rfl, rfl⟩]
    exact SortedList.get?_insert_self Hit.eq_of_not_lt _ entry c.entries
  · have hne : (⟨kind', k⟩ : Hit) ≠ ⟨kind, key⟩ := by
      intro heq
      obtain ⟨rfl, rfl⟩ := Hit.mk.inj heq
      exact hk ⟨rfl, rfl⟩
    rw [if_neg hk]
    exact SortedList.get?_insertWith_of_ne Hit.eq_of_not_lt hne entry _ c.entries

end Catalog

/-! ## Runs -/

namespace IndexedCatalog

variable {F : Type}

namespace Command

/-- The unit that a command adds under a key. -/
def unitFor? (key : String) : Command F → Option (UnitOfMeasure F)
  | .addUnit k u => if k = key then some { u with id := some key } else none
  | _ => none

/-- The entry that a command adds under a kind and a key. -/
def entryFor? (kind : EntryKind) (key : String) : Command F → Option Entry
  | .addEntry k' k entry => if k' = kind ∧ k = key then some entry else none
  | _ => none

end Command

/-- The unit that was added last under a key. -/
def lastUnitUnder? (history : List (Command F)) (key : String) : Option (UnitOfMeasure F) :=
  (history.filterMap (Command.unitFor? key)).getLast?

/-- The entry that was added last under a kind and a key. -/
def lastEntryUnder? (history : List (Command F)) (kind : EntryKind) (key : String) : Option Entry :=
  (history.filterMap (Command.entryFor? kind key)).getLast?

/-- The state after a history: the catalog is ordered and holds what was added last, and an index that is kept is its own. -/
structure Consistent (history : List (Command F)) (s : IndexedCatalog F) : Prop where
  ordered : s.catalog.Ordered
  unit?_eq : ∀ key, s.catalog.unit? key = lastUnitUnder? history key
  entry?_eq : ∀ kind key, s.catalog.entry? kind key = lastEntryUnder? history kind key
  kept_eq : ∀ index ∈ s.kept, index = s.catalog.index

/-- The unit that was added last after one more command. -/
theorem lastUnitUnder?_append_singleton (history : List (Command F)) (command : Command F) (key : String) :
    lastUnitUnder? (history ++ [command]) key = (command.unitFor? key).or (lastUnitUnder? history key) := by
  unfold lastUnitUnder?
  rw [List.filterMap_append]
  cases h : command.unitFor? key with
  | none => simp [h]
  | some u => simp [h]

/-- The entry that was added last after one more command. -/
theorem lastEntryUnder?_append_singleton (history : List (Command F)) (command : Command F) (kind : EntryKind) (key : String) :
    lastEntryUnder? (history ++ [command]) kind key = (command.entryFor? kind key).or (lastEntryUnder? history kind key) := by
  unfold lastEntryUnder?
  rw [List.filterMap_append]
  cases h : command.entryFor? kind key with
  | none => simp [h]
  | some entry => simp [h]

/-- One command keeps the state consistent: what adds something drops the index, and nothing else changes what there is to index. -/
theorem Consistent.step {history : List (Command F)} {s : IndexedCatalog F} (h : Consistent history s) (command : Command F) :
    Consistent (history ++ [command]) (s.step command) := by
  obtain ⟨hordered, hunit, hentry, hkept⟩ := h
  cases command with
  | addUnit key u =>
    refine ⟨hordered.addUnit key u, fun k => ?_, fun kind k => ?_, nofun⟩
    · rw [lastUnitUnder?_append_singleton, ← hunit]
      simp only [IndexedCatalog.step, Catalog.unit?_addUnit, Command.unitFor?]
      by_cases hk : key = k
      · simp [hk]
      · simp [hk]
    · rw [lastEntryUnder?_append_singleton]
      exact hentry kind k
  | addEntry kind key entry =>
    refine ⟨hordered.addEntry kind key entry, fun k => ?_, fun kind' k => ?_, nofun⟩
    · rw [lastUnitUnder?_append_singleton]
      exact hunit k
    · rw [lastEntryUnder?_append_singleton, ← hentry]
      simp only [IndexedCatalog.step, Catalog.entry?_addEntry, Command.entryFor?]
      by_cases hk : kind = kind' ∧ key = k
      · simp [hk]
      · simp [hk]
  | search term =>
    refine ⟨hordered, fun k => ?_, fun kind k => ?_, fun index hindex => ?_⟩
    · rw [lastUnitUnder?_append_singleton]
      exact hunit k
    · rw [lastEntryUnder?_append_singleton]
      exact hentry kind k
    · obtain rfl := Option.some.inj hindex
      cases hs : s.kept with
      | none => rfl
      | some index => exact hkept index hs
  | addDimension | addPrefix | addDegree | withJoiners | withLanguage =>
    refine ⟨⟨hordered.units, hordered.entries⟩, fun k => ?_, fun kind k => ?_, hkept⟩
    · rw [lastUnitUnder?_append_singleton]
      exact hunit k
    · rw [lastEntryUnder?_append_singleton]
      exact hentry kind k

/-- The state after any history is consistent with it, by induction on the history from its end. -/
theorem Consistent.run (history : List (Command F)) : Consistent history (run history) := by
  induction history using List.reverseRecOn with
  | nil => exact ⟨Catalog.ordered_empty, fun _ => rfl, fun _ _ => rfl, nofun⟩
  | append_singleton history command ih =>
    have hrun : IndexedCatalog.run (history ++ [command]) = (IndexedCatalog.run history).step command := by
      simp only [IndexedCatalog.run, List.foldl_append, List.foldl_cons, List.foldl_nil]
    rw [hrun]
    exact ih.step command

/-- In a consistent state, a search finds what it would find with an index that is made anew. -/
theorem Consistent.search_eq {history : List (Command F)} {s : IndexedCatalog F} (h : Consistent history s) (term : String) :
    (s.search term).1 = s.catalog.search term := by
  have hindex : s.kept.getD s.catalog.index = s.catalog.index := by
    cases hs : s.kept with
    | none => rfl
    | some index => exact h.kept_eq index hs
  simp only [IndexedCatalog.search, hindex]
  rfl

/-- After any commands, in whatever order things were added and searched for, a search finds each hit once, and finds exactly the hits
under which the catalog holds something with a term of the same normal form, which is not blank. What the catalog holds under a key
is what was added last under it, so that nothing is found by the terms of what was replaced. -/
theorem search_exact_at_every_moment (history : List (Command F)) (term : String) :
    ((run history).search term).1.Nodup ∧
    (∀ hit, hit ∈ ((run history).search term).1 ↔
      normalizeTerm term ≠ "" ∧ ∃ t, (run history).catalog.Holds hit t ∧ normalizeTerm t = normalizeTerm term) ∧
    (∀ key, (run history).catalog.unit? key = lastUnitUnder? history key) ∧
    (∀ kind key, Catalog.entry? (run history).catalog kind key = lastEntryUnder? history kind key) ∧
    ((run history).search term).1 = (run history).catalog.search term := by
  have h := Consistent.run history
  rw [h.search_eq]
  exact ⟨Catalog.nodup_search _ term, fun hit => Catalog.mem_search_iff h.ordered, h.unit?_eq, h.entry?_eq, rfl⟩

end IndexedCatalog

end QuantityCalculus
