import Mathlib.Data.List.Basic
import QuantityCalculus.LanguageString.Template

/-!
# Joining language strings in steps

A joined string has a text exactly in the languages and forms that one of its parts has (`mem_keys_join`), and there it is the fold of
what the parts say, fallbacks included (`lookup?_join`). So one more part can be joined afterwards, as long as it brings no language or
form of its own (`join_append_singleton`): for a new one the parts would be looked up one by one, while what was joined before falls back
as a whole. Singular strings have both forms of every language (`mem_keys_singular`), whatever they were made of.
-/

namespace QuantityCalculus

/-- A plural form is found by its key. -/
theorem Plural.ofKey?_eq_some {key : String} {plural : Plural} : Plural.ofKey? key = some plural ↔ key = plural.key := by
  unfold Plural.ofKey? Plural.key
  constructor
  · intro h
    split at h
    · obtain rfl := Option.some.inj h
      rfl
    · obtain rfl := Option.some.inj h
      rfl
    · nomatch h
  · rintro rfl
    cases plural <;> rfl

/-- Different plural forms have different keys. -/
theorem Plural.key_injective {p q : Plural} (h : p.key = q.key) : p = q :=
  Option.some.inj ((Plural.ofKey?_eq_some.2 rfl).symm.trans (Plural.ofKey?_eq_some.2 h))

namespace LanguageString

/-! ## The order of languages and forms -/

/-- Keys are ordered by language first, and then the singular is before the plural. -/
theorem keyLT_iff {a b : String × Plural} : keyLT a b = true ↔ a.1 < b.1 ∨ a.1 = b.1 ∧ a.2 = .one ∧ b.2 = .other := by
  unfold keyLT
  simp only [Bool.or_eq_true, Bool.and_eq_true, decide_eq_true_eq, beq_iff_eq, and_assoc]

/-- The order of keys is transitive. -/
theorem keyLT_trans {a b c : String × Plural} (hab : keyLT a b = true) (hbc : keyLT b c = true) : keyLT a c = true := by
  rw [keyLT_iff] at *
  rcases hab with hab | ⟨hab, hone, hother⟩
  · rcases hbc with hbc | ⟨hbc, -, -⟩
    · exact .inl (String.lt_trans hab hbc)
    · exact .inl (hbc ▸ hab)
  · rcases hbc with hbc | ⟨-, hone', -⟩
    · exact .inl (hab ▸ hbc)
    · nomatch hother.symm.trans hone'

/-- Of two keys, one is before the other at most. -/
theorem keyLT_asymm {a b : String × Plural} (h : keyLT a b = true) : ¬keyLT b a = true := by
  rw [keyLT_iff] at *
  rintro (h' | ⟨heq, hone, -⟩)
  · rcases h with h | ⟨heq, -, -⟩
    · exact String.lt_asymm h h'
    · exact String.lt_irrefl _ (heq ▸ h')
  · rcases h with h | ⟨-, -, hother⟩
    · exact String.lt_irrefl _ (heq ▸ h)
    · nomatch hother.symm.trans hone

/-- Keys of which neither is before the other are equal. -/
theorem eq_of_not_keyLT {a b : String × Plural} (h : keyLT a b = false) (h' : keyLT b a = false) : a = b := by
  obtain ⟨lang, plural⟩ := a
  obtain ⟨lang', plural'⟩ := b
  rw [← Bool.not_eq_true, keyLT_iff, not_or] at h h'
  obtain rfl : lang = lang' := String.le_antisymm (String.not_lt.1 h'.1) (String.not_lt.1 h.1)
  cases plural <;> cases plural' <;> simp_all

/-! ## The entries of a string and their keys -/

/-- The entries of a string are the texts under the keys of plural forms. -/
theorem mem_entries {ls : LanguageString} {lang : String} {plural : Plural} {text : String} :
    (lang, plural, text) ∈ ls.entries ↔ ∃ forms, (lang, forms) ∈ ls.texts ∧ (plural.key, text) ∈ forms := by
  unfold entries
  simp only [List.mem_flatMap, List.mem_filterMap, Option.map_eq_some_iff, Plural.ofKey?_eq_some]
  constructor
  · rintro ⟨⟨lang, forms⟩, htexts, ⟨_, text⟩, hforms, plural, rfl, hentry⟩
    obtain ⟨rfl, rfl, rfl⟩ : lang = _ ∧ plural = _ ∧ text = _ := by simpa using hentry
    exact ⟨forms, htexts, hforms⟩
  · rintro ⟨forms, htexts, hforms⟩
    exact ⟨_, htexts, _, hforms, plural, rfl, rfl⟩

/-- The languages and forms that a string has a text for. -/
def keys (ls : LanguageString) : List (String × Plural) := ls.entries.map fun (lang, plural, _) => (lang, plural)

/-- A key of a string is one that it has an entry for. -/
theorem mem_keys {ls : LanguageString} {key : String × Plural} : key ∈ ls.keys ↔ ∃ text, (key.1, key.2, text) ∈ ls.entries := by
  unfold keys
  simp only [List.mem_map, Prod.exists]
  constructor
  · rintro ⟨lang, plural, text, hentry, rfl⟩
    exact ⟨text, hentry⟩
  · rintro ⟨text, hentry⟩
    exact ⟨_, _, text, hentry, rfl⟩

/-- A key of a string is one that some list of forms under its language has. -/
theorem mem_keys_iff {ls : LanguageString} {key : String × Plural} :
    key ∈ ls.keys ↔ ∃ forms, (key.1, forms) ∈ ls.texts ∧ (SortedList.get? key.2.key forms).isSome := by
  have hform {forms : List (String × String)} :
      (SortedList.get? key.2.key forms).isSome ↔ ∃ text, (key.2.key, text) ∈ forms := by
    simp only [SortedList.get?, List.lookup_isSome_iff, beq_iff_eq, Prod.exists]
    constructor
    · rintro ⟨_, text, htext, rfl⟩
      exact ⟨text, htext⟩
    · rintro ⟨text, htext⟩
      exact ⟨_, text, htext, rfl⟩
  simp only [mem_keys, mem_entries, hform]
  constructor
  · rintro ⟨text, forms, htexts, htext⟩
    exact ⟨forms, htexts, text, htext⟩
  · rintro ⟨forms, htexts, text, htext⟩
    exact ⟨text, forms, htexts, htext⟩

/-- The keys of several strings are inserted one after another. -/
theorem keysOf_eq (parts : List LanguageString) :
    keysOf parts = ((parts.flatMap keys).foldl (fun entries key => SortedList.insert keyLT key () entries) []).map (·.1) := by
  have hkeys : parts.flatMap keys = (parts.flatMap entries).map fun (lang, plural, _) => (lang, plural) := List.map_flatMap.symm
  rw [hkeys, List.foldl_map]
  rfl

/-- The keys of several strings are the keys of each. -/
theorem mem_keysOf_iff {parts : List LanguageString} {key : String × Plural} :
    key ∈ keysOf parts ↔ ∃ part ∈ parts, key ∈ part.keys := by
  have hfold : ∀ (keys : List (String × Plural)) (entries : List ((String × Plural) × Unit)),
      key ∈ (keys.foldl (fun entries key => SortedList.insert keyLT key () entries) entries).map (·.1) ↔
        key ∈ keys ∨ key ∈ entries.map (·.1) := by
    intro keys
    induction keys with
    | nil => simp
    | cons k keys ih =>
      intro entries
      have hinsert : key ∈ (SortedList.insert keyLT k () entries).map (·.1) ↔ key = k ∨ key ∈ entries.map (·.1) :=
        SortedList.mem_map_fst_insertWith_iff eq_of_not_keyLT
      rw [List.foldl_cons, ih, hinsert, List.mem_cons, or_left_comm, or_assoc]
  rw [keysOf_eq, hfold, List.mem_flatMap, List.map_nil]
  exact or_iff_left List.not_mem_nil

/-- The keys of several strings are in increasing order. -/
theorem pairwise_keysOf (parts : List LanguageString) : (keysOf parts).Pairwise (keyLT · · = true) := by
  have hfold : ∀ (keys : List (String × Plural)) (entries : List ((String × Plural) × Unit)), SortedList.Increasing keyLT entries →
      SortedList.Increasing keyLT (keys.foldl (fun entries key => SortedList.insert keyLT key () entries) entries) := by
    intro keys
    induction keys with
    | nil => exact fun _ h => h
    | cons k keys ih =>
      intro entries h
      refine ih _ (SortedList.Increasing.insertWith ?_ h _ _ _)
      exact keyLT_trans
  rw [keysOf_eq]
  exact List.pairwise_map.2 (hfold _ [] List.Pairwise.nil)

/-- Parts with the same keys together have the same keys in the same order. -/
theorem keysOf_congr {parts parts' : List LanguageString}
    (h : ∀ key, (∃ part ∈ parts, key ∈ part.keys) ↔ ∃ part ∈ parts', key ∈ part.keys) : keysOf parts = keysOf parts' := by
  refine SortedList.eq_of_mem_iff keyLT_asymm (pairwise_keysOf parts) (pairwise_keysOf parts') fun key => ?_
  rw [mem_keysOf_iff, mem_keysOf_iff]
  exact h key

/-! ## Ordered strings -/

/-- The languages are in increasing order. -/
def Ordered (ls : LanguageString) : Prop := SortedList.Increasing SortedList.textLT ls.texts

/-- The string without any text is ordered. -/
theorem ordered_empty : empty.Ordered := List.Pairwise.nil

/-- An ordered string stays so with one more text. -/
theorem Ordered.insert {ls : LanguageString} (h : ls.Ordered) (lang : String) (plural : Plural) (text : String) :
    (ls.insert lang plural text).Ordered := by
  refine SortedList.Increasing.insertWith ?_ h _ _ _
  exact SortedList.textLT_trans

/-- In an ordered string with one more text, only that text is another. -/
theorem textFor?_insert {ls : LanguageString} (h : ls.Ordered) (lang : String) (plural : Plural) (text : String)
    (key : String × Plural) : (ls.insert lang plural text).textFor? key.1 key.2 =
      if key = (lang, plural) then some text else ls.textFor? key.1 key.2 := by
  obtain ⟨lang', plural'⟩ := key
  unfold insert insertKey textFor?
  by_cases hlang : lang' = lang
  · subst hlang
    rw [SortedList.get?_insertWith_self SortedList.eq_of_not_textLT SortedList.textLT_irrefl
      SortedList.textLT_trans h, Option.bind_some]
    by_cases hplural : plural' = plural
    · subst hplural
      rw [if_pos rfl]
      cases SortedList.get? lang' ls.texts with
      | none => exact List.lookup_cons_self
      | some forms => exact SortedList.get?_insert_self SortedList.eq_of_not_textLT ..
    · have hkey : plural'.key ≠ plural.key := fun hkey => hplural (Plural.key_injective hkey)
      rw [if_neg (by simpa using hplural)]
      cases SortedList.get? lang' ls.texts with
      | none => simp only [SortedList.get?, Option.map_none, Option.getD_none, List.lookup_cons, beq_eq_false_iff_ne.2 hkey, List.lookup_nil,
          Option.bind_none]
      | some forms => exact SortedList.get?_insertWith_of_ne SortedList.eq_of_not_textLT hkey ..
  · rw [SortedList.get?_insertWith_of_ne SortedList.eq_of_not_textLT hlang, if_neg (by simp [hlang])]

/-- The keys of an ordered string are those that it has a text for. -/
theorem Ordered.mem_keys_iff {ls : LanguageString} (h : ls.Ordered) {key : String × Plural} :
    key ∈ ls.keys ↔ (ls.textFor? key.1 key.2).isSome := by
  have hmem {forms : List (String × String)} : SortedList.get? key.1 ls.texts = some forms ↔ (key.1, forms) ∈ ls.texts :=
    SortedList.get?_eq_some_iff_mem SortedList.textLT_irrefl h
  rw [LanguageString.mem_keys_iff]
  unfold textFor?
  simp only [Option.isSome_iff_exists, Option.bind_eq_some_iff, hmem]
  exact ⟨fun ⟨forms, htexts, text, hforms⟩ => ⟨text, forms, htexts, hforms⟩,
    fun ⟨text, forms, htexts, hforms⟩ => ⟨forms, htexts, text, hforms⟩⟩

/-- An ordered string with one more text has one more key. -/
theorem Ordered.mem_keys_insert_iff {ls : LanguageString} (h : ls.Ordered) {lang : String} {plural : Plural} {text : String}
    {key : String × Plural} : key ∈ (ls.insert lang plural text).keys ↔ key = (lang, plural) ∨ key ∈ ls.keys := by
  rw [(h.insert lang plural text).mem_keys_iff, textFor?_insert h, h.mem_keys_iff]
  by_cases hkey : key = (lang, plural)
  · simp [hkey]
  · simp [hkey]

/-- A string with further texts for keys, as far as there is one. -/
def insertAll (text? : String × Plural → Option String) (ls : LanguageString) (keys : List (String × Plural)) : LanguageString :=
  keys.foldl (fun result key =>
    match text? key with
    | none => result
    | some text => result.insert key.1 key.2 text) ls

/-- What holds of a string and is kept by each insertion holds with further texts. -/
theorem insertAll_induction {P : LanguageString → Prop} (hinsert : ∀ ls lang plural text, P ls → P (ls.insert lang plural text))
    {ls : LanguageString} (h : P ls) (text? : String × Plural → Option String) (keys : List (String × Plural)) :
    P (ls.insertAll text? keys) := by
  induction keys generalizing ls with
  | nil => exact h
  | cons key keys ih =>
    refine ih ?_
    dsimp only
    split
    · exact h
    · exact hinsert _ _ _ _ h

/-- An ordered string stays so with further texts. -/
theorem Ordered.insertAll {ls : LanguageString} (h : ls.Ordered) (text? : String × Plural → Option String)
    (keys : List (String × Plural)) : (ls.insertAll text? keys).Ordered :=
  insertAll_induction (fun _ _ _ _ h => h.insert ..) h text? keys

/-- The further texts stand under their keys, and all other texts are kept. -/
theorem textFor?_insertAll {ls : LanguageString} (h : ls.Ordered) (text? : String × Plural → Option String)
    (keys : List (String × Plural)) (key : String × Plural) : (ls.insertAll text? keys).textFor? key.1 key.2 =
      if key ∈ keys then (text? key).or (ls.textFor? key.1 key.2) else ls.textFor? key.1 key.2 := by
  induction keys generalizing ls with
  | nil => rfl
  | cons k keys ih =>
    unfold insertAll at ih ⊢
    rw [List.foldl_cons]
    cases htext : text? k with
    | none =>
      dsimp only
      rw [ih h]
      by_cases hkey : key = k
      · simp [hkey, htext]
      · simp [hkey]
    | some text =>
      dsimp only
      rw [ih (h.insert ..), textFor?_insert h]
      by_cases hkey : key = k
      · simp [hkey, htext]
      · simp [hkey]

/-! ## Joined strings -/

/-- What the parts say in one language and form, with their fallbacks, folded together. -/
def joinedText? (joiner order : LanguageString) (parts : List LanguageString) (key : String × Plural) : Option String :=
  joinTexts ((order.lookup? key.1 key.2).getD defaultOrder) ((joiner.lookup? key.1 key.2).getD "")
    (parts.map fun part => (part.lookup? key.1 key.2).getD "")

variable {joiner order : LanguageString}

/-- A joined string holds the folded texts of its parts. -/
theorem join_eq (joiner order : LanguageString) (parts : List LanguageString) :
    join joiner order parts = empty.insertAll (joinedText? joiner order parts) (keysOf parts) := rfl

/-- A joined string is ordered. -/
theorem ordered_join (joiner order : LanguageString) (parts : List LanguageString) : (join joiner order parts).Ordered :=
  ordered_empty.insertAll ..

/-- There are texts to fold if one of the parts has a text. -/
theorem exists_joinedText? (joiner order : LanguageString) {parts : List LanguageString} {key : String × Plural}
    (h : key ∈ keysOf parts) : ∃ text, joinedText? joiner order parts key = some text := by
  obtain ⟨part, hpart, -⟩ := mem_keysOf_iff.1 h
  cases parts with
  | nil => nomatch hpart
  | cons part parts => exact ⟨_, rfl⟩

/-- Without fallback, a joined string has the folded text of every key that one of its parts has. -/
theorem textFor?_join (parts : List LanguageString) (key : String × Plural) : (join joiner order parts).textFor? key.1 key.2 =
    if key ∈ keysOf parts then joinedText? joiner order parts key else none := by
  rw [join_eq, textFor?_insertAll ordered_empty]
  have hempty : empty.textFor? key.1 key.2 = none := rfl
  rw [hempty, Option.or_none]

/-- A joined string has the keys of its parts. -/
theorem mem_keys_join {parts : List LanguageString} {key : String × Plural} :
    key ∈ (join joiner order parts).keys ↔ key ∈ keysOf parts := by
  rw [(ordered_join joiner order parts).mem_keys_iff, textFor?_join]
  by_cases h : key ∈ keysOf parts
  · obtain ⟨text, htext⟩ := exists_joinedText? joiner order h
    simp [h, htext]
  · simp [h]

/-- Under a key of one of its parts, a joined string says what they say. -/
theorem lookup?_join {parts : List LanguageString} {key : String × Plural} (h : key ∈ keysOf parts) :
    (join joiner order parts).lookup? key.1 key.2 = joinedText? joiner order parts key := by
  obtain ⟨text, htext⟩ := exists_joinedText? joiner order h
  unfold lookup? lookupIn?
  rw [textFor?_join, if_pos h, htext, Option.some_or, Option.some_or]

/-! ## One more part -/

/-- One more text is folded onto those before. -/
theorem joinTexts_append_singleton (order joiner : String) {texts : List String} {text : String}
    (h : joinTexts order joiner texts = some text) (last : String) :
    joinTexts order joiner (texts ++ [last]) = joinTexts order joiner [text, last] := by
  cases texts with
  | nil => nomatch h
  | cons first texts =>
    obtain rfl := Option.some.inj h
    simp only [List.cons_append, joinTexts, List.foldl_append, List.foldl_cons, List.foldl_nil]

/-- One more part adds its keys. -/
theorem mem_keysOf_append_singleton {parts : List LanguageString} {last : LanguageString} {key : String × Plural} :
    key ∈ keysOf (parts ++ [last]) ↔ key ∈ keysOf parts ∨ key ∈ last.keys := by
  simp only [mem_keysOf_iff, List.mem_append, List.mem_singleton, or_and_right, exists_or, exists_eq_left]

/-- Under a key of the parts before, one more part is joined to what they say together. -/
theorem joinedText?_append_singleton {parts : List LanguageString} {key : String × Plural} (h : key ∈ keysOf parts)
    (last : LanguageString) :
    joinedText? joiner order (parts ++ [last]) key = joinedText? joiner order [join joiner order parts, last] key := by
  obtain ⟨text, htext⟩ := exists_joinedText? joiner order h
  have hfirst : ((join joiner order parts).lookup? key.1 key.2).getD "" = text := by
    rw [lookup?_join h, htext, Option.getD_some]
  unfold joinedText? at htext ⊢
  rw [List.map_append, List.map_singleton, joinTexts_append_singleton _ _ htext, List.map_cons, List.map_singleton, hfirst]

/-- Strings can be joined in two steps if the last one brings no key of its own. -/
theorem join_append_singleton (joiner order : LanguageString) (parts : List LanguageString) {last : LanguageString}
    (h : ∀ key ∈ last.keys, key ∈ keysOf parts) :
    join joiner order (parts ++ [last]) = join joiner order [join joiner order parts, last] := by
  have hkeys {key : String × Plural} : key ∈ keysOf (parts ++ [last]) ↔ key ∈ keysOf parts :=
    mem_keysOf_append_singleton.trans (or_iff_left_of_imp (h key))
  have hsame : keysOf [join joiner order parts, last] = keysOf (parts ++ [last]) := by
    refine keysOf_congr fun key => Iff.trans ?_ (mem_keysOf_append_singleton.symm.trans mem_keysOf_iff)
    simp only [List.mem_cons, List.not_mem_nil, or_false, exists_eq_or_imp, exists_eq_left, mem_keys_join]
  -- Both ways go through the same keys in the same order, so it is enough that they say the same under each.
  rw [join_eq, join_eq, hsame]
  refine List.foldl_ext _ _ _ fun result key hkey => ?_
  rw [joinedText?_append_singleton (hkeys.1 hkey)]

/-! ## Plain strings -/

/-- A plain string says its text in every language. -/
theorem lookup?_plain (text lang : String) : (plain text).lookup? lang .other = some text := by
  have hdefault : (plain text).lookupIn? defaultLanguage .other = some text := rfl
  unfold lookup?
  rw [hdefault]
  by_cases hlang : lang = defaultLanguage
  · rw [hlang, hdefault, Option.some_or]
  · have hnone : (plain text).textFor? lang .other = none := by
      unfold plain
      rw [textFor?_insert ordered_empty _ _ _ (lang, .other), if_neg (by simp [hlang])]
      rfl
    unfold lookupIn?
    rw [hnone, Option.none_or, Option.none_or]

/-- The texts of plain strings, folded together. -/
def joinPlain? (joiner order : LanguageString) (texts : List String) : Option String :=
  joinTexts ((order.lookup? defaultLanguage .other).getD defaultOrder) ((joiner.lookup? defaultLanguage .other).getD "") texts

/-- Plain strings are joined to a plain string. -/
theorem join_plain {texts : List String} {text : String} (h : joinPlain? joiner order texts = some text) :
    join joiner order (texts.map plain) = plain text := by
  have hkeys : keysOf (texts.map plain) = keysOf [plain text] := by
    refine keysOf_congr fun key => ?_
    cases texts with
    | nil => nomatch h
    | cons first texts =>
      simp only [List.mem_map, List.mem_singleton, exists_eq_left]
      constructor
      · rintro ⟨_, ⟨_, -, rfl⟩, hkey⟩
        exact hkey
      · intro hkey
        exact ⟨_, ⟨first, List.mem_cons_self .., rfl⟩, hkey⟩
  have hsingle : keysOf [plain text] = [(defaultLanguage, .other)] := rfl
  have htexts : (texts.map plain).map (fun part => (part.lookup? defaultLanguage .other).getD "") = texts := by
    simp [Function.comp_def, lookup?_plain]
  have hjoined : joinedText? joiner order (texts.map plain) (defaultLanguage, .other) = some text := by
    unfold joinedText?
    rw [htexts]
    exact h
  rw [join_eq, hkeys, hsingle]
  unfold insertAll
  rw [List.foldl_cons, List.foldl_nil, hjoined]
  rfl

/-! ## Singular strings -/

/-- A string with the singular of a language in both forms, if that language has a form. -/
def insertSingular (ls : LanguageString) (language : String × List (String × String)) : LanguageString :=
  match (SortedList.get? Plural.one.key language.2).or (SortedList.get? Plural.other.key language.2) with
  | none => ls
  | some text => (ls.insert language.1 .one text).insert language.1 .other text

/-- The singular of a string is made language by language. -/
theorem singular_eq (ls : LanguageString) : ls.singular = ls.texts.foldl insertSingular empty := rfl

/-- An ordered string stays so with the singular of a language. -/
theorem Ordered.insertSingular {ls : LanguageString} (h : ls.Ordered) (language : String × List (String × String)) :
    (ls.insertSingular language).Ordered := by
  unfold LanguageString.insertSingular
  split
  · exact h
  · exact (h.insert ..).insert ..

/-- The singular of a language brings both its forms if it has one. -/
theorem Ordered.mem_keys_insertSingular_iff {ls : LanguageString} (h : ls.Ordered) {lang : String} {forms : List (String × String)}
    {key : String × Plural} : key ∈ (ls.insertSingular (lang, forms)).keys ↔
      key ∈ ls.keys ∨ key.1 = lang ∧ ∃ plural : Plural, (SortedList.get? plural.key forms).isSome := by
  have hform : (∃ plural : Plural, (SortedList.get? plural.key forms).isSome) ↔
      ((SortedList.get? Plural.one.key forms).or (SortedList.get? Plural.other.key forms)).isSome := by
    rw [Option.isSome_or, Bool.or_eq_true]
    constructor
    · rintro ⟨plural, hsome⟩
      cases plural with
      | one => exact .inl hsome
      | other => exact .inr hsome
    · rintro (hsome | hsome)
      · exact ⟨.one, hsome⟩
      · exact ⟨.other, hsome⟩
  rw [hform]
  unfold LanguageString.insertSingular
  cases (SortedList.get? Plural.one.key forms).or (SortedList.get? Plural.other.key forms) with
  | none => simp
  | some text =>
    dsimp only
    rw [(h.insert ..).mem_keys_insert_iff, h.mem_keys_insert_iff]
    obtain ⟨lang', plural⟩ := key
    cases plural <;> simp [or_comm]

/-- A singular string has both forms of every language in which the string has a form. -/
theorem mem_keys_singular {ls : LanguageString} {key : String × Plural} :
    key ∈ ls.singular.keys ↔ ∃ plural, (key.1, plural) ∈ ls.keys := by
  have hfold : ∀ (texts : List (String × List (String × String))) (result : LanguageString), result.Ordered →
      (key ∈ (texts.foldl insertSingular result).keys ↔ key ∈ result.keys ∨
        ∃ forms, (key.1, forms) ∈ texts ∧ ∃ plural : Plural, (SortedList.get? plural.key forms).isSome) := by
    intro texts
    induction texts with
    | nil => simp
    | cons language texts ih =>
      obtain ⟨lang, forms⟩ := language
      intro result h
      rw [List.foldl_cons, ih _ (h.insertSingular _), h.mem_keys_insertSingular_iff, or_assoc]
      simp only [List.mem_cons, Prod.mk.injEq, or_and_right, exists_or, and_assoc, exists_and_left, exists_eq_left]
  have hempty : key ∉ empty.keys := List.not_mem_nil
  rw [singular_eq, hfold _ _ ordered_empty, or_iff_right hempty]
  simp only [mem_keys_iff]
  exact ⟨fun ⟨forms, htexts, plural, hsome⟩ => ⟨plural, forms, htexts, hsome⟩,
    fun ⟨plural, forms, htexts, hsome⟩ => ⟨forms, htexts, plural, hsome⟩⟩

end LanguageString

end QuantityCalculus
