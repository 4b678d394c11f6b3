import QuantityCalculus.Proofs.LanguageString.Join
import QuantityCalculus.Proofs.LanguageString.Template

/-!
# Joined strings, text by text

In each language and form that one of the parts has, a joined string holds one text: the texts of the parts with the joiner between them, or
what an order template makes of them one after another (`join_interleaves`). The text of each part, and of the joiner, is the first one
among the fallbacks (`LanguageString.said`), and it stays as it is through all further steps, braces included.
-/

namespace QuantityCalculus.LanguageString

/-! ## What a string says -/

/-- Where a text is looked for, in this order: the language in the form and in the form `other`, and then the default language in both. -/
def fallbacks (lang : String) (plural : Plural) : List (String × Plural) :=
  [(lang, plural), (lang, .other), (defaultLanguage, plural), (defaultLanguage, .other)]

/-- The first text among the fallbacks, if there is one. -/
def firstText? (ls : LanguageString) (lang : String) (plural : Plural) : Option String :=
  (fallbacks lang plural).findSome? fun key => ls.textFor? key.1 key.2

/-- What a string says in a language and a form: the first text among the fallbacks, and nothing if there is none. -/
def said (lang : String) (plural : Plural) (ls : LanguageString) : String := (ls.firstText? lang plural).getD ""

/-- A lookup goes through the fallbacks. -/
theorem lookup?_eq_firstText? (ls : LanguageString) (lang : String) (plural : Plural) : ls.lookup? lang plural = ls.firstText? lang plural := by
  unfold lookup? lookupIn? firstText? fallbacks
  simp only [List.findSome?_cons, List.findSome?_nil]
  cases ls.textFor? lang plural <;> cases ls.textFor? lang .other <;> cases ls.textFor? defaultLanguage plural <;>
    cases ls.textFor? defaultLanguage .other <;> rfl

/-- A text that is found is an entry. -/
theorem mem_entries_of_textFor? {ls : LanguageString} {lang : String} {plural : Plural} {text : String}
    (h : ls.textFor? lang plural = some text) : (lang, plural, text) ∈ ls.entries := by
  have hmem {α : Type} {key : String} {x : α} {entries : List (String × α)} (h : SortedList.get? key entries = some x) :
      (key, x) ∈ entries := by
    obtain ⟨before, after, rfl, -⟩ := List.lookup_eq_some_iff.1 h
    simp
  obtain ⟨forms, hforms, htext⟩ := Option.bind_eq_some_iff.1 h
  exact mem_entries.2 ⟨forms, hmem hforms, hmem htext⟩

/-- A string without entries has no text anywhere. -/
theorem firstText?_of_entries_eq_nil {ls : LanguageString} (h : ls.entries = []) (lang : String) (plural : Plural) :
    ls.firstText? lang plural = none := by
  refine List.findSome?_eq_none_iff.2 fun key _ => Option.eq_none_iff_forall_not_mem.2 fun text htext => ?_
  have hentry := mem_entries_of_textFor? htext
  rw [h] at hentry
  nomatch hentry

/-! ## Strings with one text under each key -/

/-- The forms of each language are in increasing order. -/
def FormsOrdered (ls : LanguageString) : Prop :=
  ∀ language ∈ ls.texts, SortedList.Increasing SortedList.textLT language.2

/-- The string without any text has no forms. -/
theorem formsOrdered_empty : empty.FormsOrdered := nofun

/-- The forms stay in order with one more text. -/
theorem FormsOrdered.insert {ls : LanguageString} (h : ls.FormsOrdered) (lang : String) (plural : Plural) (text : String) :
    (ls.insert lang plural text).FormsOrdered := by
  refine SortedList.forall_mem_insertWith (List.pairwise_singleton _ _) (fun forms hforms => ?_) h
  refine SortedList.Increasing.insertWith ?_ hforms _ _ _
  exact SortedList.textLT_trans

/-- In an ordered string, an entry is the text that is found under its key. -/
theorem Ordered.mem_entries_iff_textFor? {ls : LanguageString} (h : ls.Ordered) (hforms : ls.FormsOrdered) {lang : String}
    {plural : Plural} {text : String} : (lang, plural, text) ∈ ls.entries ↔ ls.textFor? lang plural = some text := by
  refine ⟨fun hentry => ?_, mem_entries_of_textFor?⟩
  obtain ⟨forms, htexts, htext⟩ := mem_entries.1 hentry
  refine Option.bind_eq_some_iff.2 ⟨forms, ?_, ?_⟩
  · exact (SortedList.get?_eq_some_iff_mem SortedList.textLT_irrefl h).2 htexts
  · exact (SortedList.get?_eq_some_iff_mem SortedList.textLT_irrefl (hforms _ htexts)).2 htext

variable {joiner order : LanguageString} {parts : List LanguageString}

/-- An entry of a joined string is the folded text of one of its keys. -/
theorem mem_entries_join {lang : String} {plural : Plural} {text : String} :
    (lang, plural, text) ∈ (join joiner order parts).entries ↔
      (lang, plural) ∈ keysOf parts ∧ joinedText? joiner order parts (lang, plural) = some text := by
  have hforms : (join joiner order parts).FormsOrdered := by
    rw [join_eq]
    refine insertAll_induction (fun ls lang plural text h => ?_) formsOrdered_empty _ _
    exact h.insert lang plural text
  rw [(ordered_join joiner order parts).mem_entries_iff_textFor? hforms, textFor?_join parts (lang, plural)]
  simp

/-- A joined string has an entry where one of the parts has one. -/
theorem exists_mem_entries_join (lang : String) (plural : Plural) : (∃ text, (lang, plural, text) ∈ (join joiner order parts).entries) ↔
    ∃ part ∈ parts, ∃ text, (lang, plural, text) ∈ part.entries := by
  have hkeys : (lang, plural) ∈ (join joiner order parts).keys ↔ ∃ part ∈ parts, (lang, plural) ∈ part.keys :=
    mem_keys_join.trans mem_keysOf_iff
  simpa only [mem_keys] using hkeys

/-! ## Folded texts -/

/-- The default order puts the joiner between the text so far and the next one, whatever these are. -/
theorem fillText_defaultOrder (joined joiner next : String) :
    Template.fillText [joined, joiner, next] defaultOrder = joined ++ joiner ++ next := by
  have hdigit {d : Char} (h : Text.isDecimalDigit d = true) : Template.IsNumber [d] := ⟨List.cons_ne_nil _ _, by simpa using h⟩
  have hpieces : Template.Pieces defaultOrder.toList [.placeholder ['0'], .placeholder ['1'], .placeholder ['2']] :=
    .placeholder (hdigit (by decide +kernel)) <| .placeholder (hdigit (by decide +kernel)) <| .placeholder (hdigit (by decide +kernel)) .nil
  have hfilled : [Template.Piece.placeholder ['0'], .placeholder ['1'], .placeholder ['2']].flatMap (·.filled [joined, joiner, next]) =
      joined.toList ++ (joiner.toList ++ (next.toList ++ [])) := rfl
  rw [hpieces.fillText_eq, hfilled, List.append_nil, ← List.append_assoc, String.ofList_append, String.ofList_append]
  simp only [String.ofList_toList]

/-- In the default order, texts are folded to the texts with the joiner between them. -/
theorem foldl_defaultOrder (joiner first : String) (texts : List String) :
    texts.foldl (fun joined next => Template.fillText [joined, joiner, next] defaultOrder) first = joiner.intercalate (first :: texts) := by
  induction texts generalizing first with
  | nil => exact String.intercalate_singleton.symm
  | cons next texts ih => rw [List.foldl_cons, ih, fillText_defaultOrder, String.intercalate_cons_append, String.intercalate_cons_cons]

/-- The texts that are folded together are what the parts say. -/
theorem joinedText?_cons (joiner order first : LanguageString) (rest : List LanguageString) (lang : String) (plural : Plural) :
    joinedText? joiner order (first :: rest) (lang, plural) =
      some ((rest.map (said lang plural)).foldl
        (fun joined next => Template.fillText [joined, joiner.said lang plural, next] ((order.firstText? lang plural).getD defaultOrder))
        (first.said lang plural)) := by
  unfold joinedText? said
  simp only [lookup?_eq_firstText?, List.map_cons]
  rfl

/-- A joined string has an entry exactly in the languages and forms that one of the parts has an entry in. If the order has no entries, the
entry is what the parts say with what the joiner says between them. With any order, it is what they say put together one after another by the
pieces of the order's text, where the text so far, the joiner and the next part stand for the placeholders and are not read as pieces. -/
theorem join_interleaves (joiner order first : LanguageString) (rest : List LanguageString) (lang : String) (plural : Plural) :
    ((∃ text, (lang, plural, text) ∈ (join joiner order (first :: rest)).entries) ↔
      ∃ part ∈ first :: rest, ∃ text, (lang, plural, text) ∈ part.entries) ∧
    ∀ text, (lang, plural, text) ∈ (join joiner order (first :: rest)).entries →
      (order.entries = [] → text = (joiner.said lang plural).intercalate ((first :: rest).map (said lang plural))) ∧
      ∃ pieces, Template.Pieces ((order.firstText? lang plural).getD defaultOrder).toList pieces ∧
        text = rest.foldl (fun joined part => String.ofList (pieces.flatMap (·.filled [joined, joiner.said lang plural, part.said lang plural])))
          (first.said lang plural) := by
  refine ⟨exists_mem_entries_join lang plural, fun text hentry => ?_⟩
  -- There is one text under each key, so that the entry is the folded text.
  have htext := (mem_entries_join.1 hentry).2
  rw [joinedText?_cons] at htext
  obtain rfl := Option.some.inj htext
  refine ⟨fun horder => ?_, ?_⟩
  · rw [firstText?_of_entries_eq_nil horder, Option.getD_none, foldl_defaultOrder, List.map_cons]
  · obtain ⟨pieces, hpieces⟩ := Template.exists_pieces ((order.firstText? lang plural).getD defaultOrder).toList
    refine ⟨pieces, hpieces, ?_⟩
    rw [List.foldl_map]
    simp only [hpieces.fillText_eq]

/-- Parts with braces of their own stay as they are, in the default order and in another one. -/
theorem join_of_braces :
    (("en", Plural.other, "\x7b1\x7d·\x7b0\x7d·\x7b2\x7d") ∈
        (join (plain "·") empty [plain "\x7b1\x7d", plain "\x7b0\x7d", plain "\x7b2\x7d"]).entries ∧
      "\x7b1\x7d·\x7b0\x7d·\x7b2\x7d" = "·".intercalate ["\x7b1\x7d", "\x7b0\x7d", "\x7b2\x7d"]) ∧
    ("en", Plural.other, "\x7b0\x7d·\x7b1\x7d") ∈
        (join (plain "·") (plain "\x7b2\x7d\x7b1\x7d\x7b0\x7d") [plain "\x7b1\x7d", plain "\x7b0\x7d"]).entries ∧
      ∃ pieces, Template.Pieces "\x7b2\x7d\x7b1\x7d\x7b0\x7d".toList pieces ∧
        "\x7b0\x7d·\x7b1\x7d" = String.ofList (pieces.flatMap (·.filled ["\x7b1\x7d", "·", "\x7b0\x7d"])) := by
  have hdefault : ("en", Plural.other, "\x7b1\x7d·\x7b0\x7d·\x7b2\x7d") ∈
      (join (plain "·") empty [plain "\x7b1\x7d", plain "\x7b0\x7d", plain "\x7b2\x7d"]).entries := by decide +kernel
  have hreverse : ("en", Plural.other, "\x7b0\x7d·\x7b1\x7d") ∈
      (join (plain "·") (plain "\x7b2\x7d\x7b1\x7d\x7b0\x7d") [plain "\x7b1\x7d", plain "\x7b0\x7d"]).entries := by decide +kernel
  exact ⟨⟨hdefault, ((join_interleaves _ _ _ _ _ _).2 _ hdefault).1 rfl⟩, hreverse, ((join_interleaves _ _ _ _ _ _).2 _ hreverse).2⟩

end QuantityCalculus.LanguageString
