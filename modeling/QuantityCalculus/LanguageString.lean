import QuantityCalculus.Numeric
import QuantityCalculus.SortedList

/-!
# Language strings

A language string is one text in several languages and plural forms. The two plural forms that are used are `one` and `other`; a
string may carry texts under further keys, which are kept and never looked up. A text that is missing is replaced by the form
`other`, and then by the default language.
-/

namespace QuantityCalculus

/-- The plural forms. -/
inductive Plural where
  | one | other
  deriving DecidableEq, Repr

/-- The key of a plural form. -/
def Plural.key : Plural → String
  | .one => "one"
  | .other => "other"

/-- The plural form of a key. -/
def Plural.ofKey? : String → Option Plural
  | "one" => some .one
  | "other" => some .other
  | _ => none

/-- The plural form in which an amount of something is spoken of. -/
def Plural.ofAmount {F : Type} [Numeric F] (amount : F) : Plural :=
  if amount == 1 then .one else .other

/-- Texts by language and then by plural form, both in increasing order. -/
structure LanguageString where
  texts : List (String × List (String × String))
  deriving DecidableEq, Repr

namespace LanguageString

/-- The language that stands in for every other. -/
def defaultLanguage : String := "en"

/-- The string without any text. -/
def empty : LanguageString := ⟨[]⟩

/-- The string with a text for a language and the key of a form. -/
def insertKey (ls : LanguageString) (lang key text : String) : LanguageString :=
  ⟨SortedList.insertWith SortedList.textLT lang [(key, text)] (SortedList.insert SortedList.textLT key text) ls.texts⟩

/-- The string with a text for a language and a form. -/
def insert (ls : LanguageString) (lang : String) (plural : Plural) (text : String) : LanguageString :=
  ls.insertKey lang plural.key text

/-- The string that knows a language, which may have no text yet. -/
def insertLanguage (ls : LanguageString) (lang : String) : LanguageString :=
  ⟨SortedList.insertWith SortedList.textLT lang [] id ls.texts⟩

/-- One text of the default language. -/
def plain (text : String) : LanguageString := empty.insert defaultLanguage .other text

/-- A singular and a plural of the default language. -/
def english (one other : String) : LanguageString :=
  (empty.insert defaultLanguage .one one).insert defaultLanguage .other other

/-- Whether there is no text at all. -/
def isEmpty (ls : LanguageString) : Bool := ls.texts.all fun (_, forms) => forms.isEmpty

/-- Every text with its language and plural form. -/
def entries (ls : LanguageString) : List (String × Plural × String) :=
  ls.texts.flatMap fun (lang, forms) =>
    forms.filterMap fun (key, text) => (Plural.ofKey? key).map fun plural => (lang, plural, text)

/-- The text of a language and a form, without fallback. -/
def textFor? (ls : LanguageString) (lang : String) (plural : Plural) : Option String :=
  (SortedList.get? lang ls.texts).bind (SortedList.get? plural.key)

/-- The text of a language, in the form asked for or the form `other`. -/
def lookupIn? (ls : LanguageString) (lang : String) (plural : Plural) : Option String :=
  (ls.textFor? lang plural).or (ls.textFor? lang .other)

/-- The text of a language and a form with its fallbacks. -/
def lookup? (ls : LanguageString) (lang : String) (plural : Plural) : Option String :=
  (ls.lookupIn? lang plural).or (ls.lookupIn? defaultLanguage plural)

/-- The string whose singular stands for both forms; a language with neither form is left out. -/
def singular (ls : LanguageString) : LanguageString :=
  ls.texts.foldl (fun result (lang, forms) =>
    match (SortedList.get? Plural.one.key forms).or (SortedList.get? Plural.other.key forms) with
    | none => result
    | some text => (result.insert lang .one text).insert lang .other text) empty

end LanguageString

end QuantityCalculus
