import QuantityCalculus.Disambiguation
import QuantityCalculus.Json

/-!
# Settings

The settings of a session, and how they are read from a JSON document. Settings and rules are objects, in which unknown members are
ignored, or arrays of their members in order. What has a default may be left out.
-/

namespace QuantityCalculus

/-- The settings of a session: the language of names and messages, whether errors are reported in full, and the rules for ambiguous
terms. -/
structure Settings where
  language : String
  trace : Bool
  rules : List DisambiguationRule
  deriving DecidableEq, Repr

/-- The value of a member, or a default where it is left out. -/
def Json.memberOr {α : Type} (default : α) (read : Json → Option α) : Option Json → Option α
  | none => some default
  | some j => read j

/-- A text or null. -/
def Json.nullableString? : Json → Option (Option String)
  | .null => some none
  | j => j.string?.map some

namespace DisambiguationRule

/-- The rule with the given members, of which the term is required. -/
def ofMembers? (term kind key : Option Json) : Option DisambiguationRule := do
  let term ← (← term).string?
  let kind ← Json.memberOr none Json.nullableString? kind
  let key ← Json.memberOr none Json.nullableString? key
  return ⟨term, kind, key⟩

/-- The rule that a document is. -/
def ofJson? : Json → Option DisambiguationRule
  | .array [term] => ofMembers? (some term) none none
  | .array [term, kind] => ofMembers? (some term) (some kind) none
  | .array [term, kind, key] => ofMembers? (some term) (some kind) (some key)
  | j => do
    let members ← j.members?
    ofMembers? (← Json.member? members "term") (← Json.member? members "kind") (← Json.member? members "key")

end DisambiguationRule

namespace Settings

/-- The settings that hold where none are given. -/
def standard : Settings := ⟨LanguageString.defaultLanguage, false, []⟩

/-- The settings with the given members. -/
def ofMembers? (language trace rules : Option Json) : Option Settings := do
  let language ← Json.memberOr standard.language Json.string? language
  let trace ← Json.memberOr standard.trace Json.boolean? trace
  let rules ← Json.memberOr standard.rules (fun j => j.elems?.bind (·.mapM DisambiguationRule.ofJson?)) rules
  return ⟨language, trace, rules⟩

/-- The settings that a document is. -/
def ofJson? : Json → Option Settings
  | .array [] => ofMembers? none none none
  | .array [language] => ofMembers? (some language) none none
  | .array [language, trace] => ofMembers? (some language) (some trace) none
  | .array [language, trace, rules] => ofMembers? (some language) (some trace) (some rules)
  | j => do
    let members ← j.members?
    ofMembers? (← Json.member? members "language") (← Json.member? members "trace")
      (← Json.member? members "disambiguation")

/-- The settings that the text of a document gives. -/
def read (text : String) : Option Settings := (Json.read text).bind ofJson?

end Settings

end QuantityCalculus
