import QuantityCalculus.Decimal.Numeral
import QuantityCalculus.LanguageString
import QuantityCalculus.Text.DecimalDigit

/-!
# Templates

A text may hold numbered placeholders, such as the one for the first argument, a zero in braces. Filling them replaces every
placeholder that has an argument at once: what was put in is not searched again.
-/

namespace QuantityCalculus

namespace Template

/-- The text that a number in braces stands for, if it is the number of an argument in ASCII digits. -/
def argument? (args : List (List Char)) (digits : List Char) : Option (List Char) :=
  if digits.all Char.isDigit then args[Decimal.natOfDigits digits]? else none

/-- The digits of the placeholder at the start of a text that follows an opening brace. -/
def placeholder? (cs : List Char) : Option (List Char) :=
  let digits := cs.takeWhile Text.isDecimalDigit
  match cs.drop digits.length with
  | '\x7d' :: _ => if digits.isEmpty then none else some digits
  | _ => none

/-- The text with its placeholders filled; one without argument stands for itself. -/
def fill (args : List (List Char)) : List Char → List Char
  | [] => []
  | c :: cs =>
    match if c == '\x7b' then placeholder? cs else none with
    | none => c :: fill args cs
    | some digits =>
      (argument? args digits).getD (c :: digits ++ ['\x7d']) ++ fill args (cs.drop (digits.length + 1))
termination_by cs => cs.length
decreasing_by
  · simp
  · simp only [List.length_drop, List.length_cons]
    omega

/-- Filling of texts. -/
def fillText (args : List String) (template : String) : String :=
  String.ofList (fill (args.map String.toList) template.toList)

end Template

namespace LanguageString

/-- The template filled form by form, with the arguments in the same language and form. -/
def format (template : LanguageString) (args : List LanguageString) : LanguageString :=
  template.entries.foldl (fun result (lang, plural, text) =>
    let filled := args.map fun arg => (arg.lookup? lang plural).getD ""
    result.insert lang plural (Template.fillText filled text)) empty

/-- The order of languages and forms. -/
def keyLT (a b : String × Plural) : Bool :=
  a.1 < b.1 || a.1 == b.1 && a.2 == .one && b.2 == .other

/-- The languages and forms of several strings in increasing order, each once. -/
def keysOf (parts : List LanguageString) : List (String × Plural) :=
  ((parts.flatMap entries).foldl (fun keys (lang, plural, _) =>
    SortedList.insert keyLT (lang, plural) () keys) []).map (·.1)

/-- Where the text so far, the joiner and the next part go, when nothing else is said. -/
def defaultOrder : String := "\x7b0\x7d\x7b1\x7d\x7b2\x7d"

/-- The texts of parts in one language and form, folded together. -/
def joinTexts (order joiner : String) : List String → Option String
  | [] => none
  | text :: texts => some (texts.foldl (fun joined next => Template.fillText [joined, joiner, next] order) text)

/-- The parts folded together with the joiner between them, in every language and form that one of them has. -/
def join (joiner order : LanguageString) (parts : List LanguageString) : LanguageString :=
  (keysOf parts).foldl (fun result (lang, plural) =>
    let orderText := (order.lookup? lang plural).getD defaultOrder
    let joinerText := (joiner.lookup? lang plural).getD ""
    match joinTexts orderText joinerText (parts.map fun part => (part.lookup? lang plural).getD "") with
    | none => result
    | some text => result.insert lang plural text) empty

end LanguageString

end QuantityCalculus
