import QuantityCalculus.Text.Trim
import QuantityCalculus.Token
import QuantityCalculus.Value

/-!
# The text of a value

Values are shown in a language. A text is quoted, except in a quantity, where the payload stands bare before the name of its unit.
-/

namespace QuantityCalculus

/-- The plural form that goes with a payload. -/
def Value.plural {F : Type} [Numeric F] (payload : Value F) : Plural :=
  (payload.number?.map Plural.ofAmount).getD .other

/-- The name of a unit after a payload: its name in the form of the payload, else its symbol, else its name for messages. -/
def UnitOfMeasure.nameAfter {F : Type} [Numeric F] (u : UnitOfMeasure F) (lang : String) (payload : Value F) : String :=
  ((u.nameIn? lang payload.plural).or u.symbolText?).getD (u.displayName lang)

/-- The name of the independent variable after its value: that of the unit of the value, else that of the variable. -/
def UnitOfMeasure.variableNameAfter {F : Type} [Numeric F] (u : UnitOfMeasure F) (lang : String)
    (binding : Binding F (Value F)) : String :=
  match binding.unit with
  | some v => v.nameAfter lang binding.value
  | none => (u.dependent.bind fun independent => independent.name.lookup? lang .other).getD ""

/-- A text without blanks at its end. -/
def withoutTrailingBlanks (s : String) : String := String.ofList (Text.trimEnd s.toList)

namespace Value

variable {F : Type} [Numeric F]

mutual

/-- The text of a value, in which texts are bare or quoted. -/
def textWith (bare : Bool) (lang : String) : Value F → String
  | .number x => Numeric.displayText x
  | .string s => if bare then s else Text.quoted s
  | .boolean b => truthText b
  | .array elems => "[" ++ String.intercalate ", " (textsWith bare lang elems) ++ "]"
  | .unit u => "unit \x60" ++ u.displayName lang ++ "\x60"
  | .quantity ⟨payload, u, none⟩ => textWith true lang payload ++ " " ++ u.nameAfter lang payload
  | .quantity ⟨payload, u, some ⟨value, v⟩⟩ =>
    textWith true lang payload ++ " " ++ u.nameAfter lang payload ++
      withoutTrailingBlanks (" at " ++ textWith true lang value ++ " " ++ u.variableNameAfter lang ⟨value, v⟩)
  | .function f => "function \x60" ++ f.name ++ "\x60"
  | .reference r => r.hit.kind.name ++ " \x60" ++ r.name ++ "\x60"

/-- The texts of several values. -/
def textsWith (bare : Bool) (lang : String) : List (Value F) → List String
  | [] => []
  | x :: xs => textWith bare lang x :: textsWith bare lang xs

end

/-- The text of a value in a language. -/
def text (lang : String) (a : Value F) : String := a.textWith false lang

end Value

end QuantityCalculus
