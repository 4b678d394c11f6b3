import QuantityCalculus.Dimension
import QuantityCalculus.Instructions
import QuantityCalculus.LanguageString

/-!
# Units of measure

A unit says how a quantity of some dimension is written and how it converts to the base unit of that dimension.
-/

namespace QuantityCalculus

/-- The symbol of a unit, or one for each component. -/
inductive UnitSymbol where
  | single (symbol : String)
  | tuple (symbols : List String)
  deriving DecidableEq, Repr

/-- The text of a symbol. -/
def UnitSymbol.text : UnitSymbol → String
  | .single symbol => symbol
  | .tuple symbols => String.intercalate " " symbols

/-- How quantities in a unit are written. -/
inductive Datatype where
  | numeric | text | tuple | dependent | colorCode
  deriving DecidableEq, Repr

/-- The word for a way of writing quantities. -/
def Datatype.name : Datatype → String
  | .numeric => "numeric"
  | .text => "text"
  | .tuple => "tuple"
  | .dependent => "dependent"
  | .colorCode => "color-code"

/-- How a unit converts to its base unit. -/
inductive Conversion (F : Type) where
  | identity
  | ratio (r : Ratio F)
  | instructions (i : Instructions)
  | functions (t : Transform F)

/-- The independent variable that the conversion of a dependent unit needs. -/
structure IndependentVariable where
  dimension : Dimension
  name : LanguageString
  deriving DecidableEq, Repr

/-- A unit of measure; `id` is its key if it came from a catalog. -/
structure UnitOfMeasure (F : Type) where
  id : Option String
  symbol : Option UnitSymbol
  name : Option LanguageString
  dimension : Dimension
  datatype : Datatype
  conversion : Conversion F
  dependent : Option IndependentVariable

namespace UnitOfMeasure

variable {F : Type}

/-- The base unit of a dimension, without symbol or name. -/
def base (dimension : Dimension) : UnitOfMeasure F :=
  ⟨none, none, none, dimension, .numeric, .identity, none⟩

/-- Whether the conversion needs an independent variable. -/
def isDependent (u : UnitOfMeasure F) : Bool := u.datatype == .dependent

/-- The unit with another conversion. -/
def withConversion (u : UnitOfMeasure F) (conversion : Conversion F) : UnitOfMeasure F :=
  { u with conversion := conversion }

/-- The unit with an independent variable. -/
def withDependent (u : UnitOfMeasure F) (independent : IndependentVariable) : UnitOfMeasure F :=
  { u with datatype := .dependent, dependent := some independent }

/-- The text of the symbol. -/
def symbolText? (u : UnitOfMeasure F) : Option String := u.symbol.map UnitSymbol.text

/-- The name in a language and plural form, with the fallbacks of language strings. -/
def nameIn? (u : UnitOfMeasure F) (lang : String) (plural : Plural) : Option String :=
  u.name.bind (·.lookup? lang plural)

/-- The name for messages: the singular name, else the symbol, else the key, else the dimension. -/
def displayName (u : UnitOfMeasure F) (lang : String) : String :=
  (((u.nameIn? lang .one).or u.symbolText?).or u.id).getD ("unit of " ++ u.dimension.text)

variable [Numeric F]

/-- The scale of the conversion, if it is one. -/
def ratio? (u : UnitOfMeasure F) : Option (Ratio F) :=
  match u.conversion with
  | .identity => some .one
  | .ratio r => some r
  | .instructions i => i.steps.toOption.bind Step.ratio?
  | .functions _ => none

/-- A payload in the unit as one in the base unit. -/
def toBase (u : UnitOfMeasure F) : Converter F := fun x dep =>
  match u.conversion with
  | .identity => .ok x
  | .ratio r => Converter.ofNumeric r.toBase x dep
  | .instructions i => i.steps.bind fun steps => (Step.transform steps).toBase x dep
  | .functions t => t.toBase x dep

/-- A payload in the base unit as one in the unit. -/
def fromBase (u : UnitOfMeasure F) : Converter F := fun x dep =>
  match u.conversion with
  | .identity => .ok x
  | .ratio r => Converter.ofNumeric r.fromBase x dep
  | .instructions i => i.steps.bind fun steps => (Step.transform steps).fromBase x dep
  | .functions t => t.fromBase x dep

/-- A number in the unit as a number in the base unit. -/
def toBaseNumber (u : UnitOfMeasure F) (x : F) (dep : Option (Scalar F)) : Except ConversionError F :=
  (u.toBase (.number x) dep).bind Scalar.expectNumber

/-- A number in the base unit as a number in the unit. -/
def fromBaseNumber (u : UnitOfMeasure F) (x : F) (dep : Option (Scalar F)) : Except ConversionError F :=
  (u.fromBase (.number x) dep).bind Scalar.expectNumber

end UnitOfMeasure

end QuantityCalculus
