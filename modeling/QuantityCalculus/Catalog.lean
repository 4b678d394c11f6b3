import QuantityCalculus.LanguageString.Template
import QuantityCalculus.UnitOfMeasure

/-!
# Catalogs

A catalog holds what expressions can name: units, the prefixes and degrees that make new units of them, and entries that are
looked up and shown only. It says which dimensions are composable and how the names and symbols of composed units are
joined, and it has a language for display.
-/

namespace QuantityCalculus

/-- What a catalog can hold under a key, in the order in which it is listed. -/
inductive EntryKind where
  | unit | unitType | function | include | element | solver
  deriving DecidableEq, Repr

namespace EntryKind

/-- The word for a kind. -/
def name : EntryKind → String
  | .unit => "unit"
  | .unitType => "unittype"
  | .function => "function"
  | .include => "include"
  | .element => "element"
  | .solver => "solver"

/-- The kind of a word. -/
def ofName? : String → Option EntryKind
  | "unit" => some .unit
  | "unittype" | "unit-type" | "unit_type" => some .unitType
  | "function" => some .function
  | "include" => some .include
  | "element" => some .element
  | "solver" => some .solver
  | _ => none

/-- The place of a kind in the list of kinds. -/
def rank : EntryKind → Nat
  | .unit => 0
  | .unitType => 1
  | .function => 2
  | .include => 3
  | .element => 4
  | .solver => 5

end EntryKind

/-- What a catalog holds: a kind and a key. -/
structure Hit where
  kind : EntryKind
  key : String
  deriving DecidableEq, Repr

/-- The order by kind and then by key. -/
def Hit.lt (a b : Hit) : Bool :=
  a.kind.rank < b.kind.rank || a.kind == b.kind && a.key < b.key

/-- A symbol and a template for names: of a prefix, or of a degree. -/
structure Affix where
  symbol : String
  name : LanguageString
  deriving DecidableEq, Repr

/-- What joins symbols and names, and the order of the joined texts. -/
structure Joiner where
  symbol : LanguageString
  name : LanguageString
  order : LanguageString
  deriving DecidableEq, Repr

/-- The joiner without any text. -/
def Joiner.empty : Joiner := ⟨.empty, .empty, .empty⟩

/-- The joiners of the three ways to compose units. -/
structure Joiners where
  product : Joiner
  quotient : Joiner
  hierarchical : Joiner
  deriving DecidableEq, Repr

/-- The joiners without any text. -/
def Joiners.empty : Joiners := ⟨.empty, .empty, .empty⟩

/-- An entry that is looked up and shown only. -/
structure Entry where
  name : LanguageString
  symbol : Option String
  deriving DecidableEq, Repr

/-- A catalog. Dimensions are marked as composable or not; prefixes are listed by base and exponent, degrees by exponent, and all
else by key in increasing order. -/
structure Catalog (F : Type) where
  dimensions : List (String × Bool)
  prefixes : List ((Nat × Int) × Affix)
  degrees : List (Rat × Affix)
  units : List (String × UnitOfMeasure F)
  entries : List (Hit × Entry)
  joiners : Joiners
  language : String

namespace Catalog

variable {F : Type}

/-- The catalog that holds nothing. -/
def empty : Catalog F := ⟨[], [], [], [], [], .empty, LanguageString.defaultLanguage⟩

/-- The catalog with other joiners. -/
def withJoiners (c : Catalog F) (joiners : Joiners) : Catalog F := { c with joiners }

/-- The catalog with another language for display. -/
def withLanguage (c : Catalog F) (language : String) : Catalog F := { c with language }

/-- The catalog with a base dimension that is composable or not. -/
def addDimension (c : Catalog F) (key : String) (composable : Bool) : Catalog F :=
  { c with dimensions := SortedList.insert SortedList.textLT key composable c.dimensions }

/-- The catalog with a prefix for a power. -/
def addPrefix (c : Catalog F) (base : Nat) (exponent : Int) (affix : Affix) : Catalog F :=
  { c with prefixes := ((base, exponent), affix) :: c.prefixes }

/-- The catalog with a degree for an exponent. -/
def addDegree (c : Catalog F) (exponent : Rat) (affix : Affix) : Catalog F :=
  { c with degrees := (exponent, affix) :: c.degrees }

/-- The catalog with a unit under a key, which is then its `id`. -/
def addUnit (c : Catalog F) (key : String) (u : UnitOfMeasure F) : Catalog F :=
  { c with units := SortedList.insert SortedList.textLT key { u with id := some key } c.units }

/-- The catalog with an entry under a kind and a key. -/
def addEntry (c : Catalog F) (kind : EntryKind) (key : String) (entry : Entry) : Catalog F :=
  { c with entries := SortedList.insert Hit.lt ⟨kind, key⟩ entry c.entries }

/-- Whether a base dimension is composable, as all unknown ones are. -/
def isComposableBase (c : Catalog F) (base : String) : Bool :=
  (SortedList.get? base c.dimensions).getD true

/-- The first base of a dimension that is not composable. -/
def nonComposableBase? (c : Catalog F) (d : Dimension) : Option String :=
  d.bases.find? fun base => !c.isComposableBase base

/-- The prefix for a power. -/
def findPrefix? (c : Catalog F) (base : Nat) (exponent : Int) : Option Affix :=
  SortedList.get? (base, exponent) c.prefixes

/-- The degree for an exponent. -/
def findDegree? (c : Catalog F) (exponent : Rat) : Option Affix :=
  SortedList.get? exponent c.degrees

/-- The unit under a key. -/
def unit? (c : Catalog F) (key : String) : Option (UnitOfMeasure F) :=
  SortedList.get? key c.units

/-- The unit under a key, or else the first one with that symbol. -/
def findUnit? (c : Catalog F) (term : String) : Option (UnitOfMeasure F) :=
  (c.unit? term).or ((c.units.find? fun (_, u) => u.symbolText? == some term).map (·.2))

/-- The entry under a kind and a key. -/
def entry? (c : Catalog F) (kind : EntryKind) (key : String) : Option Entry :=
  SortedList.get? ⟨kind, key⟩ c.entries

end Catalog

end QuantityCalculus
