import QuantityCalculus.Catalog
import QuantityCalculus.Text.LowerCase
import QuantityCalculus.Text.Trim

/-!
# Searching a catalog

Terms are compared in a normal form without blanks at the ends, with one space for each run of blanks inside, and in lower case. An
index lists under each normal form what was filed under it.
-/

namespace QuantityCalculus

/-- The normal form of a term. -/
def normalizeTerm (term : String) : String :=
  Text.lowerCase (String.ofList (Text.collapseBlanks (Text.trim term.toList)))

/-- Hits by normal form, in the order in which they were filed. -/
structure TermIndex where
  table : List (String × List Hit)
  deriving DecidableEq, Repr

namespace TermIndex

/-- The index with nothing filed. -/
def empty : TermIndex := ⟨[]⟩

/-- Hits with a further one, unless it is among them. -/
def addHit (hit : Hit) (hits : List Hit) : List Hit :=
  if hits.contains hit then hits else hits ++ [hit]

/-- A table with a hit filed under a normal form. -/
def file (normal : String) (hit : Hit) : List (String × List Hit) → List (String × List Hit)
  | [] => [(normal, [hit])]
  | (key, hits) :: rest => if key == normal then (key, addHit hit hits) :: rest else (key, hits) :: file normal hit rest

/-- The index with a hit filed under a term; a blank term is ignored. -/
def insert (index : TermIndex) (term : String) (hit : Hit) : TermIndex :=
  let normal := normalizeTerm term
  if normal.isEmpty then index else ⟨file normal hit index.table⟩

/-- What is filed under a normal form. -/
def lookup (index : TermIndex) (normal : String) : List Hit :=
  (index.table.lookup normal).getD []

/-- How many normal forms there are. -/
def size (index : TermIndex) : Nat := index.table.length

end TermIndex

namespace Catalog

variable {F : Type}

/-- The terms of a unit: its key, its symbol and its names. -/
def unitTerms (key : String) (u : UnitOfMeasure F) : List String :=
  key :: (u.symbolText?.toList ++ (u.name.map fun name => name.entries.map (·.2.2)).getD [])

/-- The terms of an entry: its key, its symbol and its names. -/
def entryTerms (key : String) (entry : Entry) : List String :=
  key :: (entry.symbol.toList ++ entry.name.entries.map (·.2.2))

/-- Everything that a catalog holds, with its terms: units by key, then entries by kind and key. -/
def terms (c : Catalog F) : List (Hit × List String) :=
  c.units.map (fun (key, u) => (⟨.unit, key⟩, unitTerms key u)) ++
    c.entries.map fun (hit, entry) => (hit, entryTerms hit.key entry)

/-- The index of everything that a catalog holds. -/
def index (c : Catalog F) : TermIndex :=
  c.terms.foldl (fun index (hit, terms) => terms.foldl (fun index term => index.insert term hit) index) .empty

/-- What a catalog holds under a term. -/
def search (c : Catalog F) (term : String) : List Hit :=
  c.index.lookup (normalizeTerm term)

end Catalog

end QuantityCalculus
