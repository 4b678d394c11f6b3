import QuantityCalculus.Catalog.Search

/-!
# Catalogs that keep their index

The index of a catalog is made when the catalog is first searched, and later searches use it again. Adding a unit or an entry drops
it; nothing else that changes a catalog does, since the index is one of units and entries only.
-/

namespace QuantityCalculus

/-- A catalog with the index that a search has left, if it was searched since something was added. -/
structure IndexedCatalog (F : Type) where
  catalog : Catalog F
  kept : Option TermIndex

namespace IndexedCatalog

variable {F : Type}

/-- The catalog that holds nothing and was never searched. -/
def empty : IndexedCatalog F := ⟨.empty, none⟩

/-- What the catalog holds under a term, by the index that is kept or else made now, and the catalog with this index kept. -/
def search (s : IndexedCatalog F) (term : String) : List Hit × IndexedCatalog F :=
  let index := s.kept.getD s.catalog.index
  (index.lookup (normalizeTerm term), { s with kept := some index })

/-- What can be done with a catalog. -/
inductive Command (F : Type) where
  | addUnit (key : String) (u : UnitOfMeasure F)
  | addEntry (kind : EntryKind) (key : String) (entry : Entry)
  | addDimension (key : String) (composable : Bool)
  | addPrefix (base : Nat) (exponent : Int) (affix : Affix)
  | addDegree (exponent : Rat) (affix : Affix)
  | withJoiners (joiners : Joiners)
  | withLanguage (language : String)
  | search (term : String)

/-- The catalog after a command. -/
def step (s : IndexedCatalog F) : Command F → IndexedCatalog F
  | .addUnit key u => ⟨s.catalog.addUnit key u, none⟩
  | .addEntry kind key entry => ⟨s.catalog.addEntry kind key entry, none⟩
  | .addDimension key composable => { s with catalog := s.catalog.addDimension key composable }
  | .addPrefix base exponent affix => { s with catalog := s.catalog.addPrefix base exponent affix }
  | .addDegree exponent affix => { s with catalog := s.catalog.addDegree exponent affix }
  | .withJoiners joiners => { s with catalog := s.catalog.withJoiners joiners }
  | .withLanguage language => { s with catalog := s.catalog.withLanguage language }
  | .search term => (s.search term).2

/-- The catalog after commands, one after another. -/
def run (history : List (Command F)) : IndexedCatalog F := history.foldl step .empty

end IndexedCatalog

end QuantityCalculus
