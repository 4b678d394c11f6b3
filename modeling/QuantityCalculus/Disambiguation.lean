import QuantityCalculus.Catalog.Search

/-!
# Choosing between hits

A term may stand for several things in a catalog. Rules choose between them: a rule is about lookups of its term, in normal form, and
prefers what has its kind and its key, where it gives them.
-/

namespace QuantityCalculus

/-- A rule that prefers some of the things that a term stands for. -/
structure DisambiguationRule where
  term : String
  kind : Option String
  key : Option String
  deriving DecidableEq, Repr

namespace DisambiguationRule

/-- Whether the rule is about lookups of a term. -/
def appliesTo (rule : DisambiguationRule) (term : String) : Bool :=
  normalizeTerm rule.term == normalizeTerm term

/-- Whether the rule prefers a hit. -/
def prefers (rule : DisambiguationRule) (hit : Hit) : Bool :=
  rule.kind.all (· == hit.kind.name) && rule.key.all (· == hit.key)

/-- The only hit that a rule about the term prefers, if there is exactly one. -/
def choose? (rules : List DisambiguationRule) (term : String) (hits : List Hit) : Option Hit :=
  let applicable := rules.filter (·.appliesTo term)
  match hits.filter fun hit => applicable.any (·.prefers hit) with
  | [hit] => some hit
  | _ => none

end DisambiguationRule

end QuantityCalculus
