/-!
# Arities

How many arguments a function accepts.
-/

namespace QuantityCalculus

/-- At least `least` arguments, and no more than `most` if there is such a bound. -/
structure Arity where
  least : Nat
  most : Option Nat
  deriving DecidableEq, Repr

namespace Arity

/-- One count of arguments only. -/
def exactly (n : Nat) : Arity := ⟨n, some n⟩

/-- One argument. -/
def unary : Arity := exactly 1

/-- One argument or more. -/
def variadic : Arity := ⟨1, none⟩

/-- Whether a count of arguments is accepted. -/
def accepts (a : Arity) (count : Nat) : Bool :=
  a.least ≤ count && a.most.all (count ≤ ·)

/-- The counts that are accepted, in words. -/
def text (a : Arity) : String :=
  match a.most with
  | some most => if most = a.least then toString most else toString a.least ++ " to " ++ toString most
  | none => "at least " ++ toString a.least

end Arity

end QuantityCalculus
