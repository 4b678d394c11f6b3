import QuantityCalculus.Proofs.Decimal.Scan
import QuantityCalculus.UnitExpression

/-!
# The grammar of unit expressions

Which texts are unit expressions, and which tree each of them is: `Derives`. The grammar says nothing of lookahead. Every part that
may follow another starts with a reserved character, after blanks or not, and none of them continues a name or a number, so that
a text has no derivation in which a name or a number is shorter than it could be. No member of a hierarchy starts with a sign or a
digit (`Derives.spanInteger?_eq_none`), so that a comma before an integer can only go on with the bounds of a fraction.

The meaning of a tree is `Tree.evaluate`: what is composed of parts is composed after them, the first of them first, and a chain of
units is composed at once.
-/

namespace QuantityCalculus.UnitExpression

-- Powers of integers are those of the core library, whatever else is loaded.
attribute [local instance (1001)] instPowNat

variable {F : Type}

/-! ## Trees -/

/-- The chains, the loosest first. -/
inductive Chain where
  | hierarchy | quotient | product
  deriving DecidableEq, Repr

/-- What stands between the members of a chain. -/
def Chain.separator : Chain → Char
  | .hierarchy => ','
  | .quotient => '/'
  | .product => '*'

/-- What the members of a chain are composed to. -/
def Chain.compose [Numeric F] (c : Catalog F) :
    Chain → List (UnitOfMeasure F) → Except CompositionError (UnitOfMeasure F)
  | .hierarchy => Composition.hierarchical c
  | .quotient => Composition.divide c
  | .product => Composition.multiply c

/-- A unit expression. -/
inductive Tree (F : Type) where
  | unit (u : UnitOfMeasure F)
  | prefixed (operand : Tree F) (base : Nat) (exponent : Int)
  | power (operand : Tree F) (exponent : F)
  | fraction (operand : Tree F) (bounds : Fraction.Bounds)
  | chain (k : Chain) (members : List (Tree F))

namespace Tree

variable [Numeric F] (c : Catalog F)

mutual

/-- The unit that a tree stands for, or the error of the first composition that fails. -/
def evaluate : Tree F → Except UnitExpressionError (UnitOfMeasure F)
  | .unit u => .ok u
  | .prefixed operand base exponent => do
    let u ← evaluate operand
    composed c [u] (Composition.withPrefix c u base exponent)
  | .power operand exponent => do
    let u ← evaluate operand
    composed c [u] (Composition.power c u exponent)
  | .fraction operand bounds => do
    let u ← evaluate operand
    composed c [u] (Composition.fractional c u bounds)
  | .chain k members => do
    let us ← evaluateAll members
    composed c us (k.compose c us)

/-- The units that several trees stand for. -/
def evaluateAll : List (Tree F) → Except UnitExpressionError (List (UnitOfMeasure F))
  | [] => .ok []
  | t :: ts => do
    let u ← evaluate t
    let us ← evaluateAll ts
    return u :: us

end

end Tree

/-! ## Tokens -/

/-- Any number of blanks. -/
def Blanks (s : List Char) : Prop := ∀ ch ∈ s, Text.isBlank ch = true

/-- A character that starts a name, and characters that are not reserved. -/
inductive IsName : List Char → Prop
  | mk {ch name} : startsName ch = true → (∀ d ∈ name, isReserved d = false) → IsName (ch :: name)

/-- A sign and a mantissa that have a value. -/
inductive IsNumber [Numeric F] : List Char → F → Prop
  | mk {sign mantissa x} : Decimal.IsSign sign → Decimal.IsMantissa mantissa →
      Numeric.read (sign ++ mantissa) = some x → IsNumber (sign ++ mantissa) x

/-- An integer of 32 bits that is not negative, after blanks. -/
inductive IsBound : List Char → Nat → Prop
  | mk {s v n} : Blanks s → Decimal.readInteger? 0 (2 ^ (32 : Nat) - 1) v = some n → IsBound (s ++ v) n.toNat

/-- One, two or three bounds with commas between them. -/
inductive AreBounds : List Char → Fraction.Bounds → Prop
  | one {v a} : IsBound v a → AreBounds v ⟨a, 0, 0⟩
  | two {v s w a b} : IsBound v a → Blanks s → IsBound w b → AreBounds (v ++ s ++ ',' :: w) ⟨a, b, 0⟩
  | three {v s w s' w' a b d} : IsBound v a → Blanks s → IsBound w b → Blanks s' → IsBound w' d →
      AreBounds (v ++ s ++ ',' :: (w ++ s' ++ ',' :: w')) ⟨a, b, d⟩

/-- The base of the prefixes after a mark. -/
def markBase? : Char → Option Nat
  | '_' => some 10
  | '.' | ':' => some 2
  | _ => none

/-! ## Phrases -/

/-- The kinds of phrase. Links are what follows the first member of a chain. -/
inductive Phrase where
  | chain (k : Chain)
  | links (k : Chain)
  | fraction | power | prefixed | atom
  deriving DecidableEq, Repr

/-- What the members of a chain are. -/
def Chain.member : Chain → Phrase
  | .hierarchy => .fraction
  | .quotient => .chain .product
  | .product => .power

/-- The text is a phrase of a kind with a tree. The tree of links is a chain, which may be empty. -/
inductive Derives [Numeric F] (c : Catalog F) : Phrase → List Char → Tree F → Prop
  | single {k w t} : Derives c (Chain.member k) w t → Derives c (.chain k) w t
  | several {k w t v t' ts} : Derives c (Chain.member k) w t → Derives c (.links k) v (.chain k (t' :: ts)) →
      Derives c (.chain k) (w ++ v) (.chain k (t :: t' :: ts))
  | noLinks {k} : Derives c (.links k) [] (.chain k [])
  | link {k s w t v ts} : Blanks s → Derives c (Chain.member k) w t → Derives c (.links k) v (.chain k ts) →
      Derives c (.links k) (s ++ k.separator :: w ++ v) (.chain k (t :: ts))
  | whole {w t} : Derives c (.chain .quotient) w t → Derives c .fraction w t
  | fraction {w t s v bounds} : Derives c (.chain .quotient) w t → Blanks s → AreBounds v bounds →
      Derives c .fraction (w ++ s ++ '%' :: v) (.fraction t bounds)
  | first {w t} : Derives c .prefixed w t → Derives c .power w t
  | power {w t s s' v x} : Derives c .prefixed w t → Blanks s → Blanks s' → IsNumber v x →
      Derives c .power (w ++ s ++ '^' :: (s' ++ v)) (.power t x)
  | plain {w t} : Derives c .atom w t → Derives c .prefixed w t
  | prefixed {w t s mark base s' v n} : Derives c .atom w t → Blanks s → markBase? mark = some base → Blanks s' →
      Decimal.readInteger? (-(2 ^ (31 : Nat))) (2 ^ (31 : Nat) - 1) v = some n →
      Derives c .prefixed (w ++ s ++ mark :: (s' ++ v)) (.prefixed t base n)
  | named {s name u} : Blanks s → IsName name → c.unit? (String.ofList name) = some u →
      Derives c .atom (s ++ name) (.unit u)
  | parenthesized {s w s' t} : Blanks s → Derives c (.chain .hierarchy) w t → Blanks s' →
      Derives c .atom (s ++ '(' :: (w ++ s' ++ [')'])) t

/-- The text is a unit expression with a tree, apart from blanks at its end. -/
def Spells [Numeric F] (c : Catalog F) (text : String) (t : Tree F) : Prop :=
  ∃ w s, text.toList = w ++ s ∧ Derives c (.chain .hierarchy) w t ∧ Blanks s

end QuantityCalculus.UnitExpression
