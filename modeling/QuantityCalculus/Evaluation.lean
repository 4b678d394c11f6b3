import QuantityCalculus.Builtin.Calls
import QuantityCalculus.Disambiguation
import QuantityCalculus.Expression

/-!
# Evaluation

The value of an expression in a context of variables. Operands are evaluated from left to right, and the first error ends the
evaluation; what was assigned before it stays assigned. A name stands for a variable, else for a built-in function, else for
what the catalog holds under it.
-/

namespace QuantityCalculus

/-- The value of a variable, and how often the variable was assigned before. -/
structure Variable (F : Type) where
  value : Value F
  generation : Nat

/-- Variables by name. -/
structure Context (F : Type) where
  assignments : List (String × Variable F)

namespace Context

variable {F : Type}

/-- The context without variables. -/
def empty : Context F := ⟨[]⟩

/-- A variable. -/
def find? (ctx : Context F) (name : String) : Option (Variable F) :=
  SortedList.get? name ctx.assignments

/-- The value of a variable. -/
def get? (ctx : Context F) (name : String) : Option (Value F) :=
  (ctx.find? name).map (·.value)

/-- What a variable becomes when it is assigned a value, whose functions it then owns. -/
def assigned (ctx : Context F) (name : String) (a : Value F) : Variable F :=
  let generation := ((ctx.find? name).map (·.generation + 1)).getD 0
  ⟨a.own name generation [], generation⟩

/-- The context with a variable. -/
def set (ctx : Context F) (name : String) (v : Variable F) : Context F :=
  ⟨SortedList.insert SortedList.textLT name v ctx.assignments⟩

end Context

/-- What gives names their meaning: a catalog, and rules for names that stand for several things in it. -/
structure Evaluator (F : Type) where
  catalog : Catalog F
  rules : List DisambiguationRule

/-- A computation that reads and changes a context, and may fail. -/
abbrev Evaluation (F α : Type) := ExceptT EvaluationError (StateM (Context F)) α

/-- The function of a name. -/
def functionNamed? {F : Type} (name : String) : Option (FunctionValue F) :=
  if name = "id" then some .identity else (Builtin.ofName? name).map .ofBuiltin

/-- A catalog entry with its name in the language of the catalog. -/
def Catalog.reference {F : Type} (c : Catalog F) (hit : Hit) (entry : Entry) : Reference :=
  ⟨hit, (entry.name.lookup? c.language .one).getD hit.key⟩

/-- What a catalog holds, as a value. -/
def Catalog.valueOf? {F : Type} (c : Catalog F) (hit : Hit) : Option (Value F) :=
  match hit.kind with
  | .unit => (c.unit? hit.key).map .unit
  | .function => (functionNamed? hit.key).map .function
  | kind => (c.entry? kind hit.key).map fun entry => .reference (c.reference hit entry)

namespace Evaluator

variable {F : Type} (e : Evaluator F)

/-- What a term stands for in the catalog: its only hit, or the one that the rules choose. -/
def lookUp (term : String) : Outcome (Value F) :=
  let valueOf (hit : Hit) : Outcome (Value F) :=
    match e.catalog.valueOf? hit with
    | some a => .ok a
    | none => .error (.unknownIdentifier term)
  match e.catalog.search term with
  | [] => .error (.unknownIdentifier term)
  | [hit] => valueOf hit
  | hits =>
    match DisambiguationRule.choose? e.rules term hits with
    | some hit => valueOf hit
    | none => .error (.ambiguous term hits.length)

/-- What a name stands for. -/
def resolve (ctx : Context F) (name : String) : Outcome (Value F) :=
  match ctx.get? name with
  | some a => .ok a
  | none =>
    match functionNamed? name with
    | some f => .ok (.function f)
    | none => e.lookUp name

/-- Assigns a value to a variable. -/
def assign (name : String) (a : Value F) : Evaluation F (Value F) := do
  let v := (← get).assigned name a
  modify (·.set name v)
  return v.value

variable [Numeric F]

/-- A function at an argument, which is composed with it if it is a function. -/
def applyTo (f : FunctionValue F) : Value F → Outcome (Value F)
  | .function g => .ok (.function (f.compose g))
  | a => f.call e.catalog [a]

/-- A value in a unit with an independent variable, or in what the variable makes of another target. -/
def convertWith (a target binding : Value F) : Outcome (Value F) :=
  match target with
  | .unit u => Algebra.convert e.catalog a u (some binding)
  | target => do Algebra.binary e.catalog .convert a (← Algebra.binary e.catalog .at target binding)

mutual

/-- The value of an expression. -/
def evaluate : Expression F → Evaluation F (Value F)
  | .number x => return .number x
  | .string s => return .string s
  | .boolean b => return .boolean b
  | .identifier name => do e.resolve (← get) name
  | .list [] => return .array []
  | .list [row] => return .array (← evaluateAll row)
  | .list rows => return .array (← evaluateRows rows)
  | .sequence elems => return .array (← evaluateAll elems)
  | .unary op operand => do
    let a ← evaluate operand
    Algebra.unary e.catalog op a
  | .binary .convert left (.binary .at target binding) => do
    let a ← evaluate left
    let u ← evaluate target
    let b ← evaluate binding
    e.convertWith a u b
  | .binary op left right => do
    let a ← evaluate left
    let b ← evaluate right
    Algebra.binary e.catalog op a b
  | .juxtapose left (.sequence elems) => do
    match ← evaluate left with
    | .function f => f.call e.catalog (← evaluateAll elems)
    | a => Algebra.mul e.catalog a (.array (← evaluateAll elems))
  | .juxtapose left right => do
    match ← evaluate left with
    | .function f => e.applyTo f (← evaluate right)
    | a => Algebra.mul e.catalog a (← evaluate right)
  | .assign name value => do assign name (← evaluate value)

/-- The values of expressions. -/
def evaluateAll : List (Expression F) → Evaluation F (List (Value F))
  | [] => return []
  | x :: xs => do
    let a ← evaluate x
    let as ← evaluateAll xs
    return a :: as

/-- The arrays of the values of rows of expressions. -/
def evaluateRows : List (List (Expression F)) → Evaluation F (List (Value F))
  | [] => return []
  | row :: rows => do
    let a ← evaluateAll row
    let as ← evaluateRows rows
    return .array a :: as

end

end Evaluator

end QuantityCalculus
