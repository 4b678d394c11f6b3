import QuantityCalculus.Composition.Fraction
import QuantityCalculus.Composition.Hierarchy
import QuantityCalculus.Decimal.Scan

/-!
# Unit expressions

The text of a unit, such as `km/h` or `ft,in%16`. From the tightest to the loosest: a key of the catalog or a unit in parentheses; a
prefix of a power of ten after an underscore, or of two after a point or a colon; a power after a caret; products with a
star; quotients with a slash; fractions with a percent sign and up to three bounds; and mixed-radix units with commas. Blanks
may stand before each part. A chain of one kind of composition is composed at once.
-/

namespace QuantityCalculus

-- Powers of integers are those of the core library, whatever else is loaded.
attribute [local instance (1001)] instPowNat

/-- Why a text is not a unit. -/
inductive UnitExpressionError where
  | malformed (remainder : String)
  | composition (units : List String) (cause : CompositionError)
  deriving DecidableEq, Repr

/-- The text of an error in a unit expression. -/
def UnitExpressionError.message : UnitExpressionError → String
  | .malformed remainder => "Syntax error in unit expression at '" ++ remainder ++ "'"
  | .composition units cause =>
    "Cannot compose " ++ String.intercalate ", " (units.map fun u => "\x60" ++ u ++ "\x60") ++ ": " ++ cause.message

namespace UnitExpression

variable {F : Type}

/-- A reader answers what it reads at the start of a text, with what follows it. -/
abbrev Reader (α : Type) := List Char → Except UnitExpressionError (α × List Char)

/-- The error at a place in the text. -/
def malformed {α : Type} (rest : List Char) : Except UnitExpressionError α :=
  .error (.malformed (if rest.isEmpty then "end of input" else String.ofList rest))

/-- What follows a character, if that is next after blanks. -/
def after? (c : Char) (cs : List Char) : Option (List Char) :=
  match Text.trimStart cs with
  | [] => none
  | d :: rest => if d == c then some rest else none

/-- The integer between two bounds that is next. -/
def integer (low high : Int) : Reader Int := fun cs =>
  let cs := Text.trimStart cs
  match Decimal.spanInteger? cs with
  | none => malformed cs
  | some (numeral, rest) =>
    match Decimal.readInteger? low high numeral with
    | none => malformed rest
    | some n => .ok (n, rest)

/-- The number that is next. -/
def number [Numeric F] : Reader F := fun cs =>
  let cs := Text.trimStart cs
  match Decimal.spanSigned? cs with
  | none => malformed cs
  | some (numeral, rest) =>
    match Numeric.read numeral with
    | none => malformed rest
    | some x => .ok (x, rest)

/-- A bound of a fraction. -/
def bound : Reader Nat := fun cs =>
  match integer 0 (2 ^ (32 : Nat) - 1) cs with
  | .error e => .error e
  | .ok (n, rest) => .ok (n.toNat, rest)

/-- A further bound of a fraction after a comma. A comma before anything but an integer is left alone. -/
def furtherBound : Reader (Option Nat) := fun cs =>
  match after? ',' cs with
  | none => .ok (none, cs)
  | some rest =>
    if (Decimal.spanInteger? (Text.trimStart rest)).isSome then
      match bound rest with
      | .error e => .error e
      | .ok (n, rest) => .ok (some n, rest)
    else .ok (none, cs)

/-- The bounds of a fraction: one, two or three. -/
def bounds : Reader Fraction.Bounds := fun cs =>
  match bound cs with
  | .error e => .error e
  | .ok (all, rest) =>
    match furtherBound rest with
    | .error e => .error e
    | .ok (none, rest) => .ok (⟨all, 0, 0⟩, rest)
    | .ok (some even, rest) =>
      match furtherBound rest with
      | .error e => .error e
      | .ok (powersOfTwo, rest) => .ok (⟨all, even, powersOfTwo.getD 0⟩, rest)

/-- The further members of a chain. There are no more of them than there are characters. -/
def chainRest {α : Type} (separator : Char) (member : Reader α) : Nat → Reader (List α)
  | 0, cs => .ok ([], cs)
  | fuel + 1, cs =>
    match after? separator cs with
    | none => .ok ([], cs)
    | some rest =>
      match member rest with
      | .error e => .error e
      | .ok (x, rest) =>
        match chainRest separator member fuel rest with
        | .error e => .error e
        | .ok (xs, rest) => .ok (x :: xs, rest)

/-- Members with a separator between them. -/
def chain {α : Type} (separator : Char) (member : Reader α) : Reader (α × List α) := fun cs =>
  match member cs with
  | .error e => .error e
  | .ok (x, rest) =>
    match chainRest separator member rest.length rest with
    | .error e => .error e
    | .ok (xs, rest) => .ok ((x, xs), rest)

/-- A composed unit, or the error that names the operands. -/
def composed (c : Catalog F) (operands : List (UnitOfMeasure F))
    (outcome : Except CompositionError (UnitOfMeasure F)) : Except UnitExpressionError (UnitOfMeasure F) :=
  match outcome with
  | .error cause => .error (.composition (operands.map (Composition.nameOf c)) cause)
  | .ok u => .ok u

/-- A chain of units, composed at once if there is more than one. -/
def composedChain (c : Catalog F) (separator : Char)
    (compose : List (UnitOfMeasure F) → Except CompositionError (UnitOfMeasure F))
    (member : Reader (UnitOfMeasure F)) : Reader (UnitOfMeasure F) := fun cs =>
  match chain separator member cs with
  | .error e => .error e
  | .ok ((u, []), rest) => .ok (u, rest)
  | .ok ((u, us), rest) => (composed c (u :: us) (compose (u :: us))).map (·, rest)

/-- A character that no name of a unit may hold. -/
def isReserved (ch : Char) : Bool :=
  Text.isBlank ch || ['(', ')', '*', '/', '^', '%', ',', '_', '.', ':'].contains ch

/-- A character that a name of a unit may start with. -/
def startsName (ch : Char) : Bool :=
  !isReserved ch && !Text.isDecimalDigit ch && ch != '+' && ch != '-'

/-- The unit of the catalog whose key is next. -/
def named (c : Catalog F) : Reader (UnitOfMeasure F) := fun cs =>
  let cs := Text.trimStart cs
  match cs with
  | [] => malformed cs
  | ch :: rest =>
    if startsName ch then
      match c.unit? (String.ofList (ch :: rest.takeWhile (!isReserved ·))) with
      | none => malformed cs
      | some u => .ok (u, rest.dropWhile (!isReserved ·))
    else malformed cs

/-- A named unit, or a unit in parentheses, given the reader of the latter. -/
def atom (c : Catalog F) (inner : Reader (UnitOfMeasure F)) : Reader (UnitOfMeasure F) := fun cs =>
  match after? '(' cs with
  | none => named c cs
  | some rest =>
    match inner rest with
    | .error e => .error e
    | .ok (u, rest) =>
      match after? ')' rest with
      | none => malformed (Text.trimStart rest)
      | some rest => .ok (u, rest)

/-- The base of the prefix that is next. -/
def prefixBase? (cs : List Char) : Option (Nat × List Char) :=
  match Text.trimStart cs with
  | '_' :: rest => some (10, rest)
  | '.' :: rest => some (2, rest)
  | ':' :: rest => some (2, rest)
  | _ => none

/-- A character as the mark of a suffix. -/
def mark? (ch : Char) (cs : List Char) : Option (Unit × List Char) := (after? ch cs).map ((), ·)

/-- A unit with an optional suffix, which is a mark and an argument after it. -/
def suffixed {α β : Type} (c : Catalog F) (operand : Reader (UnitOfMeasure F)) (suffix? : List Char → Option (β × List Char))
    (argument : Reader α) (compose : β → α → UnitOfMeasure F → Except CompositionError (UnitOfMeasure F)) :
    Reader (UnitOfMeasure F) := fun cs =>
  match operand cs with
  | .error e => .error e
  | .ok (u, rest) =>
    match suffix? rest with
    | none => .ok (u, rest)
    | some (b, rest) =>
      match argument rest with
      | .error e => .error e
      | .ok (a, rest) => (composed c [u] (compose b a u)).map (·, rest)

variable [Numeric F]

/-- A unit with an optional prefix. -/
def prefixed (c : Catalog F) (operand : Reader (UnitOfMeasure F)) : Reader (UnitOfMeasure F) :=
  suffixed c operand prefixBase? (integer (-(2 ^ (31 : Nat))) (2 ^ (31 : Nat) - 1)) fun base exponent u =>
    Composition.withPrefix c u base exponent

/-- A unit with an optional power. -/
def powered (c : Catalog F) (operand : Reader (UnitOfMeasure F)) : Reader (UnitOfMeasure F) :=
  suffixed c operand (mark? '^') number fun _ exponent u => Composition.power c u exponent

/-- A unit with an optional display as fractions. -/
def fractional (c : Catalog F) (operand : Reader (UnitOfMeasure F)) : Reader (UnitOfMeasure F) :=
  suffixed c operand (mark? '%') bounds fun _ bounds u => Composition.fractional c u bounds

/-- Units with all that may follow them, given the reader of what is in parentheses. -/
def hierarchy (c : Catalog F) (inner : Reader (UnitOfMeasure F)) : Reader (UnitOfMeasure F) :=
  composedChain c ',' (Composition.hierarchical c) (fractional c
    (composedChain c '/' (Composition.divide c) (composedChain c '*' (Composition.multiply c)
      (powered c (prefixed c (atom c inner))))))

/-- Units with parentheses nested at most so deep. -/
def nested (c : Catalog F) : Nat → Reader (UnitOfMeasure F)
  | 0 => malformed
  | depth + 1 => hierarchy c (nested c depth)

/-- The unit that a text is. -/
def read (c : Catalog F) (text : String) : Except UnitExpressionError (UnitOfMeasure F) :=
  let cs := text.toList
  match nested c (cs.length + 1) cs with
  | .error e => .error e
  | .ok (u, rest) => if (Text.trimStart rest).isEmpty then .ok u else malformed (Text.trimStart rest)

end UnitExpression

end QuantityCalculus
