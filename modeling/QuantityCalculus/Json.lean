/-!
# JSON documents

The tree of a JSON document, as far as settings need it: numbers have no value. A text may name surrogates by escapes; where they do
not pair up, it is kept as a text without a value, so that a member that nobody asks for may hold it, also as a key.
-/

namespace QuantityCalculus

/-- A JSON document. -/
inductive Json where
  | null
  | boolean (b : Bool)
  | number
  | string (text : Option String)
  | array (elems : List Json)
  | object (members : List (Option String × Json))
  deriving Repr

namespace Json

/-- What reads something at the start of a text, and leaves the rest. -/
abbrev Reader (α : Type) := List Char → Option (α × List Char)

/-- Whether a character may stand between the parts of a document. -/
def isBlank (c : Char) : Bool :=
  c == ' ' || c == '\t' || c == '\n' || c == '\r'

/-- The text without blanks at its start. -/
def skipBlanks (cs : List Char) : List Char := cs.dropWhile isBlank

/-- What follows one digit or more. -/
def afterDigits? : List Char → Option (List Char)
  | c :: cs => if c.isDigit then some (cs.dropWhile Char.isDigit) else none
  | [] => none

/-- What follows the places of a number, if it has any. -/
def afterPlaces? : List Char → Option (List Char)
  | '.' :: cs => afterDigits? cs
  | cs => some cs

/-- What follows the exponent of a number, if it has one. -/
def afterExponent? : List Char → Option (List Char)
  | 'e' :: cs | 'E' :: cs =>
    match cs with
    | '+' :: cs | '-' :: cs => afterDigits? cs
    | cs => afterDigits? cs
  | cs => some cs

/-- What follows a number without sign, whose whole part has no leading zero. -/
def afterMagnitude? (cs : List Char) : Option (List Char) :=
  (match cs with
    | '0' :: cs => some cs
    | cs => afterDigits? cs).bind fun cs => (afterPlaces? cs).bind afterExponent?

/-- What follows a number. -/
def afterNumber? : List Char → Option (List Char)
  | '-' :: cs => afterMagnitude? cs
  | cs => afterMagnitude? cs

/-- The value of a hexadecimal digit. -/
def hexDigit? (c : Char) : Option Nat :=
  if c.isDigit then some (c.toNat - '0'.toNat)
  else if 'a' ≤ c ∧ c ≤ 'f' then some (c.toNat - 'a'.toNat + 10)
  else if 'A' ≤ c ∧ c ≤ 'F' then some (c.toNat - 'A'.toNat + 10)
  else none

/-- The number with several hexadecimal digits. -/
def hexNumber? (cs : List Char) : Option Nat :=
  cs.foldlM (fun n c => (hexDigit? c).map (16 * n + ·)) 0

/-- What a letter after a backslash stands for. -/
def escaped? : Char → Option Char
  | '"' => some '"'
  | '\\' => some '\\'
  | '/' => some '/'
  | 'b' => some '\x08'
  | 'f' => some '\x0c'
  | 'n' => some '\n'
  | 'r' => some '\r'
  | 't' => some '\t'
  | _ => none

/-- The characters and surrogates of a text up to its closing quote. -/
def units : Reader (List Nat)
  | '"' :: cs => some ([], cs)
  | '\\' :: 'u' :: h₁ :: h₂ :: h₃ :: h₄ :: cs => do
    let u ← hexNumber? [h₁, h₂, h₃, h₄]
    let (us, rest) ← units cs
    return (u :: us, rest)
  | '\\' :: c :: cs => do
    let c ← escaped? c
    let (us, rest) ← units cs
    return (c.toNat :: us, rest)
  | c :: cs =>
    if c.toNat < 0x20 then none
    else (units cs).map fun (us, rest) => (c.toNat :: us, rest)
  | [] => none

/-- Whether a number is the first of a pair of surrogates. -/
def isHighSurrogate (u : Nat) : Bool := 0xD800 ≤ u && u < 0xDC00

/-- Whether a number is the second of a pair of surrogates. -/
def isLowSurrogate (u : Nat) : Bool := 0xDC00 ≤ u && u < 0xE000

/-- The character of a pair of surrogates. -/
def ofSurrogates (high low : Nat) : Char :=
  Char.ofNat (0x10000 + (high - 0xD800) * 0x400 + (low - 0xDC00))

/-- The characters of a text in which all surrogates pair up. -/
def charsOfUnits? : List Nat → Option (List Char)
  | [] => some []
  | [u] => if isHighSurrogate u || isLowSurrogate u then none else some [Char.ofNat u]
  | u :: v :: us =>
    if isHighSurrogate u then
      if isLowSurrogate v then (charsOfUnits? us).map (ofSurrogates u v :: ·) else none
    else if isLowSurrogate u then none
    else (charsOfUnits? (v :: us)).map (Char.ofNat u :: ·)

/-- The text up to a closing quote. -/
def text : Reader (Option String) := fun cs =>
  (units cs).map fun (us, rest) => ((charsOfUnits? us).map String.ofList, rest)

/-- The key of a member and the colon after it. -/
def key : Reader (Option String) := fun cs =>
  match skipBlanks cs with
  | '"' :: cs => do
    let (key, rest) ← text cs
    match skipBlanks rest with
    | ':' :: rest => return (key, rest)
    | _ => none
  | _ => none

mutual

/-- A document with a bound on its nesting and on the length of its lists. -/
def document : Nat → Reader Json
  | 0, _ => none
  | bound + 1, cs =>
    match skipBlanks cs with
    | 'n' :: 'u' :: 'l' :: 'l' :: rest => some (.null, rest)
    | 't' :: 'r' :: 'u' :: 'e' :: rest => some (.boolean true, rest)
    | 'f' :: 'a' :: 'l' :: 's' :: 'e' :: rest => some (.boolean false, rest)
    | '"' :: rest => (text rest).map fun (s, rest) => (.string s, rest)
    | '[' :: rest =>
      match skipBlanks rest with
      | ']' :: rest => some (.array [], rest)
      | rest => (elements bound rest).map fun (elems, rest) => (.array elems, rest)
    | '\x7b' :: rest =>
      match skipBlanks rest with
      | '\x7d' :: rest => some (.object [], rest)
      | rest => (members bound rest).map fun (members, rest) => (.object members, rest)
    | cs => (afterNumber? cs).map fun rest => (.number, rest)

/-- The elements of an array and its closing bracket. -/
def elements : Nat → Reader (List Json)
  | 0, _ => none
  | bound + 1, cs => do
    let (j, rest) ← document bound cs
    match skipBlanks rest with
    | ',' :: rest =>
      let (js, rest) ← elements bound rest
      return (j :: js, rest)
    | ']' :: rest => return ([j], rest)
    | _ => none

/-- The members of an object and its closing bracket. -/
def members : Nat → Reader (List (Option String × Json))
  | 0, _ => none
  | bound + 1, cs => do
    let (key, rest) ← key cs
    let (j, rest) ← document bound rest
    match skipBlanks rest with
    | ',' :: rest =>
      let (js, rest) ← members bound rest
      return ((key, j) :: js, rest)
    | '\x7d' :: rest => return ([(key, j)], rest)
    | _ => none

end

/-- The document that a text is. Each nested list takes a bracket, and each further element a comma. -/
def read (s : String) : Option Json :=
  match document (2 * s.length + 2) s.toList with
  | some (j, rest) => if (skipBlanks rest).isEmpty then some j else none
  | none => none

/-- The text that a document is. -/
def string? : Json → Option String
  | .string s => s
  | _ => none

/-- The truth value that a document is. -/
def boolean? : Json → Option Bool
  | .boolean b => some b
  | _ => none

/-- The elements of an array. -/
def elems? : Json → Option (List Json)
  | .array elems => some elems
  | _ => none

/-- The members of an object, if every key has a value. -/
def members? : Json → Option (List (String × Json))
  | .object members => members.mapM fun (key, j) => key.map (·, j)
  | _ => none

/-- The member of an object under a key, if there is one; none at all is the result where there are several. -/
def member? (members : List (String × Json)) (key : String) : Option (Option Json) :=
  match members.filter (·.1 == key) with
  | [] => some none
  | [(_, j)] => some (some j)
  | _ => none

end Json

end QuantityCalculus
