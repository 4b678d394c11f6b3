import QuantityCalculus.Bounds
import QuantityCalculus.Span
import QuantityCalculus.Text.Blank
import QuantityCalculus.Text.DecimalDigit

/-!
# Cursors

A cursor is a place between two characters of a text: with the whole text it keeps what is ahead and the offset of that in bytes.
Readers move it forward over what they accept and leave it where it is otherwise; `seek` moves it to any place that is an offset in
bytes.
-/

namespace QuantityCalculus

/-- A place in a text. -/
structure Cursor where
  /-- The whole text. -/
  text : List Char
  /-- The characters still to be read. -/
  ahead : List Char
  /-- The offset in bytes of what is still to be read. -/
  position : Nat
  deriving DecidableEq, Repr

/-- A part of a text that was read. -/
structure Reading where
  text : List Char
  span : Span
  deriving DecidableEq, Repr

/-- What a pattern finds at the start of a text: how many characters, and the parts that its groups stand for. -/
structure PatternMatch where
  length : Nat
  groups : List (Option (List Char))
  deriving DecidableEq, Repr

/-- A pattern looks at the start of a text. -/
abbrev Pattern := List Char → Option PatternMatch

/-- Any number of decimal digits of any script. -/
def Pattern.digits : Pattern := fun cs =>
  some ⟨(cs.takeWhile Text.isDecimalDigit).length, []⟩

/-- Lower-case ASCII letters, which are the first group, and after them ASCII digits, which are the second one if there are
any. -/
def Pattern.label : Pattern := fun cs =>
  let isLetter (c : Char) : Bool := 'a' ≤ c && c ≤ 'z'
  let letters := cs.takeWhile isLetter
  let digits := (cs.dropWhile isLetter).takeWhile Char.isDigit
  if letters.isEmpty then none
  else some ⟨letters.length + digits.length, [some letters, if digits.isEmpty then none else some digits]⟩

/-- One blank or more. -/
def Pattern.blanks : Pattern := fun cs =>
  let blanks := cs.takeWhile Text.isBlank
  if blanks.isEmpty then none else some ⟨blanks.length, []⟩

/-- A text split after a number of bytes. A character that the bytes end within belongs to the first part. -/
def splitBytes : Nat → List Char → List Char × List Char
  | _, [] => ([], [])
  | bytes, c :: cs =>
    if bytes = 0 then ([], c :: cs)
    else
      let (before, after) := splitBytes (bytes - c.utf8Size) cs
      (c :: before, after)

namespace Cursor

/-- The place before the first character. -/
def start (text : List Char) : Cursor := ⟨text, text, 0⟩

/-- The length of the whole text in bytes. -/
def length (c : Cursor) : Nat := byteLength c.text

/-- Whether everything was read. -/
def atEnd (c : Cursor) : Bool := c.ahead.isEmpty

/-- The next character. -/
def peek? (c : Cursor) : Option Char := c.ahead.head?

/-- The cursor at an offset in bytes, at most at the end. -/
def seek (c : Cursor) (position : Nat) : Cursor :=
  let position := clamp position 0 c.length
  ⟨c.text, (splitBytes position c.text).2, position⟩

/-- The text in the next bytes, or all that is left if that is less, with the cursor after it. -/
def advance (c : Cursor) (bytes : Nat) : Reading × Cursor :=
  let bytes := min bytes (byteLength c.ahead)
  let (before, after) := splitBytes bytes c.ahead
  let stop := c.position + bytes
  (⟨before, ⟨c.position, stop⟩⟩, ⟨c.text, after, stop⟩)

/-- The next character, if there is one. -/
def readChar (c : Cursor) : Option (Reading × Cursor) :=
  c.peek?.map fun ch => c.advance ch.utf8Size

/-- A given text, if it is next. -/
def readLiteral (c : Cursor) (literal : List Char) : Option (Reading × Cursor) :=
  if literal.isPrefixOf c.ahead then some (c.advance (byteLength literal)) else none

/-- What a match covers, with the cursor after it. -/
def advanceOver (c : Cursor) (found : PatternMatch) : Reading × Cursor :=
  c.advance (byteLength (c.ahead.take found.length))

/-- What a pattern finds, if that is not empty. -/
def readPattern (c : Cursor) (pattern : Pattern) : Option (Reading × Cursor) :=
  match pattern c.ahead with
  | none => none
  | some found => if found.length == 0 then none else some (c.advanceOver found)

/-- What a pattern and its groups find, which may be empty. -/
def readGroups (c : Cursor) (pattern : Pattern) : Option (Reading × List (Option (List Char)) × Cursor) :=
  (pattern c.ahead).map fun found =>
    let (reading, after) := c.advanceOver found
    (reading, found.groups, after)

/-- The cursor after the blanks that are next. -/
def skipBlanks (c : Cursor) : Cursor :=
  match c.readPattern .blanks with
  | none => c
  | some (_, after) => after

end Cursor

end QuantityCalculus
