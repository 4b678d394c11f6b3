import QuantityCalculus.Decimal.Scan
import QuantityCalculus.Text.Blank
import QuantityCalculus.Text.CurrencySign
import QuantityCalculus.Text.LongestMatch
import QuantityCalculus.Text.Numeral
import QuantityCalculus.Token

/-!
# Reading tokens

A text is read from left to right. Blanks separate tokens and mean nothing else; at any other character one token is read, as long
as its kind allows: punctuation, a quoted string, a number, a word, or an operator. A reader is given the first character of its
token and what follows, and answers how many of the following characters belong to the token as well, so that reading always
moves on.
-/

namespace QuantityCalculus

/-- Why a text has no token at some place. -/
inductive ScanError where
  | unexpectedChar (c : Char)
  | unterminatedString
  | badNumber (text : String)
  deriving DecidableEq, Repr

/-- A reason together with the place where it was met. -/
structure LexError where
  reason : ScanError
  offset : Nat
  deriving DecidableEq, Repr

/-- The text of a lexing error. -/
def LexError.message (e : LexError) : String :=
  match e.reason with
  | .unexpectedChar c => "Unexpected '" ++ String.singleton c ++ "' at " ++ toString e.offset
  | .unterminatedString => "Unterminated string literal starting at " ++ toString e.offset
  | .badNumber text => "Malformed number '" ++ text ++ "' at " ++ toString e.offset

namespace Lexeme

variable {F : Type} [Numeric F]

/-- A lexeme, and how many characters after its first one belong to it. -/
abbrev Scanned (F : Type) := Lexeme F × Nat

/-- The lexeme of a character that is a token by itself. -/
def ofPunctuation? : Char → Option (Lexeme F)
  | '(' => some .leftParen
  | ')' => some .rightParen
  | '[' => some (.leftBracket .square)
  | '\x7b' => some (.leftBracket .curly)
  | ']' => some (.rightBracket .square)
  | '\x7d' => some (.rightBracket .curly)
  | ',' => some .comma
  | ';' => some .semicolon
  | '∞' => some (.number Numeric.infinity)
  | _ => none

/-- A character that opens and closes strings. -/
def isQuote (c : Char) : Bool :=
  c == '\'' || c == '"' || c == '\x60'

/-- What stands before the closing quote. A backslash takes the next character with it, which must not be a line feed. -/
def stringBody? (quote : Char) : List Char → Option (List Char)
  | [] => none
  | '\\' :: c :: cs => if c == '\n' then none else (stringBody? quote cs).map fun body => '\\' :: c :: body
  | c :: cs => if c == '\\' then none else if c == quote then some [] else (stringBody? quote cs).map (c :: ·)

/-- The character that a backslash makes of the one after it. -/
def escaped : Char → Char
  | 'n' => '\n'
  | 't' => '\t'
  | 'r' => '\r'
  | '0' => '\x00'
  | c => c

/-- The text with each backslash and the character after it replaced by what they stand for. -/
def unescape : List Char → List Char
  | [] => []
  | '\\' :: c :: cs => escaped c :: unescape cs
  | c :: cs => c :: unescape cs

/-- The string that a quote opens. -/
def scanString (quote : Char) (cs : List Char) : Except ScanError (Scanned F) :=
  match stringBody? quote cs with
  | none => .error .unterminatedString
  | some body => .ok (.string (String.ofList (unescape body)), body.length + 1)

/-- The exponent at the start of a text, if there is one: its sign and digits, after the character that marks it. -/
def spanExponent? : List Char → Option (List Char)
  | [] => none
  | c :: cs =>
    if c == 'e' || c == 'E' || c == '_' then (Decimal.spanInteger? cs).map (·.1) else none

/-- The number at the start of a text, if one starts there. -/
def scanNumber? (cs : List Char) : Option (Except ScanError (Scanned F)) :=
  (Decimal.spanMantissa? cs).map fun (mantissa, rest) =>
    let (numeral, length) := match spanExponent? rest with
      | none => (mantissa, mantissa.length)
      | some exponent => (mantissa ++ 'e' :: exponent, mantissa.length + 1 + exponent.length)
    match Numeric.read numeral with
    | some x => .ok (.number x, length - 1)
    | none => .error (.badNumber (String.ofList (cs.take length)))

/-- A character that starts an ordinary name. -/
def startsName (c : Char) : Bool :=
  Text.isLetter c || c == '°'

/-- A character that continues an ordinary name. -/
def continuesName (c : Char) : Bool :=
  Text.isLetter c || Text.isNumeral c || c == '°'

/-- The lexeme of a word: a constant, a truth value or an operator if the word is reserved, else a name. -/
def ofWord (word : String) : Lexeme F :=
  match word with
  | "inf" => .number Numeric.infinity
  | "nan" => .number Numeric.notANumber
  | "pi" | "π" => .number Numeric.pi
  | "e" => .number Numeric.e
  | "true" => .boolean true
  | "false" => .boolean false
  | "at" | "to" | "in" => .operator word
  | _ => .identifier word

/-- The word that a character starts: a currency sign and letters, or a name. -/
def scanWord? (c : Char) (cs : List Char) : Option (Scanned F) :=
  if Text.isCurrencySign c then
    let letters := cs.takeWhile Text.isLetter
    some (ofWord (String.ofList (c :: letters)), letters.length)
  else if startsName c then
    let rest := cs.takeWhile continuesName
    some (ofWord (String.ofList (c :: rest)), rest.length)
  else none

/-- The symbols that are read as operators. -/
def operatorSymbols (table : OperatorTable) : List String :=
  (table.operators.filter fun o => !o.isWord).map (·.symbol) ++ UnaryOp.symbols

/-- The longest operator symbol at the start of a text. -/
def scanOperator? (table : OperatorTable) (cs : List Char) : Option (Scanned F) :=
  (Text.longestMatch? ((operatorSymbols table).map String.toList) cs).map fun symbol =>
    (.operator (String.ofList symbol), symbol.length - 1)

/-- The token that starts with the character `c`, which is not blank. -/
def scan (table : OperatorTable) (c : Char) (cs : List Char) : Except ScanError (Scanned F) :=
  match ofPunctuation? c with
  | some lexeme => .ok (lexeme, 0)
  | none =>
    if isQuote c then scanString c cs
    else
      match scanNumber? (c :: cs) with
      | some result => result
      | none =>
        match (scanWord? c cs).or (scanOperator? table (c :: cs)) with
        | some scanned => .ok scanned
        | none => .error (.unexpectedChar c)

end Lexeme

/-- The tokens of a text that starts at a byte offset. -/
def Token.scanFrom {F : Type} [Numeric F] (table : OperatorTable) (offset : Nat) :
    List Char → Except LexError (List (Token F))
  | [] => .ok []
  | c :: cs =>
    if Text.isBlank c then Token.scanFrom table (offset + c.utf8Size) cs
    else
      match Lexeme.scan table c cs with
      | .error reason => .error ⟨reason, offset⟩
      | .ok (lexeme, more) =>
        let stop := offset + byteLength (c :: cs.take more)
        match Token.scanFrom table stop (cs.drop more) with
        | .error e => .error e
        | .ok tokens => .ok (⟨lexeme, offset, stop⟩ :: tokens)
termination_by cs => cs.length
decreasing_by
  · simp
  · simp only [List.length_drop, List.length_cons]
    omega

/-- The tokens of a text, by a table of operators. -/
def Token.scanAll {F : Type} [Numeric F] (table : OperatorTable) (text : String) : Except LexError (List (Token F)) :=
  Token.scanFrom table 0 text.toList

/-- The tokens of a text of the expression language. -/
def lex {F : Type} [Numeric F] (text : String) : Except LexError (List (Token F)) :=
  Token.scanAll .common text

end QuantityCalculus
