import QuantityCalculus.Session

/-!
# The command line

One statement a line, from standard input with a prompt before each line, or from a script without one. Blank lines and lines that start
with `#` are skipped. Results go to standard output and errors to standard error.
-/

namespace QuantityCalculus.CommandLine

/-- What is written to standard output and to standard error. -/
structure Output where
  out : String
  err : String
  deriving DecidableEq, Repr

/-- Nothing written. -/
def Output.empty : Output := ⟨"", ""⟩

/-- What is written first, and what is written after it. -/
def Output.append (a b : Output) : Output := ⟨a.out ++ b.out, a.err ++ b.err⟩

/-- What stands before the place for a statement. -/
def prompt (interactive : Bool) : Output := ⟨if interactive then "> " else "", ""⟩

/-- The lines of a text that continues a line, of which the characters so far are given in reverse. -/
def linesAfter (line : List Char) : List Char → List (List Char)
  | [] => if line.isEmpty then [] else [line.reverse]
  | '\r' :: '\n' :: text => line.reverse :: linesAfter [] text
  | '\n' :: text => line.reverse :: linesAfter [] text
  | c :: text => linesAfter (c :: line) text

/-- The lines of a text, each without its end. What is after the last end is a line too, if it is not empty. -/
def lines (text : List Char) : List (List Char) := linesAfter [] text

/-- The statement of a line, if it has one. -/
def statement? (line : List Char) : Option String :=
  match Text.trim line with
  | [] | '#' :: _ => none
  | cs => some (String.ofList cs)

variable {F : Type} [Numeric F]

/-- What is written for a statement. -/
def answer (s : Session F) (statement : String) : Output × Session F :=
  match s.run statement with
  | (.ok a, s) => (⟨a.text s.language ++ "\n", ""⟩, s)
  | (.error e, s) => (⟨"", "error: " ++ e.message ++ "\n"⟩, s)

/-- What is written for a line. -/
def respond (s : Session F) (line : List Char) : Output × Session F :=
  match statement? line with
  | none => (.empty, s)
  | some statement => answer s statement

/-- What is written for lines, with a prompt after each one. -/
def transcript (interactive : Bool) (s : Session F) : List (List Char) → Output
  | [] => .empty
  | line :: rest =>
    let (output, s) := respond s line
    (output.append (prompt interactive)).append (transcript interactive s rest)

/-- What is written for a text, unless the settings cannot be read. -/
def run (c : Catalog F) (config : Option String) (interactive : Bool) (text : String) : Option Output :=
  let settings := match config with
    | none => some Settings.standard
    | some config => Settings.read config
  settings.map fun settings =>
    (prompt interactive).append (transcript interactive (.start c settings) (lines text.toList))

end QuantityCalculus.CommandLine
