import QuantityCalculus.Catalog.Standard
import QuantityCalculus.CommandLine
import QuantityCalculus.Numeric.Binary64

/-!
# The program

A calculator with units on the command line.
-/

namespace QuantityCalculus.CommandLine

/-- What the arguments of the program ask for. -/
structure Invocation where
  config : Option String
  trace : Bool
  script : Option String
  deriving DecidableEq, Repr

/-- What arguments ask for after others, unless they cannot be understood. -/
def Invocation.extend (i : Invocation) : List String → Option Invocation
  | [] => some i
  | "--trace" :: args => if i.trace then none else extend { i with trace := true } args
  | "--config" :: path :: args | "-c" :: path :: args =>
    if i.config.isSome then none else extend { i with config := some path } args
  | path :: args =>
    if path.startsWith "-" || i.script.isSome then none else extend { i with script := some path } args

/-- The text of how the program is called. -/
def usage : String := "Usage: quantity-calculus [OPTIONS] [SCRIPT]\n"

/-- Answers each line of a stream. -/
partial def serve (interactive : Bool) (input : IO.FS.Stream) (s : Session Float) : IO Unit := do
  let line ← input.getLine
  unless line.isEmpty do
    let (output, s) := respond s ((lines line.toList).headD [])
    let output := output.append (prompt interactive)
    (← IO.getStdout).putStr output.out
    (← IO.getStdout).flush
    (← IO.getStderr).putStr output.err
    serve interactive input s

/-- Runs the program as asked for. -/
def Invocation.run (i : Invocation) : IO UInt32 := do
  let text ← i.config.mapM fun path => IO.FS.readFile path
  let some settings := (match text with | none => some Settings.standard | some text => Settings.read text)
    | do
      (← IO.getStderr).putStr "Error: the settings cannot be read\n"
      return 1
  let s : Session Float := .start Catalog.standard { settings with trace := settings.trace || i.trace }
  let interactive := i.script.isNone
  (← IO.getStdout).putStr (prompt interactive).out
  (← IO.getStdout).flush
  match i.script with
  | none => serve interactive (← IO.getStdin) s
  | some path => serve interactive (.ofHandle (← IO.FS.Handle.mk path .read)) s
  return 0

end QuantityCalculus.CommandLine

/-- The program. -/
def main (args : List String) : IO UInt32 := do
  match QuantityCalculus.CommandLine.Invocation.extend ⟨none, false, none⟩ args with
  | some i => i.run
  | none => do
    (← IO.getStderr).putStr QuantityCalculus.CommandLine.usage
    return 2
