import QuantityCalculus.Conversion
import QuantityCalculus.Text.Trim

/-!
# Conversion instructions

Instructions are steps with blanks between them, each an arithmetic sign and a number. Towards the base unit the steps are done one
after another, and back they are undone in the reverse order. Degrees Fahrenheit are `-32 *5 /9 +273.15`.
-/

namespace QuantityCalculus

/-- A step towards the base unit. -/
inductive Step (F : Type) where
  | mul (a : F)
  | div (a : F)
  | add (a : F)
  | sub (a : F)
  deriving Repr

namespace Step

variable {F : Type} [Numeric F]

/-- The step that a word is. -/
def read? : List Char → Option (Step F)
  | [] => none
  | sign :: numeral =>
    (Numeric.read numeral).bind fun a =>
      match sign with
      | '*' => some (.mul a)
      | '/' => some (.div a)
      | '+' => some (.add a)
      | '-' => some (.sub a)
      | _ => none

/-- The number after a step. -/
def apply : Step F → F → F
  | .mul a, x => x * a
  | .div a, x => x / a
  | .add a, x => x + a
  | .sub a, x => x - a

/-- The number before a step. -/
def undo : Step F → F → F
  | .mul a, x => x / a
  | .div a, x => x * a
  | .add a, x => x - a
  | .sub a, x => x + a

end Step

/-- The text of instructions. -/
structure Instructions where
  source : String
  deriving DecidableEq, Repr

namespace Instructions

variable {F : Type} [Numeric F]

/-- The steps that some words are; the first word that is none is an error of the whole. -/
def readSteps (source : String) : List (List Char) → Except ConversionError (List (Step F))
  | [] => .ok []
  | word :: words =>
    match Step.read? word with
    | none => .error (.badInstructions source (String.ofList word))
    | some step => (readSteps source words).map (step :: ·)

/-- The steps of instructions. -/
def steps (i : Instructions) : Except ConversionError (List (Step F)) :=
  readSteps i.source (Text.words i.source.toList)

end Instructions

namespace Step

variable {F : Type} [Numeric F]

/-- The conversion by steps. -/
def transform (steps : List (Step F)) : Transform F :=
  .ofNumeric (fun x => steps.foldl (fun x step => step.apply x) x)
    (fun x => steps.reverse.foldl (fun x step => step.undo x) x)

/-- A scale after a further step, if that is one of scaling. -/
def scale? : Step F → Ratio F → Option (Ratio F)
  | .mul a, r => some ⟨r.multiplier * a, r.divisor⟩
  | .div a, r => some ⟨r.multiplier, r.divisor * a⟩
  | .add _, _ => none
  | .sub _, _ => none

/-- The scale that steps amount to, if all of them are steps of scaling. -/
def ratio? (steps : List (Step F)) : Option (Ratio F) :=
  steps.foldlM (fun r step => step.scale? r) .one

end Step

end QuantityCalculus
