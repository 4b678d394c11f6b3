import QuantityCalculus.Evaluation
import QuantityCalculus.Expression.Parse
import QuantityCalculus.Settings

/-!
# Sessions

A session has a catalog, settings and variables. A statement is one line of text, which is split into tokens, parsed and evaluated. What
it assigns is there for later statements, also where the statement fails after the assignment.
-/

namespace QuantityCalculus

/-- Why a statement has no value. -/
inductive StatementError (F : Type) where
  | lex (cause : LexError)
  | parse (cause : ParseError F)
  | evaluation (cause : EvaluationError)

namespace StatementError

variable {F : Type}

/-- The text of the error. -/
def message [Numeric F] : StatementError F → String
  | .lex cause => cause.message
  | .parse cause => cause.message
  | .evaluation cause => cause.message

/-- Whether the statement is malformed. -/
def isSyntaxError : StatementError F → Bool
  | .lex _ | .parse _ => true
  | .evaluation _ => false

end StatementError

/-- The expression that a statement is. -/
def readStatement {F : Type} [Numeric F] (line : String) : Except (StatementError F) (Expression F) := do
  let tokens ← (lex line).mapError .lex
  (Expression.ofTokens tokens).mapError .parse

/-- What names mean to the statements of a session, and its variables. -/
structure Session (F : Type) where
  evaluator : Evaluator F
  context : Context F

namespace Session

variable {F : Type}

/-- A session without variables. -/
def start (c : Catalog F) (settings : Settings) : Session F :=
  ⟨⟨c.withLanguage settings.language, settings.rules⟩, .empty⟩

/-- The session with a further rule for ambiguous terms. -/
def addRule (s : Session F) (rule : DisambiguationRule) : Session F :=
  { s with evaluator := { s.evaluator with rules := s.evaluator.rules ++ [rule] } }

/-- The language of the session. -/
def language (s : Session F) : String := s.evaluator.catalog.language

variable [Numeric F]

/-- The value of a statement, and the session after it. -/
def run (s : Session F) (line : String) : Except (StatementError F) (Value F) × Session F :=
  match readStatement line with
  | .error e => (.error e, s)
  | .ok e =>
    let (outcome, context) := (s.evaluator.evaluate e).run s.context
    (outcome.mapError .evaluation, { s with context })

end Session

end QuantityCalculus
