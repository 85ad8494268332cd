import ScriptLint.Error

/-!
# Diagnostics

What a user is told: a message about a span, with a severity. A recovered error keeps only its
wording and its span, and becomes a diagnostic of severity `error`.
-/

namespace ScriptLint

/-- How serious a diagnostic is. -/
inductive Severity where
  | error
  | warning
  | information
  | hint
deriving DecidableEq, Repr

namespace Severity

/-- The name of a severity in structured output. -/
def name : Severity → String
  | .error => "error"
  | .warning => "warning"
  | .information => "information"
  | .hint => "hint"

/-- The word that opens a rendered diagnostic. -/
def heading : Severity → String
  | .error => "error"
  | .warning => "warning"
  | .information => "info"
  | .hint => "hint"

end Severity

/-- A message about a span of the text. -/
structure Diagnostic where
  span : Span
  message : String
  severity : Severity
deriving DecidableEq, Repr

/-- The diagnostic of severity `error` that words a cause. -/
def Diagnostic.ofCause (cause : Cause) (span : Span) : Diagnostic :=
  ⟨span, cause.message, .error⟩

/-- An error that was reported and recovered from. -/
structure ParseError where
  message : String
  span : Span
deriving DecidableEq, Repr

namespace ParseError

/-- The wording and the span of an error. -/
def ofError (error : Error) : ParseError :=
  ⟨error.message, error.span⟩

/-- The diagnostic that shows a recovered error. -/
def toDiagnostic (error : ParseError) : Diagnostic :=
  ⟨error.span, error.message, .error⟩

end ParseError

end ScriptLint
