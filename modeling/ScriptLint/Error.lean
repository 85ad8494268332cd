import ScriptLint.Span

/-!
# Errors

An error is a cause at a span. Its wording is a function of the cause alone. A fatal error ends the
reading of a program; any other is reported and the reading goes on.
-/

namespace ScriptLint

/-- The part of the work that a cause belongs to. -/
inductive Category where
  | lexical
  | syntactic
  | resource
  | semantic
deriving DecidableEq, Repr

/-- The name under which a category is reported. -/
def Category.name : Category → String
  | .lexical => "Lexical"
  | .syntactic => "Syntax"
  | .resource => "Resource"
  | .semantic => "Semantic"

/-- What can be wrong with a program. Tokens are held as they are shown to the user. -/
inductive Cause where
  /-- A string literal that begins at byte `start` is never closed. -/
  | unterminatedString (start : Nat)
  /-- A token stands where no phrase can begin. -/
  | unexpectedToken (token : String)
  /-- A token stands where `detail` says what is needed. -/
  | unexpectedTokenDetailed (token detail : String)
  /-- A fixed token is needed and another one stands there. -/
  | expectedToken (expected found : String)
  /-- A variable declaration does not end in a semicolon. -/
  | missingSemicolon
  /-- The left side of an assignment is neither a name nor a member. -/
  | invalidAssignmentTarget
  /-- A match statement has a second default arm. -/
  | duplicateDefault
  /-- A phrase is nested more than `limit` levels deep. -/
  | recursionLimit (limit : Nat)
  /-- A variable is declared again. -/
  | variableAlreadyDeclared (name : String)
  /-- A static variable is written a second time. -/
  | staticReassignment (name : String)
  /-- A value does not fit the annotation of the variable it is written to. -/
  | typeMismatch (name expected received : String)
deriving DecidableEq, Repr

namespace Cause

/-- The category of a cause. -/
def category : Cause → Category
  | .unterminatedString _ => .lexical
  | .unexpectedToken _ => .syntactic
  | .unexpectedTokenDetailed _ _ => .syntactic
  | .expectedToken _ _ => .syntactic
  | .missingSemicolon => .syntactic
  | .invalidAssignmentTarget => .syntactic
  | .duplicateDefault => .syntactic
  | .recursionLimit _ => .resource
  | .variableAlreadyDeclared _ => .semantic
  | .staticReassignment _ => .semantic
  | .typeMismatch _ _ _ => .semantic

/-- The name under which a cause is reported. -/
def name : Cause → String
  | .unterminatedString _ => "UnterminatedString"
  | .unexpectedToken _ => "UnexpectedToken"
  | .unexpectedTokenDetailed _ _ => "UnexpectedTokenDetailed"
  | .expectedToken _ _ => "ExpectedToken"
  | .missingSemicolon => "MissingSemicolon"
  | .invalidAssignmentTarget => "InvalidAssignmentTarget"
  | .duplicateDefault => "DuplicateDefault"
  | .recursionLimit _ => "RecursionLimit"
  | .variableAlreadyDeclared _ => "VariableAlreadyDeclared"
  | .staticReassignment _ => "StaticReassignment"
  | .typeMismatch _ _ _ => "TypeMatchError"

/-- The wording of a cause. -/
def message : Cause → String
  | .unterminatedString start =>
      "unterminated string literal starting at offset " ++ toString start
  | .unexpectedToken token => "unexpected token `" ++ token ++ "`"
  | .unexpectedTokenDetailed token detail => "unexpected token `" ++ token ++ "`: " ++ detail
  | .expectedToken expected found =>
      "expected `" ++ expected ++ "` but found `" ++ found ++ "`"
  | .missingSemicolon => "missing semicolon after variable declaration"
  | .invalidAssignmentTarget => "invalid assignment target"
  | .duplicateDefault => "match statement already has a default case"
  | .recursionLimit limit => "nesting exceeds the maximum depth of " ++ toString limit
  | .variableAlreadyDeclared name => "variable '" ++ name ++ "' is already declared"
  | .staticReassignment name => "cannot reassign static variable '" ++ name ++ "'"
  | .typeMismatch name expected received =>
      "types do not match for '" ++ name ++ "': expected '" ++ expected ++ "', received '" ++
        received ++ "'"

end Cause

/-- A cause at a place in the text, and whether it ends the reading. -/
structure Error where
  cause : Cause
  span : Span
  fatal : Bool
deriving DecidableEq, Repr

namespace Error

/-- A fresh error. Lexical and resource causes are fatal from the start. -/
def ofCause (cause : Cause) (span : Span) : Error :=
  ⟨cause, span, cause.category == .lexical || cause.category == .resource⟩

/-- The same error, made fatal. -/
def escalate (error : Error) : Error :=
  { error with fatal := true }

/-- The wording of an error. -/
def message (error : Error) : String :=
  error.cause.message

end Error

end ScriptLint
