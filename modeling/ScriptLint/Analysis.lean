import ScriptLint.Grammar.Program
import ScriptLint.Typing.Checker

/-!
# Analysis

Everything that is wrong with a source: first the errors that were recovered from while it was read,
then what the checker reports of the program.
-/

namespace ScriptLint

/-- The diagnostics of a program that has been read. -/
def Parsed.diagnostics (parsed : Parsed) : List Diagnostic :=
  parsed.errors.map ParseError.toDiagnostic ++ parsed.program.check

/-- The diagnostics of a source, unless a fatal error ends its reading. -/
def analyze (settings : Settings) (source : String) : Except Error (List Diagnostic) :=
  (Program.parse settings source).map Parsed.diagnostics

end ScriptLint
