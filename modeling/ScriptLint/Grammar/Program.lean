import ScriptLint.Grammar.Statement

/-!
# Reading programs

`Program.parse` reads a source text into a program and the errors it recovered from. It fails with
an error that is fatal: an open string, a malformed header, or nesting beyond the limit.
-/

namespace ScriptLint

/-- A program and the errors that were recovered from while it was read. -/
structure Parsed where
  program : Program
  errors : List ParseError

namespace Program

/-- Reads statements up to the end of the tokens. -/
def readStatements (context : Context) (levels : Nat) : Read (List Stmt) :=
  Read.collect (Bool.not <$> Read.hasTokens) (Stmt.readRecovering levels context)

/-- Reads a list of tokens into the program of a source text. -/
def ofTokens (settings : Settings) (source : List Char) (tokens : List Token) :
    Except Error Parsed :=
  let context := Context.ofSettings settings source
  match readStatements context settings.maxDepth (Reading.ofTokens tokens) with
  | .ok statements reading =>
      .ok ⟨⟨statements, ⟨0, Text.byteLength source⟩⟩, reading.errors.toList⟩
  | .error error _ => .error error

/-- Reads a source text. -/
def parse (settings : Settings) (source : String) : Except Error Parsed := do
  let tokens ← Token.tokenize settings source
  ofTokens settings source.toList tokens

end Program

end ScriptLint
