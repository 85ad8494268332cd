import ScriptLint.Grammar.Control

/-!
# Reading `match`, `try` and `retry`

An arm of a `match` that cannot be read is recorded and skipped like a statement. The first default
arm counts; every later one is read, recorded and dropped.
-/

namespace ScriptLint

/-- Reads the handler of a `try` or `retry` statement. -/
def CatchClause.read (stmt : Read (Option Stmt)) : Read (CatchClause Stmt) := do
  let opening ← Read.advance
  let _ ← Read.expect "("
  let parameter ← Read.expectIdentifier "expected catch parameter name"
  let _ ← Read.expect ")"
  let body ← Block.read false stmt
  return ⟨parameter.value, body, ← Read.spanFrom opening.span.start⟩

/-- Reads the closing part of a `try` statement. -/
def FinallyClause.read (stmt : Read (Option Stmt)) : Read (FinallyClause Stmt) := do
  let opening ← Read.advance
  let body ← Block.read false stmt
  return ⟨body, ← Read.spanFrom opening.span.start⟩

/-- An arm of a `match` statement. A default arm keeps the span of its keyword. -/
inductive MatchArm where
  | test (content : MatchCase Stmt)
  | otherwise (body : Stmt) (keyword : Span)

namespace MatchArm

/-- Reads the body of an arm: a block, or else one statement by `single`. -/
def readBody (single : Read Stmt) (stmt : Read (Option Stmt)) : Read Stmt := do
  if ← Read.sees "\x7b" then Stmt.readBlock stmt else single

/-- Reads an arm. -/
def read (expr : Read Expr) (single : Read Stmt) (stmt : Read (Option Stmt)) :
    Read MatchArm := do
  if ← Read.sees "case" then
    let opening ← Read.advance
    let test ← expr
    let _ ← Read.expect "=>"
    let consequent ← readBody single stmt
    return .test ⟨test, consequent, ← Read.spanFrom opening.span.start⟩
  else if ← Read.sees "default" then
    let opening ← Read.advance
    let _ ← Read.expect "=>"
    let body ← readBody single stmt
    return .otherwise body opening.span
  else Read.unexpectedDetailed "expected `case` or `default`"

/-- Reads arms up to the closing brace, in at most `bound` rounds, and gives the tested arms and the
default arm. `seen` says whether there was a default arm before. -/
def collectFrom (arm : Read (Option MatchArm)) (seen : Bool) :
    Nat → Read (List (MatchCase Stmt) × Option Stmt)
  | 0 => pure ([], none)
  | bound + 1 => do
      if ← Read.atClose "\x7d" then return ([], none)
      match ← arm with
      | none => collectFrom arm seen bound
      | some (.test content) =>
          let (cases, fallback) ← collectFrom arm seen bound
          return (content :: cases, fallback)
      | some (.otherwise body keyword) =>
          if seen then
            Read.record (.ofError (.ofCause .duplicateDefault keyword))
            collectFrom arm seen bound
          else
            let (cases, _) ← collectFrom arm true bound
            return (cases, some body)

end MatchArm

namespace Stmt

/-- Reads a `match` statement, given the step `arm` that reads an arm, or nothing where an error was
recovered from. -/
def readMatch (expr : Read Expr) (arm : Read (Option MatchArm)) : Read Stmt := do
  let opening ← Read.advance
  let discriminant ← readCondition expr
  let _ ← Read.expect "\x7b"
  let (cases, fallback) ← Read.bounded (MatchArm.collectFrom arm false)
  let _ ← Read.expect "\x7d"
  return .matchOn discriminant cases fallback (← Read.spanFrom opening.span.start)

/-- Reads the handler of a `try` or `retry` statement, if there is one. -/
def readHandler (stmt : Read (Option Stmt)) : Read (Option (CatchClause Stmt)) := do
  if ← Read.sees "catch" then some <$> CatchClause.read stmt else return none

/-- Reads the closing part of a `try` statement, if there is one. -/
def readFinalizer (stmt : Read (Option Stmt)) : Read (Option (FinallyClause Stmt)) := do
  if ← Read.sees "finally" then some <$> FinallyClause.read stmt else return none

/-- Reads a `try` statement. -/
def readTry (stmt : Read (Option Stmt)) : Read Stmt := do
  let opening ← Read.advance
  let body ← Block.read false stmt
  let handler ← readHandler stmt
  let finalizer ← readFinalizer stmt
  return .tryCatch body handler finalizer (← Read.spanFrom opening.span.start)

/-- Reads a `retry` statement. -/
def readRetry (expr : Read Expr) (stmt : Read (Option Stmt)) : Read Stmt := do
  let opening ← Read.advance
  let count ← readCondition expr
  let body ← Block.read false stmt
  let handler ← readHandler stmt
  return .retry count body handler (← Read.spanFrom opening.span.start)

end Stmt

end ScriptLint
