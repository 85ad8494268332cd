import ScriptLint.Grammar.Forms
import ScriptLint.Grammar.Reading
import ScriptLint.Text.Line

/-!
# Nesting and recovery

What a step knows of its surroundings, the limit on nesting, and the way back after an error.

The number of levels that may still be opened is an argument that goes down by one with every level,
so a reader that recurses on it always comes to an end, and the end is the nesting error.

After an error in a statement the reading goes on at the next place where a statement may begin.
-/

namespace ScriptLint

/-- The surroundings of a step. -/
structure Context where
  grammar : Grammar
  source : List Char
  /-- The greatest number of nested phrases, as errors report it. -/
  limit : Nat
  /-- Whether the step is inside the arms of a `match` statement. -/
  inMatch : Bool

namespace Context

/-- The surroundings of a program read with the grammar of the language. -/
def ofSettings (settings : Settings) (source : List Char) : Context :=
  ⟨Grammar.standard, source, settings.maxDepth, false⟩

/-- The surroundings inside the arms of a `match` statement. -/
def enterMatch (context : Context) : Context :=
  { context with inMatch := true }

/-- The source text of a span, or nothing if the span does not cut out whole characters. -/
def sourceText (context : Context) (span : Span) : String :=
  String.ofList ((Text.slice? context.source span.start span.stop).getD [])

/-- The end of the line that holds a byte offset. -/
def lineEnd (context : Context) (offset : Nat) : Nat :=
  Text.lineEnd context.source offset

/-- Whether a token is a place where reading may go on after an error. -/
def isRestart (context : Context) (token : Token) : Bool :=
  token.isAny ["\x7b", "\x7d"] || token.startsStatement ||
    (context.inMatch && token.isAny ["case", "default"])

end Context

namespace Reading

/-- Moves tokens from `ahead` to `behind` up to a place where reading may go on, and past it if it
is a semicolon. -/
def skipOver (context : Context) (behind : List Token) : List Token → List Token × List Token
  | [] => (behind, [])
  | token :: rest =>
      if token.is ";" then (token :: behind, rest)
      else if context.isRestart token then (behind, token :: rest)
      else skipOver context (token :: behind) rest

/-- Skips the tokens ahead up to a place where reading may go on, and past it if it is a semicolon.
-/
def skipAhead (context : Context) (reading : Reading) : Reading :=
  let (behind, ahead) := skipOver context reading.behind reading.ahead
  { reading with behind := behind, ahead := ahead }

/-- Skips to a place where reading may go on after an error in a statement that begins at the token
numbered `start`. At least one token of that statement is skipped, and a semicolon is the end of
it. -/
def resync (context : Context) (start : Nat) (reading : Reading) : Reading :=
  if reading.position = start then
    if reading.current.is ";" then reading.next else reading.next.skipAhead context
  else reading.skipAhead context

end Reading

namespace Read

/-- Fails because the nesting limit is reached. -/
def tooDeep {α : Type} (context : Context) : Read α :=
  failWith fun _ => .recursionLimit context.limit

/-- Skips to a place where reading may go on after an error in a statement that begins at the token
numbered `start`. -/
def resync (context : Context) (start : Nat) : Read Unit :=
  fun reading => .ok () (reading.resync context start)

/-- Runs a step that reads a statement. An error that is not fatal is recorded, the rest of the
statement is skipped, and nothing is given back. -/
def recovering {α : Type} (context : Context) (step : Read α) : Read (Option α) := do
  let start ← get
  match ← attempt step with
  | .ok value => return some value
  | .error error =>
      if error.fatal then throw error
      else
        record (.ofError error)
        resync context start.position
        return none

end Read

end ScriptLint
