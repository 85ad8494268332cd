import ScriptLint.Diagnostic
import ScriptLint.Token.Scan

/-!
# Reading tokens

A `Reading` is how far a list of tokens has been read: the tokens behind, the tokens ahead, the mark
at the end, and the errors recorded so far. A `Read` step moves forward over tokens and either gives
a value or fails; a step that fails keeps what it has read and recorded.
-/

namespace ScriptLint

/-- The state of a reading. -/
structure Reading where
  /-- The tokens already read, the latest first. -/
  behind : List Token
  /-- The tokens still to be read. -/
  ahead : List Token
  /-- The token that stands behind all others and is never read over. -/
  mark : Token
  /-- The errors recorded so far, the earliest first. -/
  errors : Array ParseError

namespace Reading

/-- The start of a reading. The first `eof` token is the mark, and nothing behind it counts. -/
def ofTokens (tokens : List Token) : Reading where
  behind := []
  ahead := tokens.takeWhile (·.kind != .eof)
  mark := (tokens.dropWhile (·.kind != .eof)).headD (Token.endMark 0)
  errors := #[]

/-- The token to be read next. -/
def current (reading : Reading) : Token :=
  reading.ahead.headD reading.mark

/-- The reading with the current token behind it. The mark stays ahead. -/
def next (reading : Reading) : Reading :=
  match reading.ahead with
  | [] => reading
  | token :: rest => { reading with behind := token :: reading.behind, ahead := rest }

/-- The number of tokens read. -/
def position (reading : Reading) : Nat :=
  reading.behind.length

/-- The end of the token read last, or zero before the first. -/
def previousEnd (reading : Reading) : Nat :=
  match reading.behind with
  | [] => 0
  | token :: _ => token.span.stop

/-- The span from `start` to the end of the token read last. -/
def spanFrom (reading : Reading) (start : Nat) : Span :=
  ⟨start, max reading.previousEnd start⟩

end Reading

/-- A step of a reading. -/
abbrev Read := EStateM Error Reading

namespace Read

/-- The token to be read next. -/
def current : Read Token :=
  fun reading => .ok reading.current reading

/-- Reads a token, whatever it is. -/
def advance : Read Token :=
  fun reading => .ok reading.current reading.next

/-- Whether a token is left before the mark. -/
def hasTokens : Read Bool :=
  fun reading => .ok (!reading.ahead.isEmpty) reading

/-- Whether the current token is the keyword, operator or symbol spelled `text`. -/
def sees (text : String) : Read Bool :=
  fun reading => .ok (reading.current.is text) reading

/-- The span from `start` to the end of the token read last. -/
def spanFrom (start : Nat) : Read Span :=
  fun reading => .ok (reading.spanFrom start) reading

/-- Fails with a cause at the current token. -/
def failWith {α : Type} (cause : Token → Cause) : Read α :=
  fun reading => .error (.ofCause (cause reading.current) reading.current.span) reading

/-- Fails because no phrase begins with the current token. -/
def unexpected {α : Type} : Read α :=
  failWith fun token => .unexpectedToken token.display

/-- Fails because the current token is not what `detail` says is needed. -/
def unexpectedDetailed {α : Type} (detail : String) : Read α :=
  failWith fun token => .unexpectedTokenDetailed token.display detail

/-- Reads the keyword, operator or symbol spelled `text`. -/
def expect (text : String) : Read Token := do
  if ← sees text then advance
  else failWith fun token => .expectedToken text token.display

/-- Reads a name. -/
def expectIdentifier (detail : String) : Read Token := do
  if (← current).kind = .identifier then advance else unexpectedDetailed detail

/-- Reads the keyword, operator or symbol spelled `text` if it is the current token, and says
whether it was. -/
def accept (text : String) : Read Bool := do
  if ← sees text then
    let _ ← advance
    return true
  else return false

/-- Records an error without failing. -/
def record (error : ParseError) : Read Unit :=
  fun reading => .ok () { reading with errors := reading.errors.push error }

/-- Runs a step and gives its error back as a value. -/
def attempt {α : Type} (step : Read α) : Read (Except Error α) :=
  fun reading =>
    match step reading with
    | .ok value later => .ok (.ok value) later
    | .error error later => .ok (.error error) later

/-- Runs a step and makes its error fatal. -/
def fatally {α : Type} (step : Read α) : Read α :=
  fun reading =>
    match step reading with
    | .ok value later => .ok value later
    | .error error later => .error error.escalate later

/-- Runs a step with a bound for its loops: one more than the number of tokens ahead. A loop that
reads a token in every round but its last one never reaches the bound. -/
def bounded {α : Type} (step : Nat → Read α) : Read α :=
  fun reading => step (reading.ahead.length + 1) reading

/-- Reads items until `stop` holds, in at most `bound` rounds, leaving out the discarded ones. -/
def collectFrom {α : Type} (stop : Read Bool) (item : Read (Option α)) : Nat → Read (List α)
  | 0 => pure []
  | bound + 1 => do
      if ← stop then return []
      let found ← item
      let later ← collectFrom stop item bound
      return found.toList ++ later

/-- Reads items until `stop` holds, leaving out the discarded ones. -/
def collect {α : Type} (stop : Read Bool) (item : Read (Option α)) : Read (List α) :=
  bounded (collectFrom stop item)

/-- Reads items with commas between them, in at most `bound` rounds. -/
def separatedFrom {α : Type} (stop : Read Bool) (item : Read α) : Nat → Read (List α)
  | 0 => pure []
  | bound + 1 => do
      if ← stop then return []
      let found ← item
      if ← accept "," then
        let later ← separatedFrom stop item bound
        return found :: later
      else return [found]

/-- Reads items with commas between them. `stop` is asked before each item, so a comma may stand
behind the last one. -/
def separated {α : Type} (stop : Read Bool) (item : Read α) : Read (List α) :=
  bounded (separatedFrom stop item)

/-- Whether the current token is the one spelled `close`, or the end of the tokens. -/
def atClose (close : String) : Read Bool :=
  fun reading => .ok (reading.current.is close || reading.ahead.isEmpty) reading

end Read

end ScriptLint
