import ScriptLint.Error
import ScriptLint.Settings
import ScriptLint.Token.Lexeme

/-!
# The tokens of a source

`Token.scan` cuts a text into lexemes, drops the blank ones and gives the others their byte spans.
It ends with an `eof` token of no length, and fails only at a string that is never closed.
-/

namespace ScriptLint.Token

/-- The mark behind the last token of a text that ends at byte `offset`. -/
def endMark (offset : Nat) : Token :=
  ⟨.eof, "", ⟨offset, offset⟩⟩

/-- The error of a string that opens a text of which `rest` is left at byte `offset`. -/
def unterminated (offset : Nat) (rest : List Char) : Error :=
  .ofCause (.unterminatedString offset) ⟨offset, offset + Text.byteLength rest⟩

/-- The tokens of a text that begins at byte `offset`. -/
def scan (fold : Bool) (offset : Nat) (text : List Char) : Except Error (List Token) :=
  match text with
  | [] => .ok [endMark offset]
  | c :: rest =>
      let lexeme := Lexeme.next fold c rest
      let stop := offset + Text.byteLength lexeme.text
      match lexeme.piece with
      | .blank => scan fold stop lexeme.rest
      | .token kind value => (scan fold stop lexeme.rest).map (⟨kind, value, ⟨offset, stop⟩⟩ :: ·)
      | .openString => .error (unterminated offset lexeme.text)
termination_by text.length
decreasing_by
  all_goals exact Lexeme.length_rest_lt fold c rest

/-- The tokens of a source. -/
def tokenize (settings : Settings) (source : String) : Except Error (List Token) :=
  scan settings.foldNegative 0 source.toList

/-- A text with nothing in it has only the end mark. -/
theorem scan_nil (fold : Bool) (offset : Nat) : scan fold offset [] = .ok [endMark offset] := by
  rw [scan]

end ScriptLint.Token
