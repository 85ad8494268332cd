import ScriptLint.Text.Bytes
import ScriptLint.Text.Split

/-!
# Lines of a text

`lineAt` maps a byte offset to its line and column, and `lineEnd` maps it to the end of its line.
-/

namespace ScriptLint.Text

/-- The lines of a text. A text that ends in a line feed has an empty last line. -/
def lines (text : List Char) : List (List Char) :=
  pieces '\n' text

/-- A line without the carriage returns at its end. -/
def trimReturns (line : List Char) : List Char :=
  (line.reverse.dropWhile (· == '\r')).reverse

/-- Where an offset lies: the number of its line, counted from one, the text shown for that line,
and the number of bytes before the offset on that line. -/
structure Location where
  line : Nat
  text : List Char
  column : Nat
deriving DecidableEq, Repr

/-- Finds the line that holds the byte `offset` counted from the start of the first of `lines`.
Each line owns the line feed behind it. The very end of the last line shows that line whole; every
other offset shows its line without the carriage returns at its end. -/
def locate (number offset : Nat) : List (List Char) → Location
  | [] => ⟨number, [], 0⟩
  | [last] =>
      if offset < byteLength last then ⟨number, trimReturns last, offset⟩
      else ⟨number, last, byteLength last⟩
  | line :: later =>
      if offset ≤ byteLength line then ⟨number, trimReturns line, offset⟩
      else locate (number + 1) (offset - (byteLength line + 1)) later

/-- The location of a byte offset. An offset beyond the end of the text counts as its end. -/
def lineAt (text : List Char) (offset : Nat) : Location :=
  locate 1 (min offset (byteLength text)) (lines text)

/-- The offset of the first line feed at or after `offset`, or the end of the text, where `here` is
the offset of the first character given. -/
def lineEndFrom (here offset : Nat) : List Char → Nat
  | [] => here
  | c :: rest =>
      if c = '\n' ∧ offset ≤ here then here else lineEndFrom (here + c.utf8Size) offset rest

/-- The offset of the first line feed at or after `offset`, or else the end of the text. -/
def lineEnd (text : List Char) (offset : Nat) : Nat :=
  lineEndFrom 0 offset text

end ScriptLint.Text
