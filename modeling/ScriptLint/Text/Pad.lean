/-!
# Padding

Fixed-width columns. A text that is already wide enough is left as it is; width counts characters.
-/

namespace ScriptLint.Text

/-- `count` spaces. -/
def spaces (count : Nat) : String :=
  String.ofList (List.replicate count ' ')

/-- The text moved to the right end of a column. -/
def alignRight (width : Nat) (text : String) : String :=
  spaces (width - text.length) ++ text

/-- The text at the left end of a column. -/
def alignLeft (width : Nat) (text : String) : String :=
  text ++ spaces (width - text.length)

end ScriptLint.Text
