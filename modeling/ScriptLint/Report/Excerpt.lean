import ScriptLint.Diagnostic
import ScriptLint.Text.Blank
import ScriptLint.Text.Line
import ScriptLint.Text.Pad

/-!
# Excerpts

A diagnostic as text: a heading, the place, and the source line with carets under the span. The line
is shown without the spaces and tabs in front of it. Columns count bytes, and the carets stop at the
end of the line, but there is always one.
-/

namespace ScriptLint.Report

/-- Whether a character indents a line. -/
def isIndent (c : Char) : Bool :=
  c == ' ' || c == '\t'

/-- A heading with the source line of a span under it. -/
def excerpt (heading : String) (span : Span) (source file : String) : String :=
  let place := Text.lineAt source.toList span.start
  let number := toString place.line
  let gutter := Text.alignRight (number.length + 2) "|"
  let shown := place.text.dropWhile isIndent
  let column := place.column - Text.byteLength (place.text.takeWhile isIndent)
  let carets := max (min span.length (Text.byteLength shown - column)) 1
  heading ++ "\n" ++
    "-> " ++ file ++ ":" ++ number ++ ":" ++ toString (place.column + 1) ++ "\n" ++
    gutter ++ "\n" ++
    number ++ " | " ++ String.ofList (Text.trimRight shown) ++ "\n" ++
    gutter ++ " " ++ Text.spaces column ++ String.ofList (List.replicate carets '^')

/-- A diagnostic with an excerpt of the source. -/
def diagnostic (source file : String) (diagnostic : Diagnostic) : String :=
  excerpt (diagnostic.severity.heading ++ ": " ++ diagnostic.message) diagnostic.span source file

/-- An error with its name and an excerpt of the source. -/
def error (source file : String) (error : Error) : String :=
  excerpt ("error[" ++ error.cause.name ++ "]: " ++ error.message) error.span source file

end ScriptLint.Report
