import ScriptLint.Span
import ScriptLint.Text.Pad

/-!
# Tokens

A token is a kind, a value and the span it was read from. Keywords, operators and symbols are known
by their spelling. Names, numbers and strings are known by their kind, whatever they contain, so the
string `"("` is never taken for a parenthesis.
-/

namespace ScriptLint

/-- The kinds of token. -/
inductive TokenKind where
  | eof
  | string
  | number
  | identifier
  | keyword
  /-- A two-character operator; `&&` and `||` have the values `and` and `or`. -/
  | operator
  /-- Any other single character. -/
  | symbol
deriving DecidableEq, Repr

/-- The name of a kind of token. -/
def TokenKind.name : TokenKind → String
  | .eof => "EOF"
  | .string => "String"
  | .number => "Number"
  | .identifier => "Identifier"
  | .keyword => "Keyword"
  | .operator => "Operator"
  | .symbol => "Symbol"

/-- A token. The value of a string is the text between its quotes, with escapes as written. -/
structure Token where
  kind : TokenKind
  value : String
  span : Span
deriving DecidableEq, Repr

namespace Token

/-- The keywords that name a type in a declaration. -/
def typeKeywords : List String :=
  ["int", "float", "string", "bool", "array", "object", "any"]

/-- The keywords that begin a statement. Recovery stops in front of them. -/
def statementKeywords : List String :=
  ["var", "static", "if", "while", "do", "for", "function", "class", "return", "throw", "match",
    "try", "retry", "break", "continue"]

/-- All keywords. -/
def keywords : List String :=
  statementKeywords ++
    ["else", "elif", "case", "default", "catch", "finally", "true", "false", "nil", "and", "or",
      "not"] ++
    typeKeywords

/-- Whether a token is known by its spelling. -/
def isSpelled (token : Token) : Bool :=
  match token.kind with
  | .keyword | .operator | .symbol => true
  | .eof | .string | .number | .identifier => false

/-- Whether a token is the keyword, operator or symbol spelled `text`. -/
def is (token : Token) (text : String) : Bool :=
  token.isSpelled && token.value == text

/-- Whether a token is a keyword, operator or symbol with one of the given spellings. -/
def isAny (token : Token) (texts : List String) : Bool :=
  texts.any token.is

/-- Whether a token is a keyword that names a type. -/
def isTypeKeyword (token : Token) : Bool :=
  token.kind == .keyword && typeKeywords.contains token.value

/-- Whether a token is a keyword that begins a statement. -/
def startsStatement (token : Token) : Bool :=
  token.kind == .keyword && statementKeywords.contains token.value

/-- A token as messages show it. -/
def display (token : Token) : String :=
  match token.kind with
  | .eof => "end of input"
  | .string => "\"" ++ token.value ++ "\""
  | _ => token.value

/-- The key under which the grammar files a token: its spelling, or else its kind. -/
def key (token : Token) : String :=
  match token.kind with
  | .eof => "<eof>"
  | .string => "<string>"
  | .number => "<number>"
  | .identifier => "<identifier>"
  | _ => token.value

/-- One line of a token listing: the two offsets, the kind and the value in columns. -/
def listing (token : Token) : String :=
  Text.alignRight 4 (toString token.span.start) ++ ".." ++
    Text.alignLeft 4 (toString token.span.stop) ++ " " ++
    Text.alignLeft 10 token.kind.name ++ " " ++ token.value

/-- The token moved `amount` bytes to the right. -/
def shift (amount : Nat) (token : Token) : Token :=
  { token with span := token.span.shift amount }

end Token

end ScriptLint
