import ScriptLint.Token.Basic

/-!
# The forms of the grammar

An expression begins with a token that has a lead form, and goes on with tokens that have a tail
form. A tail form belongs to an operator with a binding power, which decides how far the operand on
its left reaches. A statement begins with a token that has a statement form, or is an expression. A
`Grammar` is the three tables.
-/

namespace ScriptLint

/-- Binding powers, the weakest first. -/
inductive Power where
  | default
  | assignment
  | or
  | and
  | equality
  | relational
  | additive
  | multiplicative
  | unary
  | call
  | member
deriving DecidableEq, Repr

/-- The place of a binding power among all of them. -/
def Power.rank : Power → Nat
  | .default => 0
  | .assignment => 1
  | .or => 2
  | .and => 3
  | .equality => 4
  | .relational => 5
  | .additive => 6
  | .multiplicative => 7
  | .unary => 8
  | .call => 9
  | .member => 10

/-- How an expression begins. -/
inductive LeadForm where
  /-- A literal or a name. -/
  | primary
  /-- An operator in front of its operand. -/
  | unary
  | grouping
  | array
  | object
deriving DecidableEq, Repr

/-- How an expression goes on behind a left operand. -/
inductive TailForm where
  | assignment
  | logical
  | binary
  | call
  | member
deriving DecidableEq, Repr

/-- How a statement begins. -/
inductive StmtForm where
  | block
  | varDecl
  | ifElse
  | whileLoop
  | doWhile
  | forLoop
  | functionDecl
  | classDecl
  | returnValue
  | throwValue
  | breakLoop
  | continueLoop
  | matchOn
  | tryCatch
  | retry
deriving DecidableEq, Repr

/-- The forms that tokens have. -/
structure Grammar where
  lead? : Token → Option LeadForm
  tail? : Token → Option (Power × TailForm)
  statement? : Token → Option StmtForm

namespace Grammar

/-- The lead form of a spelling. -/
def leadOfSpelling? : String → Option LeadForm
  | "true" | "false" | "nil" => some .primary
  | "not" | "!" | "-" => some .unary
  | "(" => some .grouping
  | "[" => some .array
  | "\x7b" => some .object
  | _ => none

/-- The lead form of a token. -/
def leadOf? (token : Token) : Option LeadForm :=
  match token.kind with
  | .number | .string | .identifier => some .primary
  | .keyword | .operator | .symbol => leadOfSpelling? token.value
  | .eof => none

/-- The tail form and the binding power of a spelling. -/
def tailOfSpelling? : String → Option (Power × TailForm)
  | "=" => some (.assignment, .assignment)
  | "or" => some (.or, .logical)
  | "and" => some (.and, .logical)
  | "==" | "!=" => some (.equality, .binary)
  | "<" | "<=" | ">" | ">=" => some (.relational, .binary)
  | "+" | "-" => some (.additive, .binary)
  | "*" | "/" | "%" => some (.multiplicative, .binary)
  | "(" => some (.call, .call)
  | "." => some (.member, .member)
  | _ => none

/-- The tail form and the binding power of a token. -/
def tailOf? (token : Token) : Option (Power × TailForm) :=
  if token.isSpelled then tailOfSpelling? token.value else none

/-- The statement form of a spelling. -/
def statementOfSpelling? : String → Option StmtForm
  | "var" | "static" => some .varDecl
  | "if" => some .ifElse
  | "while" => some .whileLoop
  | "do" => some .doWhile
  | "for" => some .forLoop
  | "function" => some .functionDecl
  | "class" => some .classDecl
  | "return" => some .returnValue
  | "throw" => some .throwValue
  | "break" => some .breakLoop
  | "continue" => some .continueLoop
  | "match" => some .matchOn
  | "try" => some .tryCatch
  | "retry" => some .retry
  | "\x7b" => some .block
  | _ => none

/-- The statement form of a token. -/
def statementOf? (token : Token) : Option StmtForm :=
  if token.isSpelled then statementOfSpelling? token.value else none

/-- The grammar of the language. -/
def standard : Grammar :=
  ⟨leadOf?, tailOf?, statementOf?⟩

/-- The grammar in which no token has a form. -/
def empty : Grammar :=
  ⟨fun _ => none, fun _ => none, fun _ => none⟩

end Grammar

end ScriptLint
