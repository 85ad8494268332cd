import ScriptLint.Grammar.Expression
import ScriptLint.Grammar.Handling

/-!
# Reading statements

`Stmt.read` reads a statement by the form of its first token; a statement without a form is an
expression that begins with a name. It recurses on the levels that may still be opened: a statement
holds one level while it is read, and so does every conditional behind an `else`.
-/

namespace ScriptLint.Stmt

/-- The steps that read the phrases inside a statement. -/
structure Inner where
  /-- Reads an expression. -/
  expr : Read Expr
  /-- Reads a statement, given its surroundings. -/
  stmt : Context → Read Stmt
  /-- Reads a conditional that is the alternate of another one. -/
  elseIf : Read Stmt

/-- Reads a statement inside another one, and recovers from an error in it. -/
def Inner.recovered (inner : Inner) (context : Context) : Read (Option Stmt) :=
  Read.recovering context (inner.stmt context)

/-- Reads an arm of a `match` statement, and recovers from an error in it. -/
def Inner.arm (inner : Inner) (context : Context) : Read (Option MatchArm) :=
  Read.recovering context (MatchArm.read inner.expr (inner.stmt context) (inner.recovered context))

/-- Reads a statement of a given form. -/
def readForm (context : Context) (inner : Inner) : StmtForm → Read Stmt
  | .block => readBlock (inner.recovered context)
  | .varDecl => readVarDecl context inner.expr
  | .ifElse => readIfElse inner.expr (inner.recovered context) inner.elseIf
  | .whileLoop => readWhileLoop inner.expr (inner.recovered context)
  | .doWhile => readDoWhile inner.expr (inner.recovered context)
  | .forLoop => readForLoop inner.expr (inner.recovered context)
  | .functionDecl => readFunctionDecl (inner.recovered context)
  | .classDecl => readClassDecl (inner.recovered context)
  | .returnValue => readReturn inner.expr
  | .throwValue => readThrow inner.expr
  | .breakLoop => readBreak
  | .continueLoop => readContinue
  | .matchOn => readMatch inner.expr (inner.arm context.enterMatch)
  | .tryCatch => readTry (inner.recovered context)
  | .retry => readRetry inner.expr (inner.recovered context)

/-- Reads an expression that begins with a name, and a semicolon. -/
def readExpression (expr : Read Expr) : Read Stmt := do
  let token ← Read.current
  if token.kind = .identifier then
    let value ← expr
    let _ ← Read.expect ";"
    return .expression value (← Read.spanFrom token.span.start)
  else Read.unexpected

/-- Reads a statement by the form of its first token. -/
def readBy (context : Context) (inner : Inner) : Read Stmt := do
  match context.grammar.statement? (← Read.current) with
  | some form => readForm context inner form
  | none => readExpression inner.expr

mutual

/-- Reads a statement. -/
def read (levels : Nat) (context : Context) : Read Stmt :=
  match levels with
  | 0 => Read.tooDeep context
  | levels + 1 =>
      readBy context ⟨Expr.read context levels .default, read levels, readElseIf levels context⟩

/-- Reads a conditional that is the alternate of another one. -/
def readElseIf (levels : Nat) (context : Context) : Read Stmt :=
  match levels with
  | 0 => Read.tooDeep context
  | levels + 1 =>
      readIfElse (Expr.read context levels .default)
        (Read.recovering context (read levels context)) (readElseIf levels context)

end

/-- The steps inside a statement when `levels` may still be opened. -/
def inner (context : Context) (levels : Nat) : Inner :=
  ⟨Expr.read context levels .default, read levels, readElseIf levels context⟩

/-- Reads a statement, and recovers from an error in it. -/
def readRecovering (levels : Nat) (context : Context) : Read (Option Stmt) :=
  Read.recovering context (read levels context)

end ScriptLint.Stmt
