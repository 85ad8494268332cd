import ScriptLint.Grammar.Declaration

/-!
# Reading control statements

Conditionals, loops and jumps. `expr` reads an expression and `stmt` a statement, or nothing where
an error was recovered from. Every error in the header of a `for` loop is fatal.
-/

namespace ScriptLint.Stmt

/-- Reads an expression in parentheses. -/
def readCondition (expr : Read Expr) : Read Expr := do
  let _ ← Read.expect "("
  let test ← expr
  let _ ← Read.expect ")"
  return test

/-- Reads what follows the consequent of an `if`: nothing, a block behind `else`, or, by `elseIf`,
another conditional that begins with `if` or `elif`. -/
def readAlternate (stmt : Read (Option Stmt)) (elseIf : Read Stmt) : Read (Option Stmt) := do
  if ← Read.accept "else" then
    if ← Read.sees "if" then some <$> elseIf
    else some <$> readBlock stmt
  else if ← Read.sees "elif" then some <$> elseIf
  else return none

/-- Reads a conditional. -/
def readIfElse (expr : Read Expr) (stmt : Read (Option Stmt)) (elseIf : Read Stmt) :
    Read Stmt := do
  let opening ← Read.advance
  let test ← readCondition expr
  let consequent ← Block.read false stmt
  let alternate ← readAlternate stmt elseIf
  return .ifElse test consequent alternate (← Read.spanFrom opening.span.start)

/-- Reads a loop with its test in front. -/
def readWhileLoop (expr : Read Expr) (stmt : Read (Option Stmt)) : Read Stmt := do
  let opening ← Read.advance
  let test ← readCondition expr
  let body ← Block.read false stmt
  return .whileLoop test body (← Read.spanFrom opening.span.start)

/-- Reads a loop with its test behind, and a semicolon if there is one. -/
def readDoWhile (expr : Read Expr) (stmt : Read (Option Stmt)) : Read Stmt := do
  let opening ← Read.advance
  let body ← Block.read false stmt
  let _ ← Read.expect "while"
  let test ← readCondition expr
  let _ ← Read.accept ";"
  return .doWhile body test (← Read.spanFrom opening.span.start)

/-- Reads an expression unless the current token is the one spelled `close`. -/
def readUnless (close : String) (expr : Read Expr) : Read (Option Expr) := do
  if ← Read.sees close then return none else some <$> expr

/-- Reads the first part of the header of a `for` loop. -/
def readForInit (expr : Read Expr) : Read (Option Stmt) := do
  let token ← Read.current
  if token.is ";" then return none
  else if token.isAny ["var", "static"] then return some (.varDecl (← VarDecl.read expr))
  else
    let value ← expr
    return some (.expression value (← Read.spanFrom token.span.start))

/-- Reads the header of a `for` loop. -/
def readForHeader (expr : Read Expr) : Read (Option Stmt × Option Expr × Option Expr) := do
  let _ ← Read.expect "("
  let init ← readForInit expr
  let _ ← Read.expect ";"
  let test ← readUnless ";" expr
  let _ ← Read.expect ";"
  let update ← readUnless ")" expr
  let _ ← Read.expect ")"
  return (init, test, update)

/-- Reads a `for` loop. -/
def readForLoop (expr : Read Expr) (stmt : Read (Option Stmt)) : Read Stmt := do
  let opening ← Read.advance
  let (init, test, update) ← Read.fatally (readForHeader expr)
  let body ← Block.read false stmt
  return .forLoop init test update body (← Read.spanFrom opening.span.start)

/-- Reads the value behind `return` or `throw`, if one follows. -/
def readResult (expr : Read Expr) : Read (Option Expr) := do
  if (← Read.sees ";") || (← Read.atClose "\x7d") then return none else some <$> expr

/-- Reads a `return` statement. -/
def readReturn (expr : Read Expr) : Read Stmt := do
  let opening ← Read.advance
  let value ← readResult expr
  let _ ← Read.expect ";"
  return .returnValue value (← Read.spanFrom opening.span.start)

/-- Reads a `throw` statement. -/
def readThrow (expr : Read Expr) : Read Stmt := do
  let opening ← Read.advance
  let value ← readResult expr
  let _ ← Read.expect ";"
  return .throwValue value (← Read.spanFrom opening.span.start)

/-- Reads a `break` statement. -/
def readBreak : Read Stmt := do
  let opening ← Read.advance
  let _ ← Read.expect ";"
  return .breakLoop (← Read.spanFrom opening.span.start)

/-- Reads a `continue` statement. -/
def readContinue : Read Stmt := do
  let opening ← Read.advance
  let _ ← Read.expect ";"
  return .continueLoop (← Read.spanFrom opening.span.start)

end ScriptLint.Stmt
