import ScriptLint.Grammar.Context
import ScriptLint.Tree.Stmt

/-!
# Reading declarations

Blocks and the declarations of variables, functions and classes. `expr` reads an expression and
`stmt` a statement, or nothing where an error was recovered from.

A missing semicolon behind a variable is only recorded. In the header of a function or a class, and
at the braces of its body, every error is fatal.
-/

namespace ScriptLint

/-- Reads the name of a type. -/
def Ty.read : Read Ty := do
  let token ← Read.current
  match if token.isTypeKeyword then Ty.ofAnnotation? token.value else none with
  | some ty =>
      let _ ← Read.advance
      return ty
  | none => Read.unexpectedDetailed "expected a type name"

/-- Reads statements between braces, given how to treat an error at the braces themselves. -/
def Block.readWith (brace : Read Token → Read Token) (stmt : Read (Option Stmt)) :
    Read (Block Stmt) := do
  let opening ← brace (Read.expect "\x7b")
  let body ← Read.collect (Read.atClose "\x7d") stmt
  let _ ← brace (Read.expect "\x7d")
  return ⟨body, ← Read.spanFrom opening.span.start⟩

/-- Reads statements between braces; a missing brace is fatal if `fatal` says so. -/
def Block.read (fatal : Bool) (stmt : Read (Option Stmt)) : Read (Block Stmt) :=
  Block.readWith (if fatal then Read.fatally else id) stmt

/-- Reads `var`, or `static` and `var`, and gives the first of them. -/
def VarDecl.readKeyword : Read Token := do
  let opening ← Read.advance
  if opening.is "static" then
    let _ ← Read.expect "var"
    return opening
  else return opening

/-- Reads the type in front of the name of a variable, if there is one. -/
def VarDecl.readType : Read (Option Ty) := do
  if (← Read.current).isTypeKeyword then some <$> Ty.read else return none

/-- Reads the value behind the name of a variable, if there is one. -/
def VarDecl.readInitializer (expr : Read Expr) : Read (Option Expr) := do
  if ← Read.accept "=" then some <$> expr else return none

/-- Reads the declaration of a variable up to, but not including, its semicolon. -/
def VarDecl.read (expr : Read Expr) : Read VarDecl := do
  let opening ← VarDecl.readKeyword
  let declaredType ← VarDecl.readType
  let name ← Read.expectIdentifier "expected identifier during variable declaration"
  let initializer ← VarDecl.readInitializer expr
  let span ← Read.spanFrom opening.span.start
  return ⟨name.value, opening.is "static", declaredType, initializer, span⟩

namespace Stmt

/-- Reads a block as a statement. -/
def readBlock (stmt : Read (Option Stmt)) : Read Stmt :=
  .block <$> Block.read false stmt

/-- Reads the declaration of a variable with its semicolon. A missing one is recorded from the end
of the declaration to the end of the line. -/
def readVarDecl (context : Context) (expr : Read Expr) : Read Stmt := do
  let decl ← VarDecl.read expr
  if ← Read.accept ";" then
    return .varDecl { decl with span := ← Read.spanFrom decl.span.start }
  else
    let stop := decl.span.stop
    Read.record ⟨Cause.missingSemicolon.message, ⟨stop, context.lineEnd stop⟩⟩
    return .varDecl decl

/-- Reads the name and the parameters of a function. -/
def readFunctionHeader : Read (String × List String) := do
  let name ← Read.expectIdentifier "expected function name"
  let _ ← Read.expect "("
  let parameters ← Read.separated (Read.sees ")")
    (Token.value <$> Read.expectIdentifier "expected parameter name")
  let _ ← Read.expect ")"
  return (name.value, parameters)

/-- Reads the declaration of a function. -/
def readFunctionDecl (stmt : Read (Option Stmt)) : Read Stmt := do
  let opening ← Read.advance
  let (name, parameters) ← Read.fatally readFunctionHeader
  let body ← Block.read true stmt
  return .functionDecl name parameters body (← Read.spanFrom opening.span.start)

/-- Reads the declaration of a class. -/
def readClassDecl (stmt : Read (Option Stmt)) : Read Stmt := do
  let opening ← Read.advance
  let name ← Read.fatally (Read.expectIdentifier "expected class name")
  let body ← Block.read true stmt
  return .classDecl name.value body (← Read.spanFrom opening.span.start)

end Stmt

end ScriptLint
