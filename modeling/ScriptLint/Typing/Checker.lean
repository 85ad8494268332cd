import ScriptLint.Diagnostic
import ScriptLint.Tree.Stmt
import ScriptLint.Typing.Infer

/-!
# Checking programs

The checker walks a program once, in the order of the text, with one scope for all of it. It reports
a name that is declared again, a static variable that is written again, and a value that does not
fit an annotation.

A declaration or an assignment is judged before the expressions inside it are walked, so an
initializer already sees the name it belongs to.
-/

namespace ScriptLint

/-- What is known so far and what has been reported. -/
structure Checker where
  scope : Scope
  diagnostics : Array Diagnostic

namespace Checker

/-- The checker before any statement. -/
def empty : Checker :=
  ⟨.empty, #[]⟩

/-- Reports a cause at a span. -/
def report (checker : Checker) (cause : Cause) (span : Span) : Checker :=
  { checker with diagnostics := checker.diagnostics.push (.ofCause cause span) }

/-- Changes the scope. -/
def update (checker : Checker) (change : Scope → Scope) : Checker :=
  { checker with scope := change checker.scope }

/-- The reason why a value may not be written to a name of type `declared`, if there is one. -/
def mismatch? (scope : Scope) (name : String) (declared : Ty) (value : Expr) : Option Cause :=
  let actual := scope.infer value
  if declared.accepts actual then none
  else some (.typeMismatch name declared.name actual.name)

/-- Notes that a name is that of a static variable, if `isStatic` says so. -/
def noteStatic (checker : Checker) (isStatic : Bool) (name : String) : Checker :=
  if isStatic then checker.update (·.addStatic name) else checker

/-- Enters a name that is not declared yet. A name without annotation has type `any`; one whose
initializer does not fit its annotation stays undeclared. -/
def enter (checker : Checker) (name : String) (declaredType : Option Ty)
    (initializer : Option Expr) : Checker :=
  match declaredType, initializer with
  | none, none => checker.update (·.declare name .any)
  | none, some _ => checker.update fun scope => (scope.declare name .any).markAssigned name
  | some ty, none => checker.update (·.declare name ty)
  | some ty, some value =>
      match mismatch? checker.scope name ty value with
      | some cause => checker.report cause value.span
      | none => checker.update fun scope => (scope.declare name ty).markAssigned name

/-- Judges a declaration, apart from the expressions in its initializer. -/
def declare (checker : Checker) (decl : VarDecl) : Checker :=
  if checker.scope.isDeclared decl.name then
    checker.report (.variableAlreadyDeclared decl.name) decl.span
  else
    (checker.noteStatic decl.isStatic decl.name).enter decl.name decl.declaredType decl.initializer

/-- Judges the type of a value that is assigned to a name. Names that are not declared, or have type
`any`, take every value. -/
def judgeValue (checker : Checker) (name : String) (value : Expr) : Checker :=
  match checker.scope.typeOf? name with
  | none | some .any => checker
  | some declared =>
      match mismatch? checker.scope name declared value with
      | some cause => checker.report cause value.span
      | none => checker

/-- Judges an assignment to a name, apart from the expressions in its value. Only static variables
are remembered as assigned. -/
def assign (checker : Checker) (name : String) (value : Expr) (span : Span) : Checker :=
  if checker.scope.isStatic name then
    if checker.scope.isAssigned name then checker.report (.staticReassignment name) span
    else (checker.update (·.markAssigned name)).judgeValue name value
  else checker.judgeValue name value

mutual

/-- Walks an expression. An assignment at its top is reported at `span`, and every other one at its
own span. -/
def walkExpr (span : Span) : Expr → Checker → Checker
  | .literal _ _ _, checker => checker
  | .identifier _ _, checker => checker
  | .binary _ left right _, checker =>
      walkExpr right.span right (walkExpr left.span left checker)
  | .logical _ left right _, checker =>
      walkExpr right.span right (walkExpr left.span left checker)
  | .unary _ argument _, checker => walkExpr argument.span argument checker
  | .assignment assignee value _, checker =>
      walkExpr value.span value <|
        match assignee.identifier? with
        | some name => checker.assign name value span
        | none => walkExpr assignee.span assignee checker
  | .call callee arguments _, checker =>
      walkExprs arguments (walkExpr callee.span callee checker)
  | .member object _ _, checker => walkExpr object.span object checker
  | .array elements _, checker => walkExprs elements checker
  | .object properties _, checker => walkProperties properties checker

/-- Walks expressions one after the other. -/
def walkExprs : List Expr → Checker → Checker
  | [], checker => checker
  | expr :: rest, checker => walkExprs rest (walkExpr expr.span expr checker)

/-- Walks the values of properties one after the other. -/
def walkProperties : List (Property Expr) → Checker → Checker
  | [], checker => checker
  | property :: rest, checker =>
      walkProperties rest (walkExpr property.value.span property.value checker)

end

/-- Walks an expression that may be absent. -/
def walkOptional : Option Expr → Checker → Checker
  | none, checker => checker
  | some expr, checker => walkExpr expr.span expr checker

mutual

/-- Walks a statement. An expression statement that is an assignment is reported as a whole. -/
def walkStmt : Stmt → Checker → Checker
  | .varDecl decl, checker => walkOptional decl.initializer (checker.declare decl)
  | .ifElse test consequent alternate _, checker =>
      walkOptionalStmt alternate
        (walkStmts consequent.body (walkExpr test.span test checker))
  | .whileLoop test body _, checker => walkStmts body.body (walkExpr test.span test checker)
  | .doWhile body test _, checker => walkExpr test.span test (walkStmts body.body checker)
  | .forLoop init test update body _, checker =>
      walkStmts body.body
        (walkOptional update (walkOptional test (walkOptionalStmt init checker)))
  | .functionDecl _ _ body _, checker => walkStmts body.body checker
  | .classDecl _ body _, checker => walkStmts body.body checker
  | .returnValue value _, checker => walkOptional value checker
  | .throwValue value _, checker => walkOptional value checker
  | .breakLoop _, checker => checker
  | .continueLoop _, checker => checker
  | .matchOn discriminant cases fallback _, checker =>
      walkOptionalStmt fallback
        (walkCases cases (walkExpr discriminant.span discriminant checker))
  | .tryCatch body handler finalizer _, checker =>
      walkFinalizer finalizer (walkHandler handler (walkStmts body.body checker))
  | .retry count body handler _, checker =>
      walkHandler handler (walkStmts body.body (walkExpr count.span count checker))
  | .expression value span, checker => walkExpr span value checker
  | .block content, checker => walkStmts content.body checker

/-- Walks statements one after the other. -/
def walkStmts : List Stmt → Checker → Checker
  | [], checker => checker
  | stmt :: rest, checker => walkStmts rest (walkStmt stmt checker)

/-- Walks a statement that may be absent. -/
def walkOptionalStmt : Option Stmt → Checker → Checker
  | none, checker => checker
  | some stmt, checker => walkStmt stmt checker

/-- Walks the arms of a `match` one after the other. -/
def walkCases : List (MatchCase Stmt) → Checker → Checker
  | [], checker => checker
  | arm :: rest, checker =>
      walkCases rest (walkStmt arm.consequent (walkExpr arm.test.span arm.test checker))

/-- Walks a handler that may be absent. -/
def walkHandler : Option (CatchClause Stmt) → Checker → Checker
  | none, checker => checker
  | some clause, checker => walkStmts clause.body.body checker

/-- Walks a closing part that may be absent. -/
def walkFinalizer : Option (FinallyClause Stmt) → Checker → Checker
  | none, checker => checker
  | some clause, checker => walkStmts clause.body.body checker

end

/-- The checker after a whole program, from the start. -/
def ofProgram (program : Program) : Checker :=
  walkStmts program.statements empty

/-- Checks a program with a checker that may have been used before. All that it knew is forgotten
first. What it reports is handed over, and the scope is kept. -/
def check (checker : Checker) (program : Program) : List Diagnostic × Checker :=
  let walked := walkStmts program.statements { checker with scope := .empty, diagnostics := #[] }
  (walked.diagnostics.toList, { walked with diagnostics := #[] })

end Checker

/-- What the checker reports of a program. -/
def Program.check (program : Program) : List Diagnostic :=
  (Checker.ofProgram program).diagnostics.toList

end ScriptLint
