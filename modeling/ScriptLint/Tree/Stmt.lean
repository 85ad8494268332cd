import ScriptLint.Tree.Expr
import ScriptLint.Ty

/-!
# Statements and programs

The tree of a program. Blocks and clauses are generic in the statements they hold, and `Stmt` ties
the knot.
-/

namespace ScriptLint

/-- The statements between a pair of braces. -/
structure Block (σ : Type) where
  body : List σ
  span : Span

/-- The handler of a `try` or `retry` statement. -/
structure CatchClause (σ : Type) where
  parameter : String
  body : Block σ
  span : Span

/-- The closing part of a `try` statement. -/
structure FinallyClause (σ : Type) where
  body : Block σ
  span : Span

/-- An arm of a `match` statement with its test. -/
structure MatchCase (σ : Type) where
  test : Expr
  consequent : σ
  span : Span

/-- The declaration of a variable. -/
structure VarDecl where
  name : String
  isStatic : Bool
  declaredType : Option Ty
  initializer : Option Expr
  span : Span

/-- The statements. -/
inductive Stmt where
  | varDecl (decl : VarDecl)
  | ifElse (test : Expr) (consequent : Block Stmt) (alternate : Option Stmt) (span : Span)
  | whileLoop (test : Expr) (body : Block Stmt) (span : Span)
  | doWhile (body : Block Stmt) (test : Expr) (span : Span)
  | forLoop (init : Option Stmt) (test update : Option Expr) (body : Block Stmt) (span : Span)
  | functionDecl (name : String) (parameters : List String) (body : Block Stmt) (span : Span)
  | classDecl (name : String) (body : Block Stmt) (span : Span)
  | returnValue (value : Option Expr) (span : Span)
  | throwValue (value : Option Expr) (span : Span)
  | breakLoop (span : Span)
  | continueLoop (span : Span)
  | matchOn (discriminant : Expr) (cases : List (MatchCase Stmt)) (default : Option Stmt)
      (span : Span)
  | tryCatch (body : Block Stmt) (handler : Option (CatchClause Stmt))
      (finalizer : Option (FinallyClause Stmt)) (span : Span)
  | retry (count : Expr) (body : Block Stmt) (handler : Option (CatchClause Stmt)) (span : Span)
  | expression (value : Expr) (span : Span)
  | block (content : Block Stmt)

/-- The span of a statement. -/
def Stmt.span : Stmt → Span
  | .varDecl decl => decl.span
  | .ifElse _ _ _ span => span
  | .whileLoop _ _ span => span
  | .doWhile _ _ span => span
  | .forLoop _ _ _ _ span => span
  | .functionDecl _ _ _ span => span
  | .classDecl _ _ span => span
  | .returnValue _ span => span
  | .throwValue _ span => span
  | .breakLoop span => span
  | .continueLoop span => span
  | .matchOn _ _ _ span => span
  | .tryCatch _ _ _ span => span
  | .retry _ _ _ span => span
  | .expression _ span => span
  | .block content => content.span

/-- A program: its statements, and the span of the whole text. -/
structure Program where
  statements : List Stmt
  span : Span

end ScriptLint
