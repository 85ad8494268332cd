import ScriptLint.Number.Double
import ScriptLint.Span

/-!
# Expressions

The tree of an expression. Every node carries the span of the text it was read from.
-/

namespace ScriptLint

/-- The value of a literal. -/
inductive Literal where
  | number (value : Double)
  | string (value : String)
  | bool (value : Bool)
  | nil
deriving DecidableEq, Repr

/-- A name at a place in the text. -/
structure Name where
  text : String
  span : Span
deriving DecidableEq, Repr

/-- A key with its value in an object. -/
structure Property (α : Type) where
  key : String
  value : α
  span : Span

/-- The expressions. -/
inductive Expr where
  /-- A literal with its value and the text it was written as. -/
  | literal (value : Literal) (raw : String) (span : Span)
  | identifier (name : String) (span : Span)
  | binary (operator : String) (left right : Expr) (span : Span)
  | logical (operator : String) (left right : Expr) (span : Span)
  | unary (operator : String) (argument : Expr) (span : Span)
  | assignment (assignee value : Expr) (span : Span)
  | call (callee : Expr) (arguments : List Expr) (span : Span)
  | member (object : Expr) (property : Name) (span : Span)
  | array (elements : List Expr) (span : Span)
  | object (properties : List (Property Expr)) (span : Span)

namespace Expr

/-- The span of an expression. -/
def span : Expr → Span
  | .literal _ _ span => span
  | .identifier _ span => span
  | .binary _ _ _ span => span
  | .logical _ _ _ span => span
  | .unary _ _ span => span
  | .assignment _ _ span => span
  | .call _ _ span => span
  | .member _ _ span => span
  | .array _ span => span
  | .object _ span => span

/-- Whether a value can be assigned to an expression: it is a name or a member. -/
def isAssignable : Expr → Bool
  | .identifier _ _ => true
  | .member _ _ _ => true
  | _ => false

/-- The name that a bare identifier is. -/
def identifier? : Expr → Option String
  | .identifier name _ => some name
  | _ => none

end Expr

end ScriptLint
