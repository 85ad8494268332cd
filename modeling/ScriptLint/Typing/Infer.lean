import ScriptLint.Tree.Expr
import ScriptLint.Typing.Scope

/-!
# Inferred types

The type of an expression as far as the declared names tell. Nothing is reported here: what cannot
be told is `any`.
-/

namespace ScriptLint

/-- The type of a literal. A number written with a point is a `float`. -/
def Literal.ty (raw : String) : Literal → Ty
  | .number _ => if raw.toList.contains '.' then .float else .int
  | .string _ => .string
  | .bool _ => .bool
  | .nil => .any

/-- The operators that compare. -/
def comparisonOperators : List String :=
  ["==", "!=", "<", "<=", ">", ">="]

/-- The type of an arithmetic result. Division always gives a `float`. -/
def Ty.arithmetic (operator : String) (left right : Ty) : Ty :=
  if left = .int ∧ right = .int ∧ operator ≠ "/" then .int else .float

/-- The type of an expression in a scope. -/
def Scope.infer (scope : Scope) : Expr → Ty
  | .literal value raw _ => value.ty raw
  | .identifier name _ => (scope.typeOf? name).getD .any
  | .binary operator left right _ =>
      if comparisonOperators.contains operator then .bool
      else Ty.arithmetic operator (scope.infer left) (scope.infer right)
  | .logical _ _ _ _ => .bool
  | .unary operator argument _ =>
      if operator = "not" ∨ operator = "!" then .bool else scope.infer argument
  | .array _ _ => .array
  | .object _ _ => .object
  | .assignment _ _ _ => .any
  | .call _ _ _ => .any
  | .member _ _ _ => .any

end ScriptLint
