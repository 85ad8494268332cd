import ScriptLint.Tree.Stmt

/-!
# The parts of a tree

The expressions that a statement or an expression is made of, and the height of an expression, which
is the number of nodes on a longest way down from it. A program holds an expression if some
statement in it, however deeply nested, has the expression as a part.
-/

namespace ScriptLint

namespace Expr

/-- The expressions directly inside an expression. -/
def children : Expr → List Expr
  | .literal _ _ _ => []
  | .identifier _ _ => []
  | .binary _ left right _ => [left, right]
  | .logical _ left right _ => [left, right]
  | .unary _ argument _ => [argument]
  | .assignment assignee value _ => [assignee, value]
  | .call callee arguments _ => callee :: arguments
  | .member owner _ _ => [owner]
  | .array elements _ => elements
  | .object properties _ => properties.map (·.value)

/-- The second expression is the first one or inside it. -/
inductive HasPart : Expr → Expr → Prop where
  | self (expr : Expr) : HasPart expr expr
  | inside {expr child part : Expr} : child ∈ expr.children → HasPart child part →
      HasPart expr part

mutual

/-- The number of nodes on a longest way down from an expression. -/
def height : Expr → Nat
  | .literal _ _ _ => 1
  | .identifier _ _ => 1
  | .binary _ left right _ => max left.height right.height + 1
  | .logical _ left right _ => max left.height right.height + 1
  | .unary _ argument _ => argument.height + 1
  | .assignment assignee value _ => max assignee.height value.height + 1
  | .call callee arguments _ => max callee.height (heights arguments) + 1
  | .member owner _ _ => owner.height + 1
  | .array elements _ => heights elements + 1
  | .object properties _ => propertyHeights properties + 1

/-- The greatest height among expressions. -/
def heights : List Expr → Nat
  | [] => 0
  | expr :: rest => max expr.height (heights rest)

/-- The greatest height among the values of properties. -/
def propertyHeights : List (Property Expr) → Nat
  | [] => 0
  | property :: rest => max property.value.height (propertyHeights rest)

end

/-- No expression of a list is higher than a bound iff the greatest height is not. -/
theorem heights_le_iff {exprs : List Expr} {bound : Nat} :
    heights exprs ≤ bound ↔ ∀ expr ∈ exprs, expr.height ≤ bound := by
  induction exprs with
  | nil => simp [heights]
  | cons expr rest ih => rw [heights, Nat.max_le, ih, List.forall_mem_cons]

/-- The heights of properties are those of their values. -/
theorem propertyHeights_eq (properties : List (Property Expr)) :
    propertyHeights properties = heights (properties.map (·.value)) := by
  induction properties with
  | nil => rfl
  | cons property rest ih => rw [propertyHeights, ih]; rfl

/-- An expression is one node higher than the expressions directly inside it. -/
theorem height_eq (expr : Expr) : expr.height = heights expr.children + 1 := by
  cases expr <;> simp [height, children, heights, propertyHeights_eq]

/-- An expression is at most one node higher than a bound for those directly inside it. -/
theorem height_le_of_children {expr : Expr} {bound : Nat}
    (h : ∀ child ∈ expr.children, child.height ≤ bound) : expr.height ≤ bound + 1 := by
  rw [height_eq]
  exact Nat.succ_le_succ (heights_le_iff.2 h)

/-- No part of an expression is higher than the expression. -/
theorem HasPart.height_le {expr part : Expr} (h : expr.HasPart part) :
    part.height ≤ expr.height := by
  induction h with
  | self => exact Nat.le_refl _
  | @inside expr child part hchild _ ih =>
      have hle : child.height ≤ heights expr.children :=
        heights_le_iff.1 (Nat.le_refl _) child hchild
      rw [expr.height_eq]
      omega

end Expr

namespace Stmt

/-- The expressions directly inside a statement. -/
def exprs : Stmt → List Expr
  | .varDecl decl => decl.initializer.toList
  | .ifElse test _ _ _ => [test]
  | .whileLoop test _ _ => [test]
  | .doWhile _ test _ => [test]
  | .forLoop _ test update _ _ => test.toList ++ update.toList
  | .functionDecl _ _ _ _ => []
  | .classDecl _ _ _ => []
  | .returnValue value _ => value.toList
  | .throwValue value _ => value.toList
  | .breakLoop _ => []
  | .continueLoop _ => []
  | .matchOn discriminant cases _ _ => discriminant :: cases.map (·.test)
  | .tryCatch _ _ _ _ => []
  | .retry count _ _ _ => [count]
  | .expression value _ => [value]
  | .block _ => []

/-- The statements directly inside a statement. -/
def children : Stmt → List Stmt
  | .varDecl _ => []
  | .ifElse _ consequent alternate _ => consequent.body ++ alternate.toList
  | .whileLoop _ body _ => body.body
  | .doWhile body _ _ => body.body
  | .forLoop init _ _ body _ => init.toList ++ body.body
  | .functionDecl _ _ body _ => body.body
  | .classDecl _ body _ => body.body
  | .returnValue _ _ => []
  | .throwValue _ _ => []
  | .breakLoop _ => []
  | .continueLoop _ => []
  | .matchOn _ cases fallback _ => cases.map (·.consequent) ++ fallback.toList
  | .tryCatch body handler finalizer _ =>
      body.body ++ handler.toList.flatMap (·.body.body) ++ finalizer.toList.flatMap (·.body.body)
  | .retry _ body handler _ => body.body ++ handler.toList.flatMap (·.body.body)
  | .expression _ _ => []
  | .block content => content.body

/-- The expression is a part of an expression in the statement. -/
inductive Holds : Stmt → Expr → Prop where
  | direct {stmt : Stmt} {expr part : Expr} : expr ∈ stmt.exprs → expr.HasPart part →
      Holds stmt part
  | inside {stmt child : Stmt} {part : Expr} : child ∈ stmt.children → Holds child part →
      Holds stmt part

end Stmt

/-- The expression is a part of an expression in the program. -/
def Program.Holds (program : Program) (expr : Expr) : Prop :=
  ∃ stmt ∈ program.statements, stmt.Holds expr

end ScriptLint
