import ScriptLint.Tree.Stmt

/-!
# The nodes of a tree

A node is a part of a program that carries a span of its own: a statement, an expression, a block, a
clause, an arm, a property or the name of a member. A block that stands as a statement is one node,
not two. The children of a node are listed in the order in which they are walked, which is the order
of the text but for the default arm of a `match`, which comes last wherever it was written.
-/

namespace ScriptLint

/-- A part of a program with a span of its own. -/
inductive Node where
  | stmt (content : Stmt)
  | expr (content : Expr)
  | block (content : Block Stmt)
  | handler (content : CatchClause Stmt)
  | finalizer (content : FinallyClause Stmt)
  | arm (content : MatchCase Stmt)
  | property (content : Property Expr)
  /-- The name behind the point of a member. -/
  | name (content : Name)

/-- The nodes directly inside an expression. -/
def Expr.nodes : Expr → List Node
  | .literal _ _ _ => []
  | .identifier _ _ => []
  | .binary _ left right _ => [.expr left, .expr right]
  | .logical _ left right _ => [.expr left, .expr right]
  | .unary _ argument _ => [.expr argument]
  | .assignment assignee value _ => [.expr assignee, .expr value]
  | .call callee arguments _ => .expr callee :: arguments.map .expr
  | .member owner property _ => [.expr owner, .name property]
  | .array elements _ => elements.map .expr
  | .object properties _ => properties.map .property

/-- The nodes directly inside a statement. -/
def Stmt.nodes : Stmt → List Node
  | .varDecl decl => decl.initializer.toList.map .expr
  | .ifElse test consequent alternate _ =>
      .expr test :: .block consequent :: alternate.toList.map .stmt
  | .whileLoop test body _ => [.expr test, .block body]
  | .doWhile body test _ => [.block body, .expr test]
  | .forLoop init test update body _ =>
      init.toList.map .stmt ++ (test.toList.map .expr ++ (update.toList.map .expr ++ [.block body]))
  | .functionDecl _ _ body _ => [.block body]
  | .classDecl _ body _ => [.block body]
  | .returnValue value _ => value.toList.map .expr
  | .throwValue value _ => value.toList.map .expr
  | .breakLoop _ => []
  | .continueLoop _ => []
  | .matchOn discriminant cases fallback _ =>
      .expr discriminant :: (cases.map .arm ++ fallback.toList.map .stmt)
  | .tryCatch body handler finalizer _ =>
      .block body :: (handler.toList.map .handler ++ finalizer.toList.map .finalizer)
  | .retry count body handler _ => .expr count :: .block body :: handler.toList.map .handler
  | .expression value _ => [.expr value]
  | .block content => content.body.map .stmt

namespace Node

/-- The span of a node. -/
def span : Node → Span
  | .stmt content => content.span
  | .expr content => content.span
  | .block content => content.span
  | .handler content => content.span
  | .finalizer content => content.span
  | .arm content => content.span
  | .property content => content.span
  | .name content => content.span

/-- The nodes directly inside a node. -/
def children : Node → List Node
  | .stmt content => content.nodes
  | .expr content => content.nodes
  | .block content => content.body.map .stmt
  | .handler content => [.block content.body]
  | .finalizer content => [.block content.body]
  | .arm content => [.expr content.test, .stmt content.consequent]
  | .property content => [.expr content.value]
  | .name _ => []

/-- A child is smaller than its parent. -/
theorem sizeOf_lt_of_mem_children {node child : Node} (h : child ∈ node.children) :
    sizeOf child < sizeOf node := by
  have hblock : ∀ block : Block Stmt, sizeOf block.body < sizeOf block := by
    rintro ⟨body, span⟩
    simp only [Block.mk.sizeOf_spec]
    omega
  have hdecl : ∀ decl : VarDecl, sizeOf decl.initializer < sizeOf decl := by
    rintro ⟨name, isStatic, declaredType, initializer, span⟩
    simp only [VarDecl.mk.sizeOf_spec]
    omega
  cases node with
  | stmt content =>
      cases content <;>
        simp only [children, Stmt.nodes, List.mem_cons, List.mem_append, List.mem_map,
          Option.mem_toList, List.not_mem_nil, or_false] at h <;>
        grind [→ List.sizeOf_lt_of_mem]
  | expr content =>
      cases content <;>
        simp only [children, Expr.nodes, List.mem_cons, List.mem_map, List.not_mem_nil,
          or_false] at h <;>
        grind [→ List.sizeOf_lt_of_mem]
  | block content =>
      obtain ⟨inner, hinner, rfl⟩ := List.mem_map.1 h
      grind [→ List.sizeOf_lt_of_mem]
  | handler content =>
      obtain ⟨parameter, body, span⟩ := content
      grind [children]
  | finalizer content =>
      obtain ⟨body, span⟩ := content
      grind [children]
  | arm content =>
      obtain ⟨test, consequent, span⟩ := content
      grind [children]
  | property content =>
      obtain ⟨key, value, span⟩ := content
      grind [children]
  | name content => cases h

/-- The children of a node that stand in the order of the text: all of them, but for the default arm
of a `match`. -/
def sequence : Node → List Node
  | .stmt (.matchOn discriminant cases _ _) => .expr discriminant :: cases.map .arm
  | node => node.children

/-- A node or a node inside it, however deep. -/
inductive HasPart : Node → Node → Prop
  | self (node : Node) : HasPart node node
  | child {node child part : Node} (hchild : child ∈ node.children) (hpart : HasPart child part) :
      HasPart node part

end Node

end ScriptLint
