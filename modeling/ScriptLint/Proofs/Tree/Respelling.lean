import ScriptLint.Proofs.Tree.Nodes

/-!
# Trees with other literals

A respelling says what to put in the place of every literal and of every span. It reaches all parts
of a tree and leaves everything else as it is: the nodes inside a respelled node are the respelled
nodes inside it, unless the node is a literal.
-/

namespace ScriptLint

/-- What to put in the place of the spans and the literals of a tree. -/
structure Respelling where
  span : Span → Span
  literal : Literal → String → Span → Expr

namespace Expr

mutual

/-- The expression with its literals and its spans respelled. -/
def respell (r : Respelling) : Expr → Expr
  | .literal value raw span => r.literal value raw span
  | .identifier name span => .identifier name (r.span span)
  | .binary operator left right span =>
      .binary operator (respell r left) (respell r right) (r.span span)
  | .logical operator left right span =>
      .logical operator (respell r left) (respell r right) (r.span span)
  | .unary operator argument span => .unary operator (respell r argument) (r.span span)
  | .assignment assignee value span =>
      .assignment (respell r assignee) (respell r value) (r.span span)
  | .call callee arguments span =>
      .call (respell r callee) (respellAll r arguments) (r.span span)
  | .member owner property span =>
      .member (respell r owner) ⟨property.text, r.span property.span⟩ (r.span span)
  | .array elements span => .array (respellAll r elements) (r.span span)
  | .object properties span => .object (respellProperties r properties) (r.span span)

/-- Expressions with their literals and their spans respelled. -/
def respellAll (r : Respelling) : List Expr → List Expr
  | [] => []
  | expr :: rest => respell r expr :: respellAll r rest

/-- Properties with their literals and their spans respelled. -/
def respellProperties (r : Respelling) : List (Property Expr) → List (Property Expr)
  | [] => []
  | property :: rest =>
      ⟨property.key, respell r property.value, r.span property.span⟩ :: respellProperties r rest

end

end Expr

/-- The property with its literals and its spans respelled. -/
def Property.respell (r : Respelling) (property : Property Expr) : Property Expr :=
  ⟨property.key, property.value.respell r, r.span property.span⟩

/-- The declaration with its literals and its spans respelled. -/
def VarDecl.respell (r : Respelling) (decl : VarDecl) : VarDecl :=
  { decl with initializer := decl.initializer.map (Expr.respell r), span := r.span decl.span }

namespace Stmt

mutual

/-- The statement with its literals and its spans respelled. -/
def respell (r : Respelling) : Stmt → Stmt
  | .varDecl decl => .varDecl (decl.respell r)
  | .ifElse test consequent alternate span =>
      .ifElse (test.respell r) (respellBlock r consequent) (respellOption r alternate)
        (r.span span)
  | .whileLoop test body span => .whileLoop (test.respell r) (respellBlock r body) (r.span span)
  | .doWhile body test span => .doWhile (respellBlock r body) (test.respell r) (r.span span)
  | .forLoop init test update body span =>
      .forLoop (respellOption r init) (test.map (Expr.respell r)) (update.map (Expr.respell r))
        (respellBlock r body) (r.span span)
  | .functionDecl name parameters body span =>
      .functionDecl name parameters (respellBlock r body) (r.span span)
  | .classDecl name body span => .classDecl name (respellBlock r body) (r.span span)
  | .returnValue value span => .returnValue (value.map (Expr.respell r)) (r.span span)
  | .throwValue value span => .throwValue (value.map (Expr.respell r)) (r.span span)
  | .breakLoop span => .breakLoop (r.span span)
  | .continueLoop span => .continueLoop (r.span span)
  | .matchOn discriminant cases fallback span =>
      .matchOn (discriminant.respell r) (respellCases r cases) (respellOption r fallback)
        (r.span span)
  | .tryCatch body handler finalizer span =>
      .tryCatch (respellBlock r body) (respellHandler r handler) (respellFinalizer r finalizer)
        (r.span span)
  | .retry count body handler span =>
      .retry (count.respell r) (respellBlock r body) (respellHandler r handler) (r.span span)
  | .expression value span => .expression (value.respell r) (r.span span)
  | .block content => .block (respellBlock r content)

/-- Statements with their literals and their spans respelled. -/
def respellAll (r : Respelling) : List Stmt → List Stmt
  | [] => []
  | stmt :: rest => respell r stmt :: respellAll r rest

/-- A statement that may be absent with its literals and its spans respelled. -/
def respellOption (r : Respelling) : Option Stmt → Option Stmt
  | none => none
  | some stmt => some (respell r stmt)

/-- A block with its literals and its spans respelled. -/
def respellBlock (r : Respelling) : Block Stmt → Block Stmt
  | ⟨body, span⟩ => ⟨respellAll r body, r.span span⟩

/-- The arms of a `match` with their literals and their spans respelled. -/
def respellCases (r : Respelling) : List (MatchCase Stmt) → List (MatchCase Stmt)
  | [] => []
  | arm :: rest =>
      ⟨arm.test.respell r, respell r arm.consequent, r.span arm.span⟩ :: respellCases r rest

/-- A handler that may be absent with its literals and its spans respelled. -/
def respellHandler (r : Respelling) : Option (CatchClause Stmt) → Option (CatchClause Stmt)
  | none => none
  | some ⟨parameter, body, span⟩ => some ⟨parameter, respellBlock r body, r.span span⟩

/-- A closing part that may be absent with its literals and its spans respelled. -/
def respellFinalizer (r : Respelling) : Option (FinallyClause Stmt) → Option (FinallyClause Stmt)
  | none => none
  | some ⟨body, span⟩ => some ⟨respellBlock r body, r.span span⟩

end

end Stmt

/-- The block with its literals and its spans respelled. -/
def Block.respell (r : Respelling) (block : Block Stmt) : Block Stmt :=
  ⟨block.body.map (Stmt.respell r), r.span block.span⟩

/-- The handler with its literals and its spans respelled. -/
def CatchClause.respell (r : Respelling) (clause : CatchClause Stmt) : CatchClause Stmt :=
  ⟨clause.parameter, clause.body.respell r, r.span clause.span⟩

/-- The closing part with its literals and its spans respelled. -/
def FinallyClause.respell (r : Respelling) (clause : FinallyClause Stmt) : FinallyClause Stmt :=
  ⟨clause.body.respell r, r.span clause.span⟩

/-- The arm with its literals and its spans respelled. -/
def MatchCase.respell (r : Respelling) (arm : MatchCase Stmt) : MatchCase Stmt :=
  ⟨arm.test.respell r, arm.consequent.respell r, r.span arm.span⟩

/-- The program with its literals and its spans respelled. -/
def Program.respell (r : Respelling) (program : Program) : Program :=
  ⟨program.statements.map (Stmt.respell r), r.span program.span⟩

variable {r : Respelling}

/-- Expressions are respelled one by one. -/
@[simp] theorem Expr.respellAll_eq_map (exprs : List Expr) :
    respellAll r exprs = exprs.map (respell r) := by
  induction exprs with
  | nil => rfl
  | cons expr rest ih => rw [respellAll, ih, List.map_cons]

/-- Properties are respelled one by one. -/
@[simp] theorem Expr.respellProperties_eq_map (properties : List (Property Expr)) :
    respellProperties r properties = properties.map (Property.respell r) := by
  induction properties with
  | nil => rfl
  | cons property rest ih => rw [respellProperties, ih, List.map_cons, Property.respell]

namespace Stmt

/-- Statements are respelled one by one. -/
@[simp] theorem respellAll_eq_map (stmts : List Stmt) :
    respellAll r stmts = stmts.map (respell r) := by
  induction stmts with
  | nil => rfl
  | cons stmt rest ih => rw [respellAll, ih, List.map_cons]

/-- A statement that may be absent is respelled if it is there. -/
@[simp] theorem respellOption_eq_map (stmt : Option Stmt) :
    respellOption r stmt = stmt.map (respell r) := by
  cases stmt <;> rfl

/-- A block is respelled by respelling its statements. -/
@[simp] theorem respellBlock_eq (block : Block Stmt) :
    respellBlock r block = block.respell r := by
  rw [respellBlock, respellAll_eq_map, Block.respell]

/-- The arms of a `match` are respelled one by one. -/
@[simp] theorem respellCases_eq_map (cases : List (MatchCase Stmt)) :
    respellCases r cases = cases.map (MatchCase.respell r) := by
  induction cases with
  | nil => rfl
  | cons arm rest ih => rw [respellCases, ih, List.map_cons, MatchCase.respell]

/-- A handler is respelled if there is one. -/
@[simp] theorem respellHandler_eq_map (handler : Option (CatchClause Stmt)) :
    respellHandler r handler = handler.map (CatchClause.respell r) := by
  cases handler with
  | none => rfl
  | some clause => rw [respellHandler, respellBlock_eq, Option.map_some, CatchClause.respell]

/-- A closing part is respelled if there is one. -/
@[simp] theorem respellFinalizer_eq_map (finalizer : Option (FinallyClause Stmt)) :
    respellFinalizer r finalizer = finalizer.map (FinallyClause.respell r) := by
  cases finalizer with
  | none => rfl
  | some clause => rw [respellFinalizer, respellBlock_eq, Option.map_some, FinallyClause.respell]

end Stmt

namespace Node

/-- The node with its literals and its spans respelled. -/
def respell (r : Respelling) : Node → Node
  | .stmt content => .stmt (content.respell r)
  | .expr content => .expr (content.respell r)
  | .block content => .block (content.respell r)
  | .handler content => .handler (content.respell r)
  | .finalizer content => .finalizer (content.respell r)
  | .arm content => .arm (content.respell r)
  | .property content => .property (content.respell r)
  | .name content => .name ⟨content.text, r.span content.span⟩

end Node

/-- Whether an expression is a literal. -/
def Expr.isLiteral : Expr → Bool
  | .literal _ _ _ => true
  | _ => false

/-- The nodes inside an expression that is no literal are respelled one by one. -/
theorem Expr.nodes_respell {expr : Expr} (h : expr.isLiteral = false) :
    (expr.respell r).nodes = expr.nodes.map (Node.respell r) := by
  cases expr with
  | literal value raw span => cases h
  | _ => simp [Expr.respell, Expr.nodes, Node.respell, Function.comp_def]

/-- The nodes inside a statement are respelled one by one. -/
theorem Stmt.nodes_respell (stmt : Stmt) :
    (stmt.respell r).nodes = stmt.nodes.map (Node.respell r) := by
  cases stmt <;>
    simp [Stmt.respell, Stmt.nodes, Node.respell, Function.comp_def, VarDecl.respell, Block.respell,
      Option.toList_map]

end ScriptLint
