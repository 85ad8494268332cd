import ScriptLint.Proofs.Tree.Nodes
import ScriptLint.Typing.Checker

/-!
# The writes of a program

The checker looks at nothing but the places where a name is written. `Node.writes` lists them, node
by node in the order of the walk, and `Write.apply` and `Write.fault?` say what one write does to a
scope and what is wrong with it there. `Checker.check_eq_foldl` says that checking a program is
judging its writes one after the other, from an empty scope: no write is passed over or judged
twice, and no part of the program has a scope of its own.
-/

namespace ScriptLint

/-- A place where a name is written. -/
inductive Write where
  | declaration (decl : VarDecl)
  /-- The assignment of a value to a name, which is reported at a span. -/
  | assignment (name : String) (value : Expr) (span : Span)

/-! ## The writes in a tree -/

/-- The write that an expression itself is, if it is one, to be reported at `span`. -/
def Expr.write? (span : Span) : Expr → Option Write
  | .assignment (.identifier name _) value _ => some (.assignment name value span)
  | _ => none

namespace Node

/-- The write that a node itself is, if it is one. An expression statement is taken together with
its expression, and reported as a whole. -/
def write? : Node → Option Write
  | .stmt (.varDecl decl) => some (.declaration decl)
  | .stmt (.expression value span) => value.write? span
  | .expr content => content.write? content.span
  | _ => none

/-- The nodes whose writes follow the one that a node itself is. -/
def inner : Node → List Node
  | .stmt (.expression value _) => value.nodes
  | node => node.children

/-- A node is larger than those inside it. -/
theorem sizeOf_lt_of_mem_inner {node child : Node} (h : child ∈ node.inner) :
    sizeOf child < sizeOf node := by
  unfold inner at h
  split at h
  next value span =>
      have hchild : sizeOf child < sizeOf (Node.expr value) := sizeOf_lt_of_mem_children h
      have hvalue : sizeOf (Node.expr value) < sizeOf (Node.stmt (.expression value span)) :=
        sizeOf_lt_of_mem_children (by simp [children, Stmt.nodes])
      exact Nat.lt_trans hchild hvalue
  next => exact sizeOf_lt_of_mem_children h

/-- The writes in a node: the one that it is itself, and then those inside it. -/
def writes (node : Node) : List Write :=
  node.write?.toList ++ node.inner.attach.flatMap fun child => child.1.writes
termination_by sizeOf node
decreasing_by exact sizeOf_lt_of_mem_inner child.2

/-- The writes of a node are its own and those inside it. -/
theorem writes_eq (node : Node) :
    node.writes = node.write?.toList ++ node.inner.flatMap writes := by
  rw [writes]
  simp

end Node

/-- The writes in a program. -/
def Program.writes (program : Program) : List Write :=
  program.statements.flatMap fun stmt => (Node.stmt stmt).writes

/-! ## What a write does -/

namespace Write

/-- A value that does not fit the type of the name it is written to. -/
def misfit? (scope : Scope) (name : String) (ty : Ty) (value : Expr) : Option (Cause × Span) :=
  if ty.accepts (scope.infer value) then none
  else some (.typeMismatch name ty.name (scope.infer value).name, value.span)

/-- What is wrong with a write in a scope, and where. A name is declared once, a static variable is
written once, and a value has to fit the annotation of its name. -/
def fault? (scope : Scope) : Write → Option (Cause × Span)
  | .declaration decl =>
      if scope.isDeclared decl.name then some (.variableAlreadyDeclared decl.name, decl.span)
      else decl.declaredType.bind fun ty => decl.initializer.bind (misfit? scope decl.name ty)
  | .assignment name value span =>
      if scope.isStatic name && scope.isAssigned name then some (.staticReassignment name, span)
      else (scope.typeOf? name).bind fun ty => misfit? scope name ty value

/-- The scope behind a write. A name that is declared already stays as it is; a declaration at
fault leaves its name undeclared, but static if it says so. -/
def apply (scope : Scope) : Write → Scope
  | .declaration decl =>
      if scope.isDeclared decl.name then scope
      else
        let noted := if decl.isStatic then scope.addStatic decl.name else scope
        if (fault? scope (.declaration decl)).isSome then noted
        else
          let declared := noted.declare decl.name (decl.declaredType.getD .any)
          if decl.initializer.isSome then declared.markAssigned decl.name else declared
  | .assignment name _ _ => if scope.isStatic name then scope.markAssigned name else scope

end Write

/-- What is inferred depends on the types of the names only. -/
theorem Scope.infer_congr {scope other : Scope} (h : scope.types = other.types) (expr : Expr) :
    scope.infer expr = other.infer expr := by
  fun_induction Scope.infer scope expr <;> simp_all [Scope.infer, Scope.typeOf?]

/-- A name that has been given a value may be noted again. -/
theorem Scope.markAssigned_eq_self {scope : Scope} {name : String}
    (h : scope.isAssigned name = true) : scope.markAssigned name = scope := by
  have hmem : name ∈ scope.assigned := by simpa [Scope.isAssigned] using h
  simp [Scope.markAssigned, List.insert_of_mem hmem]

namespace Checker

/-- The checker behind a write. -/
def judge (checker : Checker) (write : Write) : Checker :=
  ⟨write.apply checker.scope,
    checker.diagnostics ++ (write.fault? checker.scope).toArray.map fun fault =>
      .ofCause fault.1 fault.2⟩

/-- The checker finds the same mismatch, since types depend only on the types of names. -/
theorem mismatch?_eq_misfit? {scope other : Scope} (h : scope.types = other.types) (name : String)
    (ty : Ty) (value : Expr) :
    (mismatch? scope name ty value).map (·, value.span) = Write.misfit? other name ty value := by
  rw [mismatch?, Write.misfit?, Scope.infer_congr h]
  split <;> rfl

/-- A declaration is judged as a write. -/
theorem declare_eq_judge (checker : Checker) (decl : VarDecl) :
    checker.declare decl = checker.judge (.declaration decl) := by
  unfold declare
  split
  next h => simp [judge, Write.apply, Write.fault?, h, report]
  next h =>
      obtain ⟨name, isStatic, declaredType, initializer, span⟩ := decl
      have htypes : (checker.noteStatic isStatic name).scope.types = checker.scope.types := by
        cases isStatic <;> rfl
      cases declaredType with
      | none => cases initializer <;> cases isStatic <;>
          simp_all [judge, Write.apply, Write.fault?, enter, noteStatic, update]
      | some ty =>
          cases initializer with
          | none => cases isStatic <;>
              simp_all [judge, Write.apply, Write.fault?, enter, noteStatic, update]
          | some value =>
              have hmisfit := mismatch?_eq_misfit? htypes name ty value
              unfold enter
              cases hcause : mismatch? (checker.noteStatic isStatic name).scope name ty value with
              | none =>
                  rw [hcause, Option.map_none] at hmisfit
                  cases isStatic <;>
                    simp_all [judge, Write.apply, Write.fault?, ← hmisfit, noteStatic, update]
              | some cause =>
                  rw [hcause, Option.map_some] at hmisfit
                  cases isStatic <;>
                    simp_all [judge, Write.apply, Write.fault?, ← hmisfit, noteStatic, update,
                      report]

/-- The type of an assigned value is judged in any scope with the same types. -/
theorem judgeValue_eq {checker : Checker} {scope : Scope} (h : checker.scope.types = scope.types)
    (name : String) (value : Expr) :
    checker.judgeValue name value = ⟨checker.scope, checker.diagnostics ++
      ((scope.typeOf? name).bind fun ty => Write.misfit? scope name ty value).toArray.map
        fun fault => .ofCause fault.1 fault.2⟩ := by
  have htype : checker.scope.typeOf? name = scope.typeOf? name := by simp [Scope.typeOf?, h]
  unfold judgeValue
  rw [htype]
  split
  next heq => simp [heq]
  next heq => simp [heq, Write.misfit?, Ty.accepts]
  next ty hany heq =>
      rw [heq, Option.bind_some, ← mismatch?_eq_misfit? h]
      cases mismatch? checker.scope name ty value <;> simp [report]

/-- An assignment to a name is judged as a write. -/
theorem assign_eq_judge (checker : Checker) (name : String) (value : Expr) (span : Span) :
    checker.assign name value span = checker.judge (.assignment name value span) := by
  unfold assign
  split
  next hstatic =>
      split
      next hassigned =>
          simp [judge, Write.apply, Write.fault?, hstatic, hassigned, report,
            Scope.markAssigned_eq_self hassigned]
      next hassigned =>
          have htypes : (checker.update (·.markAssigned name)).scope.types =
              checker.scope.types := rfl
          rw [judgeValue_eq htypes]
          simp [judge, Write.apply, Write.fault?, hstatic, hassigned, update]
  next hstatic =>
      rw [judgeValue_eq rfl]
      simp [judge, Write.apply, Write.fault?, hstatic]

/-! ## The walk -/

/-- Walks a node. -/
def walkNode : Node → Checker → Checker
  | .stmt content => walkStmt content
  | .expr content => walkExpr content.span content
  | .block content => walkStmts content.body
  | .handler content => walkStmts content.body.body
  | .finalizer content => walkStmts content.body.body
  | .arm content => fun checker =>
      walkStmt content.consequent (walkExpr content.test.span content.test checker)
  | .property content => walkExpr content.value.span content.value
  | .name _ => id

/-- Walks nodes one after the other. -/
def walkNodes (nodes : List Node) (checker : Checker) : Checker :=
  nodes.foldl (fun checker node => walkNode node checker) checker

@[simp] theorem walkNodes_nil (checker : Checker) : walkNodes [] checker = checker := rfl

@[simp] theorem walkNodes_cons (node : Node) (rest : List Node) (checker : Checker) :
    walkNodes (node :: rest) checker = walkNodes rest (walkNode node checker) := rfl

@[simp] theorem walkNodes_append (first second : List Node) (checker : Checker) :
    walkNodes (first ++ second) checker = walkNodes second (walkNodes first checker) :=
  List.foldl_append

/-- Expressions are walked as nodes. -/
theorem walkExprs_eq_walkNodes (exprs : List Expr) (checker : Checker) :
    walkExprs exprs checker = walkNodes (exprs.map .expr) checker := by
  induction exprs generalizing checker with
  | nil => rfl
  | cons expr rest ih => simp [walkExprs, ih, walkNode]

/-- Properties are walked as nodes. -/
theorem walkProperties_eq_walkNodes (properties : List (Property Expr)) (checker : Checker) :
    walkProperties properties checker = walkNodes (properties.map .property) checker := by
  induction properties generalizing checker with
  | nil => rfl
  | cons property rest ih => simp [walkProperties, ih, walkNode]

/-- Statements are walked as nodes. -/
theorem walkStmts_eq_walkNodes (stmts : List Stmt) (checker : Checker) :
    walkStmts stmts checker = walkNodes (stmts.map .stmt) checker := by
  induction stmts generalizing checker with
  | nil => rfl
  | cons stmt rest ih => simp [walkStmts, ih, walkNode]

/-- The arms of a `match` are walked as nodes. -/
theorem walkCases_eq_walkNodes (cases : List (MatchCase Stmt)) (checker : Checker) :
    walkCases cases checker = walkNodes (cases.map .arm) checker := by
  induction cases generalizing checker with
  | nil => rfl
  | cons arm rest ih => simp [walkCases, ih, walkNode]

theorem walkOptional_eq_walkNodes (expr : Option Expr) (checker : Checker) :
    walkOptional expr checker = walkNodes (expr.toList.map .expr) checker := by
  cases expr <;> rfl

theorem walkOptionalStmt_eq_walkNodes (stmt : Option Stmt) (checker : Checker) :
    walkOptionalStmt stmt checker = walkNodes (stmt.toList.map .stmt) checker := by
  cases stmt <;> simp [walkOptionalStmt, walkNode]

/-- A handler is walked as a node if there is one. -/
theorem walkHandler_eq_walkNodes (clause : Option (CatchClause Stmt)) (checker : Checker) :
    walkHandler clause checker = walkNodes (clause.toList.map .handler) checker := by
  cases clause <;> simp [walkHandler, walkNode]

/-- A closing part is walked as a node if there is one. -/
theorem walkFinalizer_eq_walkNodes (clause : Option (FinallyClause Stmt)) (checker : Checker) :
    walkFinalizer clause checker = walkNodes (clause.toList.map .finalizer) checker := by
  cases clause <;> simp [walkFinalizer, walkNode]

/-- Walking an expression is judging the write that it is and walking the nodes inside it. -/
theorem walkExpr_eq (span : Span) (expr : Expr) (checker : Checker) :
    walkExpr span expr checker =
      walkNodes expr.nodes ((expr.write? span).toList.foldl judge checker) := by
  cases expr with
  | assignment assignee value own =>
      cases assignee <;>
        simp [walkExpr, Expr.write?, Expr.nodes, Expr.identifier?, walkNode, assign_eq_judge]
  | _ => simp [walkExpr, Expr.write?, Expr.nodes, walkNode, walkExprs_eq_walkNodes,
      walkProperties_eq_walkNodes]

/-- Walking a node is judging the write that it is and walking the nodes inside it: none is left
out, and none is walked twice. -/
theorem walkNode_eq (node : Node) (checker : Checker) :
    walkNode node checker = walkNodes node.inner (node.write?.toList.foldl judge checker) := by
  cases node with
  | expr content => exact walkExpr_eq content.span content checker
  | stmt content =>
      cases content with
      | expression value span => exact walkExpr_eq span value checker
      | varDecl decl =>
          simp [walkNode, walkStmt, walkOptional_eq_walkNodes, Node.write?, Node.inner,
            Node.children, Stmt.nodes, declare_eq_judge]
      | _ =>
          simp [walkNode, walkStmt, walkOptional_eq_walkNodes, walkOptionalStmt_eq_walkNodes,
            walkStmts_eq_walkNodes, walkCases_eq_walkNodes, walkHandler_eq_walkNodes,
            walkFinalizer_eq_walkNodes, Node.write?, Node.inner, Node.children, Stmt.nodes]
  | _ => simp [walkNode, walkStmts_eq_walkNodes, Node.write?, Node.inner, Node.children]

/-- Walking a node is judging its writes. -/
theorem walkNode_eq_foldl (node : Node) (checker : Checker) :
    walkNode node checker = node.writes.foldl judge checker := by
  -- The nodes inside are walked from wherever their elder siblings have led.
  have hinner : ∀ (nodes : List Node), (∀ child ∈ nodes, child ∈ node.inner) →
      ∀ checker, walkNodes nodes checker = (nodes.flatMap Node.writes).foldl judge checker := by
    intro nodes hnodes
    induction nodes with
    | nil => exact fun _ => rfl
    | cons child rest ih =>
        intro checker
        have hchild : child ∈ node.inner := hnodes child List.mem_cons_self
        rw [walkNodes_cons, walkNode_eq_foldl child, List.flatMap_cons, List.foldl_append]
        exact ih (fun other hother => hnodes other (List.mem_cons_of_mem child hother)) _
  rw [walkNode_eq, hinner node.inner (fun _ h => h), Node.writes_eq, List.foldl_append]
termination_by sizeOf node
decreasing_by exact Node.sizeOf_lt_of_mem_inner hchild

/-- Walking statements is judging their writes. -/
theorem walkStmts_eq_foldl (stmts : List Stmt) (checker : Checker) :
    walkStmts stmts checker =
      (stmts.flatMap fun stmt => (Node.stmt stmt).writes).foldl judge checker := by
  induction stmts generalizing checker with
  | nil => rfl
  | cons stmt rest ih =>
      rw [walkStmts, ih, List.flatMap_cons, List.foldl_append, ← walkNode_eq_foldl]
      rfl

/-- Checking a program is judging its writes from an empty scope, whatever the checker was used for
before: they alone decide what is reported and which scope is kept. -/
theorem check_eq_foldl (checker : Checker) (program : Program) :
    let judged := program.writes.foldl judge empty
    checker.check program = (judged.diagnostics.toList, { judged with diagnostics := #[] }) ∧
      program.check = judged.diagnostics.toList := by
  intro judged
  have hwalk : walkStmts program.statements empty = judged := walkStmts_eq_foldl _ _
  constructor
  · rw [← hwalk]
    rfl
  · rw [← hwalk]
    rfl

end Checker

end ScriptLint
