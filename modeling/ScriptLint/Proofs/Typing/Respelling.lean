import Mathlib.Data.List.Basic
import ScriptLint.Proofs.Tree.Respelling
import ScriptLint.Proofs.Typing.Faults

/-!
# Checking a respelled program

A respelling that keeps the types of literals and puts nothing in their place that writes a name
makes no difference to the checker. It reports the same faults, at the respelled spans, and knows
the same names in the end.
-/

namespace ScriptLint

/-- What stands in the place of a literal has its type and its place, and writes nothing. -/
structure Respelling.Faithful (r : Respelling) : Prop where
  span_literal : ∀ value raw span, (r.literal value raw span).span = r.span span
  isAssignable_literal : ∀ value raw span, (r.literal value raw span).isAssignable = false
  infer_literal : ∀ (scope : Scope) value raw span,
    scope.infer (r.literal value raw span) = value.ty raw
  writes_literal : ∀ value raw span, (Node.expr (r.literal value raw span)).writes = []

/-- The write with its literals and its spans respelled. -/
def Write.respell (r : Respelling) : Write → Write
  | .declaration decl => .declaration (decl.respell r)
  | .assignment name value span => .assignment name (value.respell r) (r.span span)

/-- The diagnostic with another span. -/
def Diagnostic.mapSpan (f : Span → Span) (diagnostic : Diagnostic) : Diagnostic :=
  { diagnostic with span := f diagnostic.span }

variable {r : Respelling} (hr : r.Faithful)

include hr

namespace Expr

/-- The span of the whole is respelled, for a literal as well. -/
theorem span_respell (expr : Expr) : (expr.respell r).span = r.span expr.span := by
  cases expr with
  | literal value raw span => exact hr.span_literal value raw span
  | _ => rfl

/-- Respelling keeps whether an expression may be assigned to. -/
theorem isAssignable_respell (expr : Expr) :
    (expr.respell r).isAssignable = expr.isAssignable := by
  cases expr with
  | literal value raw span => exact hr.isAssignable_literal value raw span
  | _ => rfl

/-- What has the place of a literal is no name that is assigned to. -/
theorem write?_assignment_literal (value : Literal) (raw : String) (own : Span) (assigned : Expr)
    (span outer : Span) :
    (Expr.assignment (r.literal value raw own) assigned span).write? outer = none := by
  have hassignable := hr.isAssignable_literal value raw own
  cases hliteral : r.literal value raw own with
  | identifier name place =>
      rw [hliteral] at hassignable
      cases hassignable
  | _ => rfl

/-- An expression that is no literal is the respelled write that it was. -/
theorem write?_respell {expr : Expr} (h : expr.isLiteral = false) (span : Span) :
    (expr.respell r).write? (r.span span) = (expr.write? span).map (Write.respell r) := by
  cases expr with
  | literal value raw own => cases h
  | assignment assignee value own =>
      cases assignee with
      | literal value raw place => exact write?_assignment_literal hr _ _ _ _ _ _
      | _ => rfl
  | _ => rfl

end Expr

/-- The inferred types are those of the literals that were there. -/
theorem Scope.infer_respell (scope : Scope) (expr : Expr) :
    scope.infer (expr.respell r) = scope.infer expr := by
  fun_induction Scope.infer scope expr with
  | case1 value raw span => exact hr.infer_literal scope value raw span
  | case3 operator left right span hoperator =>
      rw [Expr.respell, Scope.infer, if_pos hoperator]
  | case4 operator left right span hoperator ihLeft ihRight =>
      rw [Expr.respell, Scope.infer, if_neg hoperator, ihLeft, ihRight]
  | case6 operator argument span hoperator => simp [Expr.respell, Scope.infer, hoperator]
  | case7 operator argument span hoperator ih => simp [Expr.respell, Scope.infer, hoperator, ih]
  | _ => simp [Expr.respell, Scope.infer]

namespace Node

/-- The writes of an expression that is taken to be at `span`, if those of the nodes inside it are
respelled. -/
theorem writes_respell_expr (expr : Expr) (span : Span)
    (ih : ∀ child ∈ expr.nodes, (child.respell r).writes = child.writes.map (Write.respell r)) :
    ((expr.respell r).write? (r.span span)).toList ++ (expr.respell r).nodes.flatMap writes =
      ((expr.write? span).toList ++ expr.nodes.flatMap writes).map (Write.respell r) := by
  cases hliteral : expr.isLiteral with
  | false =>
      rw [Expr.nodes_respell hliteral, Expr.write?_respell hr hliteral, List.map_append,
        List.flatMap_map, List.map_flatMap, Option.toList_map]
      exact congrArg _ (List.flatMap_congr ih)
  | true =>
      cases expr with
      | literal value raw own =>
          have hnone := hr.writes_literal value raw own
          rw [writes_eq, List.append_eq_nil_iff] at hnone
          obtain ⟨hwrite, hnodes⟩ := hnone
          -- `hwrite` is about the span of the literal, but a statement writes at its own span.
          have hany : ∀ outer, (r.literal value raw own).write? outer = none := by
            intro outer
            cases hexpr : r.literal value raw own with
            | assignment assignee assigned place =>
                cases assignee with
                | identifier name at_ => simp [hexpr, write?, Expr.write?] at hwrite
                | _ => rfl
            | _ => rfl
          show ((r.literal value raw own).write? (r.span span)).toList ++ _ = []
          rw [hany]
          exact hnodes
      | _ => cases hliteral

/-- The writes of a respelled node are the respelled writes of the node. -/
theorem writes_respell (node : Node) :
    (node.respell r).writes = node.writes.map (Write.respell r) := by
  have hchildren : ∀ child ∈ node.inner,
      (child.respell r).writes = child.writes.map (Write.respell r) := fun child hchild =>
    writes_respell child
  -- Nodes with the same shape as before; expressions are apart, as a literal may change its shape.
  have hplain : (node.respell r).inner = node.inner.map (respell r) →
      (node.respell r).write? = node.write?.map (Write.respell r) →
      (node.respell r).writes = node.writes.map (Write.respell r) := by
    intro hinner hwrite
    rw [writes_eq, writes_eq node, hinner, hwrite, List.map_append, List.flatMap_map,
      List.map_flatMap, Option.toList_map]
    exact congrArg _ (List.flatMap_congr hchildren)
  cases node with
  | expr content =>
      rw [writes_eq, writes_eq (.expr content)]
      show ((content.respell r).write? (content.respell r).span).toList ++ _ = _
      rw [Expr.span_respell hr]
      exact writes_respell_expr hr content content.span hchildren
  | stmt content =>
      have hnodes := @Stmt.nodes_respell r content
      cases content with
      | expression value span =>
          rw [writes_eq, writes_eq (.stmt _)]
          exact writes_respell_expr hr value span hchildren
      | _ => exact hplain hnodes rfl
  | block content => exact hplain (by simp [inner, children, respell, Block.respell]) rfl
  | _ => exact hplain rfl rfl
termination_by sizeOf node
decreasing_by exact sizeOf_lt_of_mem_inner hchild

end Node

/-- The writes of a program are respelled one by one. -/
theorem Program.writes_respell (program : Program) :
    (program.respell r).writes = program.writes.map (Write.respell r) := by
  rw [Program.writes, Program.writes, Program.respell, List.flatMap_map, List.map_flatMap]
  exact List.flatMap_congr fun stmt _ => Node.writes_respell hr (.stmt stmt)

namespace Write

/-- A value fits after respelling iff it does before. -/
theorem misfit?_respell (scope : Scope) (name : String) (ty : Ty) (value : Expr) :
    misfit? scope name ty (value.respell r) =
      (misfit? scope name ty value).map (Prod.map id r.span) := by
  rw [misfit?, misfit?, Scope.infer_respell hr, Expr.span_respell hr]
  split <;> rfl

/-- A respelled write has the same fault, at the respelled span. -/
theorem fault?_respell (scope : Scope) (write : Write) :
    (write.respell r).fault? scope = (write.fault? scope).map (Prod.map id r.span) := by
  cases write with
  | declaration decl =>
      simp only [respell, fault?, VarDecl.respell]
      split
      · rfl
      · cases decl.declaredType with
        | none => rfl
        | some ty =>
            cases decl.initializer with
            | none => rfl
            | some value => exact misfit?_respell hr scope decl.name ty value
  | assignment name value span =>
      simp only [respell, fault?]
      split
      · rfl
      · cases scope.typeOf? name with
        | none => rfl
        | some ty => exact misfit?_respell hr scope name ty value

/-- A respelled write leads to the same scope. -/
theorem apply_respell (scope : Scope) (write : Write) :
    (write.respell r).apply scope = write.apply scope := by
  cases write with
  | declaration decl =>
      have hfault : (fault? scope (.declaration (decl.respell r))).isSome =
          (fault? scope (.declaration decl)).isSome := by
        rw [← respell, fault?_respell hr, Option.isSome_map]
      have hinitializer : (decl.respell r).initializer.isSome = decl.initializer.isSome :=
        Option.isSome_map
      rw [respell, apply, apply, hfault, hinitializer]
      rfl
  | assignment name value span => rfl

/-- Respelled writes leave the same scope. -/
theorem foldl_apply_respell (scope : Scope) (writes : List Write) :
    (writes.map (respell r)).foldl apply scope = writes.foldl apply scope := by
  rw [List.foldl_map]
  exact congrArg (fun step => writes.foldl step scope)
    (funext fun scope => funext fun write => apply_respell hr scope write)

/-- Respelled writes have the same faults, at the respelled places. -/
theorem faults_respell (scope : Scope) (writes : List Write) :
    faults scope (writes.map (respell r)) =
      (faults scope writes).map (Prod.map id r.span) := by
  induction writes generalizing scope with
  | nil => rfl
  | cons write rest ih =>
      rw [List.map_cons, faults, faults, fault?_respell hr, apply_respell hr, ih, List.map_append,
        Option.toList_map]

end Write

/-- The checker comes to the same scope for a respelled program, and reports the same at the
respelled spans. -/
theorem Checker.ofProgram_respell (program : Program) :
    (ofProgram (program.respell r)).scope = (ofProgram program).scope ∧
      (program.respell r).check = program.check.map (Diagnostic.mapSpan r.span) := by
  constructor
  · rw [ofProgram_eq_foldl, ofProgram_eq_foldl, (foldl_judge _ empty).1, (foldl_judge _ empty).1,
      Program.writes_respell hr, Write.foldl_apply_respell hr]
  · rw [Program.check_eq_faults, Program.check_eq_faults, Program.writes_respell hr,
      Write.faults_respell hr, List.map_map, List.map_map]
    rfl

end ScriptLint
