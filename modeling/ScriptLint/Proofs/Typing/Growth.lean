import ScriptLint.Proofs.Typing.Parts
import ScriptLint.Proofs.Typing.Statics

/-!
# Scopes only grow

Whatever is walked, a scope loses nothing, and a name that is declared is final: it keeps its type,
it neither becomes static nor ceases to be, and it is given a value only if it is static. New names
come from declarations in the tree. `Checker.walkStmt_grows` says so of every statement and every
checker, and that the declarations which find their name declared are reported once each and change
nothing themselves.
-/

namespace ScriptLint

namespace Scope

/-- The later scope knows all that the earlier one does. Of a name that is declared in the earlier
one it knows nothing new, but that a static variable has been given a value. -/
structure Grows (scope later : Scope) : Prop extends scope.Extends later where
  static_eq : ∀ {name}, scope.isDeclared name = true → later.isStatic name = scope.isStatic name
  assigned_eq : ∀ {name}, scope.isDeclared name = true → scope.isStatic name = false →
    later.isAssigned name = scope.isAssigned name

/-- A scope that stays the same has grown. -/
theorem Grows.refl (scope : Scope) : scope.Grows scope :=
  ⟨.refl scope, fun _ => rfl, fun _ _ => rfl⟩

/-- Growth goes on. -/
theorem Grows.trans {scope middle later : Scope} (hfirst : scope.Grows middle)
    (hsecond : middle.Grows later) : scope.Grows later where
  toExtends := hfirst.toExtends.trans hsecond.toExtends
  static_eq hdeclared :=
    (hsecond.static_eq (hfirst.isDeclared hdeclared)).trans (hfirst.static_eq hdeclared)
  assigned_eq hdeclared hstatic := by
    have hmiddle := hsecond.assigned_eq (hfirst.isDeclared hdeclared)
      ((hfirst.static_eq hdeclared).trans hstatic)
    exact hmiddle.trans (hfirst.assigned_eq hdeclared hstatic)

end Scope

namespace Write

variable {scope : Scope} {write : Write} {name : String}

/-! ## One write -/

/-- A write of a declared name leaves its mark as a static variable, or the lack of it. -/
theorem isStatic_apply (hdeclared : scope.isDeclared name = true) :
    (write.apply scope).isStatic name = scope.isStatic name := by
  by_cases hname : write.name = name
  · cases write with
    | declaration decl =>
        obtain rfl : decl.name = name := hname
        rw [apply_of_isDeclared hdeclared]
    | assignment target value span =>
        rw [apply]
        split
        · exact scope.isStatic_markAssigned target name
        · rfl
  · exact congrArg (fun status => status.2.1) (status_apply_of_ne hname)

/-- An assignment to a name that is not static changes nothing. -/
theorem apply_assignment_of_not_static {value : Expr} {span : Span}
    (hstatic : scope.isStatic name = false) :
    apply scope (.assignment name value span) = scope := by
  rw [apply, if_neg (by simp [hstatic])]

/-- A write makes a scope grow. -/
theorem grows_apply (scope : Scope) (write : Write) : scope.Grows (write.apply scope) where
  toExtends := extends_apply scope write
  static_eq := isStatic_apply
  assigned_eq {name} hdeclared hstatic := by
    by_cases hname : write.name = name
    · cases write with
      | declaration decl =>
          obtain rfl : decl.name = name := hname
          rw [apply_of_isDeclared hdeclared]
      | assignment target value span =>
          obtain rfl : target = name := hname
          rw [apply_assignment_of_not_static hstatic]
    · exact congrArg (fun status => status.2.2) (status_apply_of_ne hname)

/-- A name that a write declares is the one of the declaration that it is. -/
theorem declaration_of_isDeclared_apply (hfresh : scope.isDeclared name = false)
    (h : (write.apply scope).isDeclared name = true) :
    ∃ decl, write = .declaration decl ∧ decl.name = name := by
  by_cases hname : write.name = name
  · cases write with
    | declaration decl => exact ⟨decl, rfl, hname⟩
    | assignment target value span =>
        have hsame : (apply scope (.assignment target value span)).isDeclared name =
            scope.isDeclared name := by
          rw [apply]
          split <;> rfl
        rw [hsame, hfresh] at h
        cases h
  · have hsame : (write.apply scope).isDeclared name = scope.isDeclared name :=
      congrArg (fun status => status.1.isSome) (status_apply_of_ne hname)
    rw [hsame, hfresh] at h
    cases h

/-- The declaration that a write is, if it finds its name declared. -/
def redeclared? (scope : Scope) : Write → Option VarDecl
  | .declaration decl => if scope.isDeclared decl.name then some decl else none
  | .assignment _ _ _ => none

/-- What is wrong with a write is that a name is declared already just if the write is a declaration
that finds it so. -/
theorem fault?_eq_redeclared_iff {span : Span} :
    write.fault? scope = some (.variableAlreadyDeclared name, span) ↔
      ∃ decl, write.redeclared? scope = some decl ∧ decl.name = name ∧ decl.span = span := by
  have hmisfit : ∀ (target : String) (ty : Ty) (value : Expr),
      misfit? scope target ty value ≠ some (.variableAlreadyDeclared name, span) := by
    intro target ty value h
    unfold misfit? at h
    split at h <;> cases h
  cases write with
  | declaration decl =>
      cases hdeclared : scope.isDeclared decl.name with
      | true => simp [fault?, redeclared?, hdeclared]
      | false =>
          simp only [fault?, redeclared?, hdeclared, Bool.false_eq_true, if_false]
          constructor
          · intro h
            obtain ⟨ty, -, h⟩ := Option.bind_eq_some_iff.1 h
            obtain ⟨value, -, h⟩ := Option.bind_eq_some_iff.1 h
            exact absurd h (hmisfit _ _ _)
          · rintro ⟨found, hnone, -⟩
            cases hnone
  | assignment target value found =>
      constructor
      · intro h
        simp only [fault?] at h
        split at h
        · cases h
        · obtain ⟨ty, -, h⟩ := Option.bind_eq_some_iff.1 h
          exact absurd h (hmisfit _ _ _)
      · rintro ⟨found, hnone, -⟩
        cases hnone

/-! ## Runs -/

/-- Writes make a scope grow. -/
theorem grows_foldl (writes : List Write) (scope : Scope) :
    scope.Grows (writes.foldl apply scope) := by
  induction writes generalizing scope with
  | nil => exact .refl scope
  | cons write rest ih => exact (grows_apply scope write).trans (ih (write.apply scope))

/-- A name that writes declare is the one of a declaration among them. -/
theorem declaration_of_isDeclared_foldl {writes : List Write}
    (hfresh : scope.isDeclared name = false)
    (h : (writes.foldl apply scope).isDeclared name = true) :
    ∃ decl, .declaration decl ∈ writes ∧ decl.name = name := by
  induction writes generalizing scope with
  | nil =>
      rw [List.foldl_nil, hfresh] at h
      cases h
  | cons write rest ih =>
      cases hnext : (write.apply scope).isDeclared name with
      | true =>
          obtain ⟨decl, rfl, hname⟩ := declaration_of_isDeclared_apply hfresh hnext
          exact ⟨decl, List.mem_cons_self, hname⟩
      | false =>
          obtain ⟨decl, hmem, hname⟩ := ih hnext h
          exact ⟨decl, List.mem_cons_of_mem write hmem, hname⟩

/-- The declarations among writes that find their name declared, in their order. -/
def redeclared : Scope → List Write → List VarDecl
  | _, [] => []
  | scope, write :: rest =>
      (write.redeclared? scope).toList ++ redeclared (write.apply scope) rest

/-- Of one write, the fault that a name is declared already. -/
theorem filter_fault?_redeclared (scope : Scope) (write : Write) (name : String) :
    (write.fault? scope).toList.filter (·.1 = .variableAlreadyDeclared name) =
      ((write.redeclared? scope).toList.filter (·.name = name)).map
        fun decl => (.variableAlreadyDeclared name, decl.span) := by
  cases hfound : write.redeclared? scope with
  | some decl =>
      have hfault : write.fault? scope = some (.variableAlreadyDeclared decl.name, decl.span) :=
        fault?_eq_redeclared_iff.2 ⟨decl, hfound, rfl, rfl⟩
      rw [hfault]
      by_cases hname : decl.name = name
      · simp [hname]
      · simp [hname]
  | none =>
      rw [Option.toList_none, List.filter_nil, List.map_nil, List.filter_eq_nil_iff]
      intro fault hfault hcause
      have hwrong : write.fault? scope = some (.variableAlreadyDeclared name, fault.2) := by
        rw [Option.mem_toList.1 hfault, ← of_decide_eq_true hcause]
      obtain ⟨decl, hdecl, -⟩ := fault?_eq_redeclared_iff.1 hwrong
      rw [hfound] at hdecl
      cases hdecl

/-- The faults of a name that is declared already are those of the declarations that find it so, one
each and in their order. -/
theorem filter_faults_redeclared (scope : Scope) (writes : List Write) (name : String) :
    (faults scope writes).filter (·.1 = .variableAlreadyDeclared name) =
      ((redeclared scope writes).filter (·.name = name)).map
        fun decl => (.variableAlreadyDeclared name, decl.span) := by
  induction writes generalizing scope with
  | nil => rfl
  | cons write rest ih =>
      rw [faults, redeclared, List.filter_append, List.filter_append, List.map_append, ih,
        filter_fault?_redeclared]

end Write

/-! ## The declarations in a tree -/

namespace Node

/-- A node is the declaration that it is written as. -/
theorem eq_varDecl_of_write? {node : Node} {decl : VarDecl}
    (h : node.write? = some (.declaration decl)) : node = .stmt (.varDecl decl) := by
  unfold write? at h
  split at h
  next => cases h; rfl
  next =>
      obtain ⟨name, value, hassignment, -⟩ := Expr.write?_eq_some h
      cases hassignment
  next =>
      obtain ⟨name, value, hassignment, -⟩ := Expr.write?_eq_some h
      cases hassignment
  next => cases h

/-- The declarations in a child are among the writes inside a node. -/
theorem declaration_mem_of_child {node child : Node} {decl : VarDecl}
    (hchild : child ∈ node.children) (h : .declaration decl ∈ child.writes) :
    .declaration decl ∈ node.inner.flatMap writes := by
  unfold inner
  split
  next value span =>
      -- Such a statement is taken together with its expression, which is no declaration.
      obtain rfl : child = .expr value := by simpa [children, Stmt.nodes] using hchild
      have hphrase : (Node.expr value).IsPhrase := trivial
      obtain ⟨target, content, place, hassignment⟩ := hphrase.assigns h
      cases hassignment
  next => exact List.mem_flatMap.2 ⟨child, hchild, h⟩

/-- The declarations among the writes of a node are those that are part of it. -/
theorem declaration_mem_writes_iff {node : Node} {decl : VarDecl} :
    .declaration decl ∈ node.writes ↔ node.HasPart (.stmt (.varDecl decl)) := by
  constructor
  · intro h
    obtain ⟨part, hpart, hwrite⟩ := exists_part_of_mem_writes h
    rwa [eq_varDecl_of_write? hwrite] at hpart
  · intro h
    generalize hpart : Node.stmt (.varDecl decl) = part at h
    induction h with
    | self =>
        rw [← hpart, writes_eq]
        exact List.mem_append_left _ List.mem_cons_self
    | child hchild _ ih =>
        rw [writes_eq]
        exact List.mem_append_right _ (declaration_mem_of_child hchild (ih hpart))

end Node

/-- The declarations among the writes of a program are those in its statements. -/
theorem Program.declaration_mem_writes_iff {program : Program} {decl : VarDecl} :
    .declaration decl ∈ program.writes ↔ program.HasPart (.stmt (.varDecl decl)) := by
  simp only [writes, HasPart, List.mem_flatMap, Node.declaration_mem_writes_iff]

namespace Checker

/-- A declaration that finds its name declared is reported, and changes nothing. -/
theorem declare_of_isDeclared {checker : Checker} {decl : VarDecl}
    (h : checker.scope.isDeclared decl.name = true) :
    checker.declare decl = checker.report (.variableAlreadyDeclared decl.name) decl.span := by
  rw [declare, if_pos h]

/-- The scope only grows, and the first declaration of a name that is accepted is final. Walking a
statement takes no name, type or mark back; a declared name stays static or not, and is given a
value only if it is static; a name that is new is the one of a declaration inside the statement.
Every declaration inside is visited. Those that find their name declared change nothing themselves,
and are reported once each, at their own spans and in their order. -/
theorem walkStmt_grows (checker : Checker) (stmt : Stmt) :
    let walked := walkStmt stmt checker
    let visited := (Node.stmt stmt).writes
    checker.scope.Grows walked.scope ∧
    (∀ name, checker.scope.isDeclared name = false → walked.scope.isDeclared name = true →
      ∃ decl, (Node.stmt stmt).HasPart (.stmt (.varDecl decl)) ∧ decl.name = name) ∧
    (∀ decl, .declaration decl ∈ visited ↔ (Node.stmt stmt).HasPart (.stmt (.varDecl decl))) ∧
    (∀ (before after : List Write) (decl : VarDecl),
      visited = before ++ .declaration decl :: after →
      let reached := before.foldl judge checker
      walked = after.foldl judge (reached.declare decl) ∧
        (reached.scope.isDeclared decl.name = true →
          (reached.declare decl).scope = reached.scope ∧
          (reached.declare decl).diagnostics = reached.diagnostics.push
            (.ofCause (.variableAlreadyDeclared decl.name) decl.span))) ∧
    ∃ later, walked.diagnostics.toList = checker.diagnostics.toList ++ later ∧
      ∀ name, later.filter (·.words (.variableAlreadyDeclared name)) =
        ((Write.redeclared checker.scope visited).filter (·.name = name)).map
          fun decl => .ofCause (.variableAlreadyDeclared name) decl.span := by
  intro walked visited
  have hwalked : walked = visited.foldl judge checker := walkNode_eq_foldl (.stmt stmt) checker
  obtain ⟨hscope, hdiagnostics⟩ := foldl_judge visited checker
  rw [← hwalked] at hscope hdiagnostics
  refine ⟨?_, ?_, fun decl => Node.declaration_mem_writes_iff, ?_, _, hdiagnostics, ?_⟩
  · rw [hscope]
    exact Write.grows_foldl visited checker.scope
  · intro name hfresh hdeclared
    rw [hscope] at hdeclared
    obtain ⟨decl, hmem, hname⟩ := Write.declaration_of_isDeclared_foldl hfresh hdeclared
    exact ⟨decl, Node.declaration_mem_writes_iff.1 hmem, hname⟩
  · intro before after decl hvisited reached
    refine ⟨?_, fun hdeclared => ?_⟩
    · rw [hwalked, hvisited, List.foldl_append, List.foldl_cons, declare_eq_judge]
    · rw [declare_of_isDeclared hdeclared]
      exact ⟨rfl, rfl⟩
  · intro name
    rw [Write.filter_words_faults (.redeclared name), Write.filter_faults_redeclared, List.map_map]
    rfl

/-- `static var x=(x=nil);` in a block where `x` is declared: it does not become static, neither the
declaration nor the assignment gives it a value, and the declaration is reported. -/
theorem walkStmt_grows_redeclared :
    let value : Expr :=
      .assignment (.identifier "x" ⟨15, 16⟩) (.literal .nil "nil" ⟨17, 20⟩) ⟨15, 20⟩
    let decl : VarDecl := ⟨"x", true, none, some value, ⟨1, 22⟩⟩
    let stmt : Stmt := .block ⟨[.varDecl decl], ⟨0, 23⟩⟩
    let checker : Checker := ⟨⟨[("x", .int)], [], []⟩, #[]⟩
    let walked := walkStmt stmt checker
    checker.scope.isDeclared "x" = true ∧ checker.scope.isStatic "x" = false ∧
      walked.scope.isStatic "x" = false ∧ walked.scope.isAssigned "x" = false ∧
      (∃ later, walked.diagnostics.toList = later ∧
        later.filter (·.words (.variableAlreadyDeclared "x")) =
          [.ofCause (.variableAlreadyDeclared "x") ⟨1, 22⟩]) := by
  intro value decl stmt checker walked
  obtain ⟨hgrows, -, -, -, later, hlater, hreported⟩ := walkStmt_grows checker stmt
  have hvisited : (Node.stmt stmt).writes =
      [.declaration decl, .assignment "x" (.literal .nil "nil" ⟨17, 20⟩) ⟨15, 20⟩] := by
    simp [stmt, decl, value, Node.writes_eq, Node.write?, Expr.write?, Node.inner, Node.children,
      Stmt.nodes, Expr.nodes, Expr.span]
  refine ⟨rfl, rfl, hgrows.static_eq rfl, hgrows.assigned_eq rfl rfl, later, hlater, ?_⟩
  rw [hreported "x", hvisited]
  rfl

end Checker

end ScriptLint
