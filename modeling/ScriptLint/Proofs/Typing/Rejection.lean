import Mathlib
import ScriptLint.Grammar.Program
import ScriptLint.Proofs.Typing.Statics

/-!
# Rejected declarations

A declaration whose initializer does not fit its annotation is rejected: its name stays undeclared
and without a value, and can be declared again. Only the mark of a static variable stays, since it
is made before the initializer is judged. `Checker.check_rejected` says that this is the one trace,
and what it means for a whole program: a name may be reported as reassigned that is not static
itself, but then a static declaration of it has been rejected before. `Checker.rejected_leaves_mark`
is a source where this happens.
-/

namespace ScriptLint

namespace Write

variable {scope : Scope} {write : Write} {name : String}

/-- The declaration is rejected in a scope: it is the first of its name, and its initializer does
not fit its annotation. -/
structure Rejected (scope : Scope) (decl : VarDecl) (ty : Ty) (value : Expr) : Prop where
  fresh : scope.isDeclared decl.name = false
  declaredType : decl.declaredType = some ty
  initializer : decl.initializer = some value
  misfits : ty.accepts (scope.infer value) = false

/-- A rejected declaration leaves nothing but the mark of a static variable. -/
theorem apply_of_rejected {decl : VarDecl} {ty : Ty} {value : Expr}
    (h : Rejected scope decl ty value) :
    apply scope (.declaration decl) =
      if decl.isStatic then scope.addStatic decl.name else scope := by
  have hfault : (fault? scope (.declaration decl)).isSome = true := by
    simp [fault?, h.fresh, h.declaredType, h.initializer, misfit?, h.misfits]
  rw [apply, if_neg (by simp [h.fresh])]
  dsimp only
  rw [if_pos hfault]

/-- A declaration that is the first of its name is accepted or rejected. -/
theorem isDeclared_or_rejected {decl : VarDecl} (hfresh : scope.isDeclared decl.name = false) :
    (apply scope (.declaration decl)).isDeclared decl.name = true ∨
      ∃ ty value, Rejected scope decl ty value := by
  cases hfault : fault? scope (.declaration decl) with
  | none =>
      refine .inl ?_
      have hentered (noted : Scope) (ty : Ty) :
          (noted.declare decl.name ty).isDeclared decl.name = true := by
        rw [Scope.isDeclared, Scope.typeOf?_declare, if_pos rfl]
        rfl
      rw [apply, if_neg (by simp [hfresh])]
      dsimp only
      rw [if_neg (by simp [hfault])]
      split
      · exact hentered _ _
      · exact hentered _ _
  | some fault =>
      refine .inr ?_
      rw [fault?, if_neg (by simp [hfresh])] at hfault
      obtain ⟨ty, hty, hfault⟩ := Option.bind_eq_some_iff.1 hfault
      obtain ⟨value, hvalue, hfault⟩ := Option.bind_eq_some_iff.1 hfault
      refine ⟨ty, value, hfresh, hty, hvalue, ?_⟩
      rw [misfit?] at hfault
      split at hfault
      · cases hfault
      · rename_i hmisfits
        exact eq_false_of_ne_true hmisfits

/-- A name becomes static by a static declaration that is the first of it, and in no other way. -/
theorem declaration_of_isStatic_apply (h : (write.apply scope).isStatic name = true) :
    scope.isStatic name = true ∨ ∃ decl, write = .declaration decl ∧ decl.name = name ∧
      decl.isStatic = true ∧ scope.isDeclared name = false := by
  by_cases hbefore : scope.isStatic name = true
  · exact .inl hbefore
  · refine .inr ?_
    cases write with
    | assignment target value span =>
        have hsame : (apply scope (.assignment target value span)).isStatic name =
            scope.isStatic name := by
          rw [apply]
          split <;> rfl
        rw [hsame] at h
        exact absurd h hbefore
    | declaration decl =>
        by_cases hname : decl.name = name
        · subst hname
          cases hfresh : scope.isDeclared decl.name with
          | true =>
              rw [apply_of_isDeclared hfresh] at h
              exact absurd h hbefore
          | false =>
              refine ⟨decl, rfl, rfl, ?_, rfl⟩
              by_contra hstatic
              -- Without the keyword none of the updates makes the name static.
              rw [apply, if_neg (by simp [hfresh])] at h
              dsimp only at h
              rw [if_neg hstatic] at h
              split at h
              · exact hbefore h
              split at h
              · exact hbefore h
              · exact hbefore h
        · have hstatus : (apply scope (.declaration decl)).status name = scope.status name :=
            status_apply_of_ne hname
          have hsame : (apply scope (.declaration decl)).isStatic name = scope.isStatic name :=
            congrArg (fun status => status.2.1) hstatus
          rw [hsame] at h
          exact absurd h hbefore

/-- A name that is static behind some writes was so before, or was made so by one of them. -/
theorem declaration_of_isStatic_foldl {writes : List Write}
    (h : (writes.foldl apply scope).isStatic name = true) :
    scope.isStatic name = true ∨ ∃ before decl after,
      writes = before ++ .declaration decl :: after ∧ decl.name = name ∧ decl.isStatic = true ∧
        (before.foldl apply scope).isDeclared name = false := by
  induction writes generalizing scope with
  | nil => exact .inl h
  | cons write rest ih =>
      rcases ih h with hnext | ⟨before, decl, after, rfl, hname, hstatic, hfresh⟩
      · rcases declaration_of_isStatic_apply hnext with
          hbefore | ⟨decl, rfl, hname, hstatic, hfresh⟩
        · exact .inl hbefore
        · exact .inr ⟨[], decl, rest, rfl, hname, hstatic, hfresh⟩
      · exact .inr ⟨write :: before, decl, after, rfl, hname, hstatic, hfresh⟩

end Write

namespace Checker

/-- The walk of an expression changes the scope by its writes. -/
theorem scope_walkExpr (checker : Checker) (value : Expr) :
    (walkExpr value.span value checker).scope =
      (Node.expr value).writes.foldl Write.apply checker.scope := by
  rw [show walkExpr value.span value checker = _ from walkNode_eq_foldl (.expr value) checker]
  exact (foldl_judge _ checker).1

/-- A rejected declaration leaves the mark of a static variable, if it is static, and no other
trace. -/
theorem scope_walkStmt_of_rejected {checker : Checker} {decl : VarDecl} {ty : Ty} {value : Expr}
    (h : Write.Rejected checker.scope decl ty value) :
    (walkStmt (.varDecl decl) checker).scope =
      (walkExpr value.span value (checker.noteStatic decl.isStatic decl.name)).scope := by
  have hwalk : walkStmt (.varDecl decl) checker =
      walkExpr value.span value (checker.judge (.declaration decl)) := by
    rw [walkStmt, h.initializer, declare_eq_judge]
    rfl
  have hscope : (checker.judge (.declaration decl)).scope =
      (checker.noteStatic decl.isStatic decl.name).scope := by
    rw [show (checker.judge (.declaration decl)).scope = _ from Write.apply_of_rejected h,
      noteStatic]
    split <;> rfl
  rw [hwalk, scope_walkExpr, scope_walkExpr, hscope]

/-- Nothing becomes static inside an expression. -/
theorem isStatic_of_walkExpr {checker : Checker} {value : Expr} {name : String}
    (h : (walkExpr value.span value checker).scope.isStatic name = true) :
    checker.scope.isStatic name = true := by
  rw [scope_walkExpr] at h
  rcases Write.declaration_of_isStatic_foldl h with hbefore | ⟨before, decl, after, hwrites, -⟩
  · exact hbefore
  · have hphrase : (Node.expr value).IsPhrase := trivial
    obtain ⟨target, content, span, hassignment⟩ :=
      hphrase.assigns (show .declaration decl ∈ _ by rw [hwrites]; simp)
    cases hassignment

/-- A rejected declaration leaves no trace just if it adds no mark. -/
theorem rejected_without_trace_iff {checker : Checker} {decl : VarDecl} {ty : Ty} {value : Expr}
    (h : Write.Rejected checker.scope decl ty value) :
    (walkStmt (.varDecl decl) checker).scope = (walkExpr value.span value checker).scope ↔
      (decl.isStatic = true → checker.scope.isStatic decl.name = true) := by
  rw [scope_walkStmt_of_rejected h]
  constructor
  · intro hsame hstatic
    have hmarked :
        (checker.noteStatic decl.isStatic decl.name).scope.isStatic decl.name = true := by
      rw [noteStatic, if_pos hstatic]
      show (checker.scope.addStatic decl.name).isStatic decl.name = true
      simp
    have hextends : (checker.noteStatic decl.isStatic decl.name).scope.Extends
        (walkExpr value.span value (checker.noteStatic decl.isStatic decl.name)).scope := by
      rw [scope_walkExpr]
      exact Write.extends_foldl _ _
    have hafter := hextends.statics hmarked
    rw [hsame] at hafter
    exact isStatic_of_walkExpr hafter
  · intro hmark
    have hscope : (checker.noteStatic decl.isStatic decl.name).scope = checker.scope := by
      rw [noteStatic]
      split
      next hstatic =>
        have hmem : decl.name ∈ checker.scope.statics := List.contains_iff_mem.1 (hmark hstatic)
        show checker.scope.addStatic decl.name = checker.scope
        rw [Scope.addStatic, List.insert_of_mem hmem]
      next => rfl
    rw [scope_walkExpr, scope_walkExpr, hscope]

/-- A name that is reported as reassigned was made static by the first declaration of it, accepted
or rejected. -/
theorem declaration_of_reassigned {program : Program} {name : String} {diagnostic : Diagnostic}
    (hmem : diagnostic ∈ program.check)
    (hwords : diagnostic.words (.staticReassignment name) = true) :
    ∃ (before between after : List Write) (decl : VarDecl) (value : Expr),
      program.writes = before ++ .declaration decl ::
        (between ++ .assignment name value diagnostic.span :: after) ∧
      decl.name = name ∧ decl.isStatic = true ∧
      let reached := before.foldl judge empty
      reached.scope.isDeclared name = false ∧
      ((reached.declare decl).scope.isDeclared name = true ∨
        ∃ ty value, Write.Rejected reached.scope decl ty value) := by
  obtain ⟨fault, hfault, rfl⟩ := Program.mem_check_iff.1 hmem
  have hcause : fault.1 = .staticReassignment name :=
    ((Cause.IsFault.reassigned name).words_iff (Write.isFault_of_mem_faults hfault) fault.2).1
      hwords
  obtain ⟨front, write, after, hwrites, hfound⟩ := Write.mem_faults_iff.1 hfault
  have hfound' : write.fault? (front.foldl Write.apply .empty) =
      some (.staticReassignment name, fault.2) := by
    rw [hfound, ← hcause]
  obtain ⟨value, rfl, hstatic, -⟩ := Write.fault?_eq_reassigned_iff.1 hfound'
  rcases Write.declaration_of_isStatic_foldl hstatic with
    hnever | ⟨before, decl, between, rfl, rfl, hkeyword, hfresh⟩
  · cases hnever
  · have hreached : (before.foldl judge empty).scope = before.foldl Write.apply .empty :=
      (foldl_judge before empty).1
    refine ⟨before, between, after, decl, value, ?_, rfl, hkeyword, ?_, ?_⟩
    · rw [hwrites, List.append_assoc]
      rfl
    · rw [hreached]
      exact hfresh
    · rw [declare_eq_judge, hreached]
      show (Write.apply (before.foldl judge empty).scope (.declaration decl)).isDeclared decl.name =
        true ∨ _
      rw [hreached]
      exact Write.isDeclared_or_rejected hfresh

/-- A rejected declaration leaves the mark of a static variable, if it is static, and no other
trace: apart from that the scope is the one behind its initializer. So it leaves no trace just if it
is not static, or its name had the mark before. A name is reported as reassigned only if a static
declaration of it comes before that is the first of the name, and was accepted or rejected. -/
theorem check_rejected (checker : Checker) (decl : VarDecl) (program : Program) (name : String) :
    (∀ (ty : Ty) (value : Expr), Write.Rejected checker.scope decl ty value →
      (walkStmt (.varDecl decl) checker).scope =
          (walkExpr value.span value (checker.noteStatic decl.isStatic decl.name)).scope ∧
        ((walkStmt (.varDecl decl) checker).scope = (walkExpr value.span value checker).scope ↔
          (decl.isStatic = true → checker.scope.isStatic decl.name = true))) ∧
    ∀ diagnostic ∈ program.check, diagnostic.words (.staticReassignment name) = true →
      ∃ (before between after : List Write) (first : VarDecl) (value : Expr),
        program.writes = before ++ .declaration first ::
          (between ++ .assignment name value diagnostic.span :: after) ∧
        first.name = name ∧ first.isStatic = true ∧
        let reached := before.foldl judge empty
        reached.scope.isDeclared name = false ∧
        ((reached.declare first).scope.isDeclared name = true ∨
          ∃ ty value, Write.Rejected reached.scope first ty value) := by
  constructor
  · intro ty value hrejected
    exact ⟨scope_walkStmt_of_rejected hrejected, rejected_without_trace_iff hrejected⟩
  · intro diagnostic hmem hwords
    exact declaration_of_reassigned hmem hwords

/-- In `static var int x='';var x=x;x=x;` the first declaration of `x` is rejected, but leaves its
mark. The second one is accepted and not static, and yet the assignment is reported. -/
theorem rejected_leaves_mark :
    let value : Expr := .literal (.string "") "''" ⟨17, 19⟩
    let rejected : VarDecl := ⟨"x", true, some .int, some value, ⟨0, 20⟩⟩
    let accepted : VarDecl := ⟨"x", false, none, some (.identifier "x" ⟨26, 27⟩), ⟨20, 28⟩⟩
    let last : Expr := .assignment (.identifier "x" ⟨28, 29⟩) (.identifier "x" ⟨30, 31⟩) ⟨28, 31⟩
    let program : Program :=
      ⟨[.varDecl rejected, .varDecl accepted, .expression last ⟨28, 32⟩], ⟨0, 32⟩⟩
    Program.parse ⟨5, true⟩ "static var int x='';var x=x;x=x;" = .ok ⟨program, []⟩ ∧
      Write.Rejected empty.scope rejected .int value ∧
      (walkStmt (.varDecl rejected) empty).scope ≠ (walkExpr value.span value empty).scope ∧
      ((walkStmt (.varDecl rejected) empty).declare accepted).scope.isDeclared "x" = true ∧
      accepted.isStatic = false ∧
      .ofCause (.staticReassignment "x") ⟨28, 32⟩ ∈ program.check := by
  intro value rejected accepted last program
  have hparse : Program.parse ⟨5, true⟩ "static var int x='';var x=x;x=x;" =
      .ok ⟨program, []⟩ := by cbv
  have hcheck : program.check =
      [.ofCause (.typeMismatch "x" "int" "string") ⟨17, 19⟩,
        .ofCause (.staticReassignment "x") ⟨28, 32⟩] := rfl
  refine ⟨hparse, ⟨rfl, rfl, rfl, rfl⟩, ?_, rfl, rfl, ?_⟩
  · decide
  · rw [hcheck]
    exact List.mem_cons_of_mem _ List.mem_cons_self

end Checker

end ScriptLint
