import ScriptLint.Proofs.Typing.Faults

/-!
# Static variables are written once

A scope never forgets: a write changes what is known of its own name only, and takes nothing back.
So once a static variable has been given a value, every assignment to it is a fault and nothing
else. `Checker.check_static_once` says so of the runs of the checker: from the declaration of a
static variable on, at most one write to it goes unreported.
-/

namespace ScriptLint

namespace Scope

@[simp] theorem isStatic_addStatic (scope : Scope) (name other : String) :
    (scope.addStatic name).isStatic other = (other == name || scope.isStatic other) :=
  List.contains_insert

@[simp] theorem isAssigned_addStatic (scope : Scope) (name other : String) :
    (scope.addStatic name).isAssigned other = scope.isAssigned other := rfl

@[simp] theorem isStatic_markAssigned (scope : Scope) (name other : String) :
    (scope.markAssigned name).isStatic other = scope.isStatic other := rfl

@[simp] theorem isAssigned_markAssigned (scope : Scope) (name other : String) :
    (scope.markAssigned name).isAssigned other = (other == name || scope.isAssigned other) :=
  List.contains_insert

/-- All that a scope knows of a name. -/
def status (scope : Scope) (name : String) : Option Ty × Bool × Bool :=
  (scope.typeOf? name, scope.isStatic name, scope.isAssigned name)

/-- The later scope knows all that the earlier one does. -/
structure Extends (scope later : Scope) : Prop where
  types : ∀ {name ty}, scope.typeOf? name = some ty → later.typeOf? name = some ty
  statics : ∀ {name}, scope.isStatic name = true → later.isStatic name = true
  assigned : ∀ {name}, scope.isAssigned name = true → later.isAssigned name = true

/-- A scope knows what it knows. -/
theorem Extends.refl (scope : Scope) : scope.Extends scope :=
  ⟨id, id, id⟩

/-- What is known stays known. -/
theorem Extends.trans {scope middle later : Scope} (hfirst : scope.Extends middle)
    (hsecond : middle.Extends later) : scope.Extends later :=
  ⟨fun h => hsecond.types (hfirst.types h), fun h => hsecond.statics (hfirst.statics h),
    fun h => hsecond.assigned (hfirst.assigned h)⟩

/-- Making a name static takes nothing back. -/
theorem extends_addStatic (scope : Scope) (name : String) :
    scope.Extends (scope.addStatic name) :=
  ⟨id, fun h => by simp [h], id⟩

/-- Giving a name its value takes nothing back. -/
theorem extends_markAssigned (scope : Scope) (name : String) :
    scope.Extends (scope.markAssigned name) :=
  ⟨id, id, fun h => by simp [h]⟩

/-- Declaring a name loses nothing if it was not declared. -/
theorem extends_declare {scope : Scope} {name : String} (h : scope.isDeclared name = false)
    (ty : Ty) : scope.Extends (scope.declare name ty) := by
  refine ⟨fun {other found} htype => ?_, id, id⟩
  have hne : other ≠ name := by
    intro heq
    rw [heq] at htype
    simp [isDeclared, htype] at h
  rw [typeOf?_declare, if_neg hne]
  exact htype

/-- A declared name stays declared. -/
theorem Extends.isDeclared {scope later : Scope} (h : scope.Extends later) {name : String}
    (hdeclared : scope.isDeclared name = true) : later.isDeclared name = true := by
  obtain ⟨ty, hty⟩ := Option.isSome_iff_exists.1 hdeclared
  exact Option.isSome_iff_exists.2 ⟨ty, h.types hty⟩

end Scope

namespace Write

/-! ## One write -/

/-- The name that is written. -/
def name : Write → String
  | .declaration decl => decl.name
  | .assignment name _ _ => name

variable {scope : Scope} {write : Write} {name : String}

/-- Where a write is reported if it is an assignment to a name. -/
def assignedAt? (name : String) : Write → Option Span
  | .declaration _ => none
  | .assignment target _ span => if target = name then some span else none

/-- A declaration of a declared name changes nothing. -/
theorem apply_of_isDeclared {decl : VarDecl} (h : scope.isDeclared decl.name = true) :
    apply scope (.declaration decl) = scope := by
  rw [apply, if_pos h]

/-- A write takes nothing back. -/
theorem extends_apply (scope : Scope) (write : Write) : scope.Extends (write.apply scope) := by
  cases write with
  | assignment name value span =>
      rw [apply]
      split
      · exact scope.extends_markAssigned name
      · exact .refl scope
  | declaration decl =>
      by_cases hdeclared : scope.isDeclared decl.name = true
      · rw [apply_of_isDeclared hdeclared]
        exact .refl scope
      · rw [apply, if_neg hdeclared]
        rw [Bool.not_eq_true] at hdeclared
        have hnoted : scope.Extends
            (if decl.isStatic then scope.addStatic decl.name else scope) := by
          split
          · exact scope.extends_addStatic decl.name
          · exact .refl scope
        generalize hscope : (if decl.isStatic then scope.addStatic decl.name else scope) = noted
        rw [hscope] at hnoted
        have hfree : noted.isDeclared decl.name = false := by
          rw [← hscope]
          split
          · exact hdeclared
          · exact hdeclared
        have hentered := hnoted.trans (Scope.extends_declare hfree (decl.declaredType.getD .any))
        dsimp only
        split
        · exact hnoted
        split
        · exact hentered.trans (Scope.extends_markAssigned _ decl.name)
        · exact hentered

/-- A write changes what is known of its own name only. -/
theorem status_apply_of_ne (h : write.name ≠ name) :
    (write.apply scope).status name = scope.status name := by
  have hne : name ≠ write.name := Ne.symm h
  cases write with
  | assignment target value span =>
      have hbeq : (name == target) = false := beq_eq_false_iff_ne.2 hne
      rw [apply]
      split
      · simp [Scope.status, hbeq]
      · rfl
  | declaration decl =>
      have hother : name ≠ decl.name := hne
      have hbeq : (name == decl.name) = false := beq_eq_false_iff_ne.2 hother
      have hnoted : (if decl.isStatic then scope.addStatic decl.name else scope).status name =
          scope.status name := by
        split
        · simp [Scope.status, hbeq]
        · rfl
      have hentered (noted : Scope) (ty : Ty) :
          (noted.declare decl.name ty).status name = noted.status name := by
        rw [Scope.status, Scope.typeOf?_declare, if_neg hother]
        rfl
      have hmarked (entered : Scope) :
          (entered.markAssigned decl.name).status name = entered.status name := by
        simp [Scope.status, hbeq]
      rw [apply]
      dsimp only
      split
      · rfl
      split
      · exact hnoted
      split
      · rw [hmarked, hentered, hnoted]
      · rw [hentered, hnoted]

/-- Only an assignment to a static variable that has a value is reported as such. -/
theorem fault?_eq_reassigned_iff {span : Span} :
    write.fault? scope = some (.staticReassignment name, span) ↔
      ∃ value, write = .assignment name value span ∧ scope.isStatic name = true ∧
        scope.isAssigned name = true := by
  have hmisfit : ∀ (target : String) (ty : Ty) (value : Expr),
      misfit? scope target ty value ≠ some (.staticReassignment name, span) := by
    intro target ty value h
    unfold misfit? at h
    split at h <;> cases h
  constructor
  · intro h
    cases write with
    | declaration decl =>
        simp only [fault?] at h
        split at h
        · cases h
        · obtain ⟨ty, -, h⟩ := Option.bind_eq_some_iff.1 h
          obtain ⟨value, -, h⟩ := Option.bind_eq_some_iff.1 h
          exact absurd h (hmisfit _ _ _)
    | assignment target value found =>
        simp only [fault?] at h
        split at h
        · rename_i hmarks
          cases h
          exact ⟨value, rfl, by simpa using hmarks⟩
        · obtain ⟨ty, -, h⟩ := Option.bind_eq_some_iff.1 h
          exact absurd h (hmisfit _ _ _)
  · rintro ⟨value, rfl, hstatic, hassigned⟩
    simp [fault?, hstatic, hassigned]

/-- A misfit is reported of the name that is written. -/
theorem name_of_fault?_eq_misfit {expected received : String} {span : Span}
    (h : write.fault? scope = some (.typeMismatch name expected received, span)) :
    write.name = name := by
  have hmisfit : ∀ (target : String) (ty : Ty) (value : Expr),
      misfit? scope target ty value = some (.typeMismatch name expected received, span) →
        target = name := by
    intro target ty value h
    unfold misfit? at h
    split at h
    · cases h
    · cases h
      rfl
  cases write with
  | declaration decl =>
      simp only [fault?] at h
      split at h
      · cases h
      · obtain ⟨ty, -, h⟩ := Option.bind_eq_some_iff.1 h
        obtain ⟨value, -, h⟩ := Option.bind_eq_some_iff.1 h
        exact hmisfit _ _ _ h
  | assignment target value found =>
      simp only [fault?] at h
      split at h
      · cases h
      · obtain ⟨ty, -, h⟩ := Option.bind_eq_some_iff.1 h
        exact hmisfit _ _ _ h

/-! ## Runs -/

/-- Writes take nothing back. -/
theorem extends_foldl (writes : List Write) (scope : Scope) :
    scope.Extends (writes.foldl apply scope) := by
  induction writes generalizing scope with
  | nil => exact .refl scope
  | cons write rest ih => exact (extends_apply scope write).trans (ih (write.apply scope))

/-- A write that does not assign to a name, or finds it without a value, is no reassignment of
it. -/
theorem filter_fault?_eq_nil
    (h : write.assignedAt? name = none ∨ scope.isAssigned name = false) :
    (write.fault? scope).toList.filter (·.1 = .staticReassignment name) = [] := by
  rw [List.filter_eq_nil_iff]
  intro fault hfault hcause
  rw [Option.mem_toList] at hfault
  have hfound : write.fault? scope = some (.staticReassignment name, fault.2) := by
    rw [hfault, ← of_decide_eq_true hcause]
  obtain ⟨value, rfl, -, hassigned⟩ := fault?_eq_reassigned_iff.1 hfound
  rcases h with hnone | hfree
  · simp [assignedAt?] at hnone
  · rw [hassigned] at hfree
    cases hfree

/-- A write that is no assignment to a declared name leaves it with or without a value. -/
theorem isAssigned_apply (hdeclared : scope.isDeclared name = true)
    (hnone : write.assignedAt? name = none) :
    (write.apply scope).isAssigned name = scope.isAssigned name := by
  by_cases hname : write.name = name
  · cases write with
    | declaration decl =>
        obtain rfl : decl.name = name := hname
        rw [apply_of_isDeclared hdeclared]
    | assignment target value span =>
        obtain rfl : target = name := hname
        simp [assignedAt?] at hnone
  · exact congrArg (fun status => status.2.2) (status_apply_of_ne hname)

/-- The assignments to a declared static variable are reported, but for the first one if the
variable has no value yet. -/
theorem filter_faults_of_static (hstatic : scope.isStatic name = true)
    (hdeclared : scope.isDeclared name = true) (writes : List Write) :
    (faults scope writes).filter (·.1 = .staticReassignment name) =
      ((writes.filterMap (assignedAt? name)).drop (if scope.isAssigned name then 0 else 1)).map
        fun span => (.staticReassignment name, span) := by
  induction writes generalizing scope with
  | nil => simp [faults]
  | cons write rest ih =>
      have hextends := extends_apply scope write
      have hrest := ih (hextends.statics hstatic) (hextends.isDeclared hdeclared)
      rw [faults, List.filter_append, hrest]
      cases hat : write.assignedAt? name with
      | none =>
          rw [filter_fault?_eq_nil (.inl hat), isAssigned_apply hdeclared hat,
            List.filterMap_cons_none hat]
          rfl
      | some span =>
          cases write with
          | declaration decl => cases hat
          | assignment target value found =>
              obtain ⟨rfl, rfl⟩ : target = name ∧ found = span := by
                simpa [assignedAt?] using hat
              have hmarked : (apply scope (.assignment target value found)).isAssigned target =
                  true := by
                simp [apply, hstatic]
              rw [hmarked, if_pos rfl, List.drop_zero, List.filterMap_cons_some hat]
              by_cases hassigned : scope.isAssigned target = true
              · simp [fault?, hstatic, hassigned]
              · rw [if_neg hassigned, filter_fault?_eq_nil (.inr (eq_false_of_ne_true hassigned))]
                rfl

/-- In a run of assignments, no misfit is reported of a static variable that has a value. -/
theorem ne_misfit_of_mem_faults {writes : List Write} (hstatic : scope.isStatic name = true)
    (hassigned : scope.isAssigned name = true)
    (hassigns : ∀ write ∈ writes, ∃ target value span, write = .assignment target value span)
    {fault : Cause × Span} (hfault : fault ∈ faults scope writes) (expected received : String) :
    fault.1 ≠ .typeMismatch name expected received := by
  intro hcause
  obtain ⟨before, write, after, rfl, hfound⟩ := mem_faults_iff.1 hfault
  have hextends := extends_foldl before scope
  obtain ⟨target, value, span, rfl⟩ := hassigns write (by simp)
  have hmisfit : fault? (before.foldl apply scope) (.assignment target value span) =
      some (.typeMismatch name expected received, fault.2) := by
    rw [hfound, ← hcause]
  -- The name written is the static variable, and that fault is another one.
  obtain rfl : target = name := name_of_fault?_eq_misfit hmisfit
  simp [fault?, hextends.statics hstatic, hextends.assigned hassigned] at hmisfit

end Write

/-! ## The writes of an expression -/

/-- The node is an expression or a part of one. -/
def Node.IsPhrase : Node → Prop
  | .expr _ | .property _ | .name _ => True
  | _ => False

/-- There are no statements inside an expression. -/
theorem Expr.isPhrase_of_mem_nodes {expr : Expr} {node : Node} (h : node ∈ expr.nodes) :
    node.IsPhrase := by
  cases expr <;>
    simp only [Expr.nodes, List.mem_cons, List.mem_map, List.not_mem_nil, or_false] at h
  case binary | logical | assignment | member =>
    rcases h with rfl | rfl <;> trivial
  case unary =>
    subst h
    trivial
  case call =>
    rcases h with rfl | ⟨_, _, rfl⟩ <;> trivial
  case array | object =>
    obtain ⟨_, _, rfl⟩ := h
    trivial

/-- Nothing is declared inside an expression. -/
theorem Node.IsPhrase.assigns {node : Node} (h : node.IsPhrase) {write : Write}
    (hwrite : write ∈ node.writes) :
    ∃ target value span, write = .assignment target value span := by
  rw [Node.writes_eq, List.mem_append, List.mem_flatMap] at hwrite
  rcases hwrite with hown | ⟨child, hchild, hwrite⟩
  · cases node with
    | expr content =>
        rw [Option.mem_toList, Node.write?, Expr.write?.eq_def] at hown
        split at hown
        · cases hown
          exact ⟨_, _, _, rfl⟩
        · cases hown
    | property content => cases hown
    | name content => cases hown
    | _ => exact h.elim
  · have hphrase : child.IsPhrase := by
      cases node with
      | expr content => exact Expr.isPhrase_of_mem_nodes hchild
      | property content =>
          obtain rfl := List.mem_singleton.1 hchild
          trivial
      | name content => cases hchild
      | _ => exact h.elim
    exact hphrase.assigns hwrite
termination_by sizeOf node
decreasing_by exact Node.sizeOf_lt_of_mem_inner hchild

namespace Checker

/-- A declaration that enters its name enters it as static if it says so, and with a value if it
has an initializer. -/
theorem status_declare {checker : Checker} {decl : VarDecl}
    (hnew : checker.scope.isDeclared decl.name = false)
    (haccepted : (checker.declare decl).scope.isDeclared decl.name = true) :
    (decl.isStatic = true → (checker.declare decl).scope.isStatic decl.name = true) ∧
      (decl.initializer.isSome = true →
        (checker.declare decl).scope.isAssigned decl.name = true) := by
  rw [declare_eq_judge] at haccepted ⊢
  simp only [judge, Write.apply, hnew, Bool.false_eq_true, if_false] at haccepted ⊢
  split at haccepted
  · -- The name is not entered here.
    have hfree : (if decl.isStatic then checker.scope.addStatic decl.name
        else checker.scope).isDeclared decl.name = false := by
      split
      · exact hnew
      · exact hnew
    rw [hfree] at haccepted
    cases haccepted
  · rename_i hfault
    rw [if_neg hfault]
    constructor
    · intro hstatic
      rw [if_pos hstatic]
      split <;> simp
    · intro hinitializer
      rw [if_pos hinitializer]
      simp

/-- An assignment to a static variable that has a value is reported, and apart from that its value
is walked, in which no misfit of the variable is found. -/
theorem walkExpr_reassigned {checker : Checker} {name : String}
    (hstatic : checker.scope.isStatic name = true)
    (hassigned : checker.scope.isAssigned name = true) (place own span : Span) (value : Expr) :
    let walked := walkExpr span (.assignment (.identifier name place) value own) checker
    walked.scope = (walkExpr value.span value checker).scope ∧
    ∃ more,
      walked.diagnostics.toList = checker.diagnostics.toList ++
        .ofCause (.staticReassignment name) span :: more ∧
      (walkExpr value.span value checker).diagnostics.toList =
        checker.diagnostics.toList ++ more ∧
      ∀ diagnostic ∈ more, ∀ declared actual : Ty,
        diagnostic.words (.typeMismatch name declared.name actual.name) = false := by
  intro walked
  have hreported : checker.assign name value span =
      checker.report (.staticReassignment name) span := by
    rw [assign, if_pos hstatic, if_pos hassigned]
  have hwalked : walked =
      (Node.expr value).writes.foldl judge (checker.report (.staticReassignment name) span) := by
    rw [← hreported, ← walkNode_eq_foldl]
    rfl
  have hvalue : walkExpr value.span value checker =
      (Node.expr value).writes.foldl judge checker := walkNode_eq_foldl (.expr value) checker
  obtain ⟨hscope, hdiagnostics⟩ :=
    foldl_judge (Node.expr value).writes (checker.report (.staticReassignment name) span)
  obtain ⟨hscope', hdiagnostics'⟩ := foldl_judge (Node.expr value).writes checker
  rw [hwalked, hvalue]
  refine ⟨hscope.trans hscope'.symm, _, ?_, hdiagnostics', ?_⟩
  · rw [hdiagnostics]
    simp [report]
  · intro diagnostic hdiagnostic declared actual
    obtain ⟨fault, hfault, rfl⟩ := List.mem_map.1 hdiagnostic
    have hphrase : (Node.expr value).IsPhrase := trivial
    have hmisfit := Write.ne_misfit_of_mem_faults hstatic hassigned
      (fun write hwrite => hphrase.assigns hwrite) hfault declared.name actual.name
    rw [← Bool.not_eq_true]
    intro hwords
    exact hmisfit (((Cause.IsFault.misfit name declared actual).words_iff
      (Write.isFault_of_mem_faults hfault) fault.2).1 hwords)

/-- Static variables are written once. From the declaration of one on, all assignments to it are
reported at their places, but for the first one if there is no initializer. As soon as it has a
value, an assignment to it is reported, its type is not judged, and it changes nothing itself: the
rest of what it does is done by its value. -/
theorem check_static_once (used : Checker) (program : Program) :
    (∀ (before after : List Write) (decl : VarDecl),
      program.writes = before ++ .declaration decl :: after → decl.isStatic = true →
      let reached := before.foldl judge empty
      let entered := reached.declare decl
      reached.scope.isDeclared decl.name = false → entered.scope.isDeclared decl.name = true →
      ∃ silent later, (used.check program).1 = entered.diagnostics.toList ++ later ∧
        later.filter (·.words (.staticReassignment decl.name)) =
          ((after.filterMap (·.assignedAt? decl.name)).drop silent).map
            (.ofCause (.staticReassignment decl.name)) ∧
        silent + decl.initializer.toList.length ≤ 1) ∧
    ∀ (marked : Checker) (name : String), marked.scope.isStatic name = true →
      marked.scope.isAssigned name = true →
      ∀ (between : List Write) (place own span : Span) (value : Expr),
        let reached := between.foldl judge marked
        let walked := walkExpr span (.assignment (.identifier name place) value own) reached
        walked.scope = (walkExpr value.span value reached).scope ∧
        ∃ more,
          walked.diagnostics.toList = reached.diagnostics.toList ++
            .ofCause (.staticReassignment name) span :: more ∧
          (walkExpr value.span value reached).diagnostics.toList =
            reached.diagnostics.toList ++ more ∧
          ∀ diagnostic ∈ more, ∀ declared actual : Ty,
            diagnostic.words (.typeMismatch name declared.name actual.name) = false := by
  constructor
  · intro before after decl hwrites hstatic reached entered hnew haccepted
    obtain ⟨hisStatic, hisAssigned⟩ := status_declare hnew haccepted
    have hrun : program.writes.foldl judge empty = after.foldl judge entered := by
      rw [hwrites, List.foldl_append, List.foldl_cons, ← declare_eq_judge]
    let silent := if entered.scope.isAssigned decl.name then 0 else 1
    refine ⟨silent, (Write.faults entered.scope after).map Diagnostic.ofFault, ?_, ?_, ?_⟩
    · rw [check_fst, hrun, (foldl_judge after entered).2]
    · rw [Write.filter_words_faults (.reassigned decl.name),
        Write.filter_faults_of_static (hisStatic hstatic) haccepted, List.map_map]
      rfl
    · cases hinitializer : decl.initializer with
      | none =>
          show (if entered.scope.isAssigned decl.name then 0 else 1) + 0 ≤ 1
          split <;> omega
      | some value =>
          have hvalue : entered.scope.isAssigned decl.name = true :=
            hisAssigned (by rw [hinitializer]; rfl)
          show (if entered.scope.isAssigned decl.name then 0 else 1) + 1 ≤ 1
          simp [hvalue]
  · intro marked name hstatic hassigned between place own span value reached
    have hextends : marked.scope.Extends reached.scope := by
      rw [show reached.scope = _ from (foldl_judge between marked).1]
      exact Write.extends_foldl between marked.scope
    exact walkExpr_reassigned (hextends.statics hstatic) (hextends.assigned hassigned) place own
      span value

/-- `static var x=(x=true);x=nil;`: the initializer is the one write that is not reported, although
it writes the variable again itself. -/
theorem check_static_once_nested :
    let again : Expr := .assignment (.identifier "x" ⟨14, 15⟩)
      (.literal (.bool true) "true" ⟨16, 20⟩) ⟨14, 20⟩
    let decl : VarDecl := ⟨"x", true, none, some again, ⟨0, 22⟩⟩
    let last : Expr :=
      .assignment (.identifier "x" ⟨22, 23⟩) (.literal .nil "nil" ⟨24, 27⟩) ⟨22, 27⟩
    let program : Program := ⟨[.varDecl decl, .expression last ⟨22, 28⟩], ⟨0, 28⟩⟩
    let after : List Write :=
      [.assignment "x" (.literal (.bool true) "true" ⟨16, 20⟩) ⟨14, 20⟩,
        .assignment "x" (.literal .nil "nil" ⟨24, 27⟩) ⟨22, 28⟩]
    let entered := empty.declare decl
    program.writes = .declaration decl :: after ∧ empty.scope.isDeclared "x" = false ∧
      entered.scope.isDeclared "x" = true ∧ entered.scope.isStatic "x" = true ∧
      entered.scope.isAssigned "x" = true ∧
      (∃ silent later, (empty.check program).1 = entered.diagnostics.toList ++ later ∧
        later.filter (·.words (.staticReassignment "x")) =
          ((after.filterMap (·.assignedAt? "x")).drop silent).map
            (.ofCause (.staticReassignment "x")) ∧ silent + 1 ≤ 1) ∧
      (walkExpr ⟨22, 28⟩ last entered).scope =
        (walkExpr ⟨24, 27⟩ (.literal .nil "nil" ⟨24, 27⟩) entered).scope := by
  intro again decl last program after entered
  have hwrites : program.writes = .declaration decl :: after := by
    simp [program, decl, again, last, after, Program.writes, Node.writes_eq, Node.write?,
      Expr.write?, Node.inner, Node.children, Stmt.nodes, Expr.nodes, Expr.span]
  have honce := check_static_once empty program
  refine ⟨hwrites, rfl, rfl, rfl, rfl, ?_, ?_⟩
  · exact honce.1 [] after decl hwrites rfl rfl rfl
  · exact (honce.2 entered "x" rfl rfl [] _ _ _ _).1

end Checker

end ScriptLint
