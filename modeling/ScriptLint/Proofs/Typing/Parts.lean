import ScriptLint.Proofs.Typing.Faults

/-!
# The nodes that the checker reports

Every write is one that a node of the program itself is, and what is wrong with it is reported at
that node or at the value inside it. So every diagnostic of the checker stands at a node.
-/

namespace ScriptLint

namespace Node

variable {node part child : Node}

/-- The parts of a part are parts of the whole. -/
theorem HasPart.trans (h : node.HasPart part) (hpart : part.HasPart child) :
    node.HasPart child := by
  induction h with
  | self => exact hpart
  | child hchild _ ih => exact .child hchild (ih hpart)

/-- A node directly inside is a part. -/
theorem HasPart.of_mem (h : child ∈ node.children) : node.HasPart child :=
  .child h (.self child)

/-- What is walked inside a node is part of it. -/
theorem HasPart.of_mem_inner (h : child ∈ node.inner) : node.HasPart child := by
  unfold inner at h
  split at h
  next value span =>
      have hvalue : (Node.stmt (.expression value span)).HasPart (.expr value) :=
        .of_mem (by simp [children, Stmt.nodes])
      exact hvalue.trans (.of_mem h)
  next => exact .of_mem h

/-- Every write in a node is one that a part of it is. -/
theorem exists_part_of_mem_writes {node : Node} {write : Write} (h : write ∈ node.writes) :
    ∃ part, node.HasPart part ∧ part.write? = some write := by
  rw [writes_eq, List.mem_append, Option.mem_toList, List.mem_flatMap] at h
  rcases h with hself | ⟨child, hchild, hwrite⟩
  · exact ⟨node, .self node, hself⟩
  · obtain ⟨part, hpart, hfound⟩ := exists_part_of_mem_writes hwrite
    exact ⟨part, (HasPart.of_mem_inner hchild).trans hpart, hfound⟩
termination_by sizeOf node
decreasing_by exact sizeOf_lt_of_mem_inner hchild

end Node

namespace Write

/-- Where a write stands. -/
def span : Write → Span
  | .declaration decl => decl.span
  | .assignment _ _ span => span

/-- The value that is written, if there is one. -/
def value? : Write → Option Expr
  | .declaration decl => decl.initializer
  | .assignment _ value _ => some value

/-- Where a write may be at fault: as a whole, or in its value. -/
def places (write : Write) : List Span :=
  write.span :: write.value?.toList.map Expr.span

/-- A write is reported at its own place or at that of its value. -/
theorem mem_places_iff {write : Write} {place : Span} :
    place ∈ write.places ↔ place = write.span ∨ ∃ value ∈ write.value?, place = value.span := by
  simp only [places, List.mem_cons, List.mem_map, Option.mem_toList, eq_comm, Option.mem_def]

/-- A value that does not fit is reported where it stands. -/
theorem misfit?_span {scope : Scope} {name : String} {ty : Ty} {value : Expr}
    {fault : Cause × Span} (h : misfit? scope name ty value = some fault) :
    fault.2 = value.span := by
  unfold misfit? at h
  split at h
  · cases h
  · cases h
    rfl

/-- A write is at fault in one of its places. -/
theorem fault?_mem_places {scope : Scope} {write : Write} {fault : Cause × Span}
    (h : write.fault? scope = some fault) : fault.2 ∈ write.places := by
  cases write with
  | declaration decl =>
      simp only [fault?] at h
      split at h
      · cases h
        exact List.mem_cons_self
      · obtain ⟨ty, -, h⟩ := Option.bind_eq_some_iff.1 h
        obtain ⟨value, hvalue, h⟩ := Option.bind_eq_some_iff.1 h
        exact mem_places_iff.2 (.inr ⟨value, hvalue, misfit?_span h⟩)
  | assignment name value span =>
      simp only [fault?] at h
      split at h
      · cases h
        exact List.mem_cons_self
      · obtain ⟨ty, -, h⟩ := Option.bind_eq_some_iff.1 h
        exact mem_places_iff.2 (.inr ⟨value, rfl, misfit?_span h⟩)

end Write

/-- The write that an expression is goes to a name, and its value is a node inside it. -/
theorem Expr.write?_eq_some {span : Span} {expr : Expr} {write : Write}
    (h : expr.write? span = some write) :
    ∃ name value, write = .assignment name value span ∧ Node.expr value ∈ expr.nodes := by
  unfold write? at h
  split at h
  next name _ value _ =>
      cases h
      exact ⟨name, value, rfl, by simp [nodes]⟩
  next => cases h

namespace Node

variable {node : Node} {write : Write}

/-- The write that a node is stands where the node does, and its value is a part of the node. -/
theorem span_of_write? (h : node.write? = some write) :
    write.span = node.span ∧ ∀ value ∈ write.value?, node.HasPart (.expr value) := by
  unfold write? at h
  split at h
  next decl =>
      cases h
      refine ⟨rfl, fun value hvalue => .of_mem ?_⟩
      exact List.mem_map_of_mem (Option.mem_toList.2 hvalue)
  next content span =>
      obtain ⟨name, value, rfl, hvalue⟩ := Expr.write?_eq_some h
      have hcontent : (Node.stmt (.expression content span)).HasPart (.expr content) :=
        .of_mem (by simp [children, Stmt.nodes])
      refine ⟨rfl, fun found hfound => ?_⟩
      obtain rfl : value = found := Option.some.inj hfound
      exact hcontent.trans (.of_mem hvalue)
  next content =>
      obtain ⟨name, value, rfl, hvalue⟩ := Expr.write?_eq_some h
      refine ⟨rfl, fun found hfound => ?_⟩
      obtain rfl : value = found := Option.some.inj hfound
      exact .of_mem hvalue
  next => cases h

/-- The places of a write in a node are those of parts of it. -/
theorem exists_part_of_mem_places (h : write ∈ node.writes) {place : Span}
    (hplace : place ∈ write.places) : ∃ part, node.HasPart part ∧ part.span = place := by
  obtain ⟨origin, horigin, hwrite⟩ := exists_part_of_mem_writes h
  obtain ⟨hspan, hvalue⟩ := span_of_write? hwrite
  rcases Write.mem_places_iff.1 hplace with rfl | ⟨value, hmem, rfl⟩
  · exact ⟨origin, horigin, hspan.symm⟩
  · exact ⟨.expr value, horigin.trans (hvalue value hmem), rfl⟩

end Node

/-- The node is a statement of the program, or a part of one. -/
def Program.HasPart (program : Program) (part : Node) : Prop :=
  ∃ stmt ∈ program.statements, (Node.stmt stmt).HasPart part

/-- Every diagnostic of the checker words a fault at a node of the program. -/
theorem Program.exists_part_of_mem_check {program : Program} {diagnostic : Diagnostic}
    (h : diagnostic ∈ program.check) :
    ∃ cause : Cause, cause.IsFault ∧ ∃ stmt ∈ program.statements, ∃ part,
      (Node.stmt stmt).HasPart part ∧ diagnostic = .ofCause cause part.span := by
  obtain ⟨fault, hfault, rfl⟩ := mem_check_iff.1 h
  obtain ⟨before, write, after, hwrites, hfails⟩ := Write.mem_faults_iff.1 hfault
  have hmem : write ∈ program.writes := by simp [hwrites]
  obtain ⟨stmt, hstmt, hwrite⟩ := List.mem_flatMap.1 hmem
  obtain ⟨part, hpart, hspan⟩ :=
    Node.exists_part_of_mem_places hwrite (Write.fault?_mem_places hfails)
  refine ⟨fault.1, Write.fault?_isFault hfails, stmt, hstmt, part, hpart, ?_⟩
  rw [hspan]
  rfl

end ScriptLint
