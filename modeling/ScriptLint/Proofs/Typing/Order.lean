import Mathlib
import ScriptLint.Proofs.Placement.Program
import ScriptLint.Proofs.Typing.Growth

/-!
# The order of the checker's diagnostics

The writes of a program are walked in the order of the text, apart from those in the default arm of
a `match`, which is walked behind the other arms wherever it was written. Two writes that are walked
one after the other therefore stand in one of three ways: the second is inside the value of the
first, or behind the first, or in a default arm in front of an arm that holds the first.
`Program.check_follows_text` says that the diagnostics are in the order of the text just as far.
-/

namespace ScriptLint

/-- The span lies within another one. -/
def Span.Within (inner outer : Span) : Prop :=
  outer.start ≤ inner.start ∧ inner.stop ≤ outer.stop

/-- What is within something inside is within the whole. -/
theorem Span.Within.trans {inner middle outer : Span} (h : inner.Within middle)
    (houter : middle.Within outer) : inner.Within outer :=
  ⟨Nat.le_trans houter.1 h.1, Nat.le_trans h.2 houter.2⟩

namespace Node

variable {tokens : List Token} {node part first second : Node}

/-! ## Places in a tree -/

/-- Every part of a node that sits on its tokens sits on its own. -/
theorem Sits.of_hasPart (h : node.Sits tokens) (hpart : node.HasPart part) : part.Sits tokens :=
  fun inner hinner => h inner (hpart.trans hinner)

/-- The parts of a node lie within it. -/
theorem Sits.within (h : node.Sits tokens) (hpart : node.HasPart part) :
    part.span.Within node.span := by
  induction hpart with
  | self => exact ⟨Nat.le_refl _, Nat.le_refl _⟩
  | child hchild _ ih => exact (ih (h.inside hchild)).trans (h.placed.contains _ hchild)

/-- The places of the writes in a node lie within it. -/
theorem Sits.within_of_mem_places (h : node.Sits tokens) {write : Write}
    (hwrite : write ∈ node.writes) {place : Span} (hplace : place ∈ write.places) :
    place.Within node.span := by
  obtain ⟨part, hpart, rfl⟩ := exists_part_of_mem_places hwrite hplace
  exact h.within hpart

/-- A `match` inside the node has its default arm in front of another arm, which holds the first
place, while the default arm holds the second. -/
def Displaces (node : Node) (first second : Span) : Prop :=
  ∃ discriminant cases fallback span,
    node.HasPart (.stmt (.matchOn discriminant cases (some fallback) span)) ∧
    ∃ arm ∈ cases, (Node.stmt fallback).Before (.arm arm) ∧
      first.Within arm.span ∧ second.Within fallback.span

/-- What a part displaces, the whole displaces. -/
theorem Displaces.of_part {here there : Span} (h : part.Displaces here there)
    (hpart : node.HasPart part) : node.Displaces here there := by
  obtain ⟨discriminant, cases, fallback, span, hmatch, harm⟩ := h
  exact ⟨discriminant, cases, fallback, span, hpart.trans hmatch, harm⟩

/-- Of two displaced places the second stands in front of the first. -/
theorem Displaces.lt {here there : Span} (h : node.Displaces here there)
    (hthere : there.start < there.stop) : there.start < here.start := by
  obtain ⟨discriminant, cases, fallback, span, -, arm, -, hbefore, hfirst, hsecond⟩ := h
  calc there.start < there.stop := hthere
    _ ≤ fallback.span.stop := hsecond.2
    _ ≤ arm.span.start := hbefore
    _ ≤ here.start := hfirst.1

/-- Two nodes that are walked one after the other: the first ends before the second begins, or all
places in them are displaced. -/
def Follows (displaced : Span → Span → Prop) (first second : Node) : Prop :=
  first.Before second ∨
    ∀ here there, Span.Within here first.span → Span.Within there second.span →
      displaced here there

/-- More may be displaced. -/
theorem Follows.mono {displaced wider : Span → Span → Prop}
    (hmono : ∀ {here there}, displaced here there → wider here there)
    (h : Follows displaced first second) : Follows wider first second :=
  h.imp_right fun hdisplaced here there hhere hthere => hmono (hdisplaced here there hhere hthere)

/-- Only a `match` is walked in another order than that of the text. -/
theorem sequence_eq_or (node : Node) :
    node.sequence = node.children ∨
      ∃ discriminant cases fallback span,
        node = .stmt (.matchOn discriminant cases fallback span) := by
  unfold sequence
  split
  · exact .inr ⟨_, _, _, _, rfl⟩
  · exact .inl rfl

/-- The arms of a `match` follow its discriminant and each other, and the default arm follows them
unless it stands in front. -/
theorem Sits.follows_match {discriminant : Expr} {cases : List (MatchCase Stmt)}
    {fallback : Option Stmt} {span : Span}
    (h : (Node.stmt (.matchOn discriminant cases fallback span)).Sits tokens) :
    (Node.stmt (.matchOn discriminant cases fallback span)).children.Pairwise
      (Follows (Node.stmt (.matchOn discriminant cases fallback span)).Displaces) := by
  have hlead := h.led (.expr discriminant) (cases.map .arm ++ fallback.toList.map .stmt) rfl
  have harms : (cases.map Node.arm).Pairwise Before := (List.pairwise_cons.1 h.placed.ordered).2
  have hapart := (List.pairwise_append.1 (List.pairwise_cons.1 h.placed.apart).2).2.2
  refine List.pairwise_cons.2 ⟨fun other hother => .inl (hlead other hother), ?_⟩
  refine List.pairwise_append.2 ⟨harms.imp .inl, ?_, ?_⟩
  · cases fallback with
    | none => exact .nil
    | some body => exact List.pairwise_singleton _ _
  · intro first hfirst second hsecond
    rcases hapart first hfirst second hsecond with hbefore | hdisplaced
    · exact .inl hbefore
    · refine .inr fun here there hhere hthere => ?_
      obtain ⟨arm, harm, rfl⟩ := List.mem_map.1 hfirst
      obtain ⟨body, hbody, rfl⟩ := List.mem_map.1 hsecond
      obtain rfl : fallback = some body := Option.mem_toList.1 hbody
      exact ⟨discriminant, cases, body, span, .self _, arm, harm, hdisplaced, hhere, hthere⟩

/-- The children of a node follow each other. -/
theorem Sits.follows_children (h : node.Sits tokens) :
    node.children.Pairwise (Follows node.Displaces) := by
  rcases sequence_eq_or node with hsequence | ⟨discriminant, cases, fallback, span, rfl⟩
  · have hordered := h.placed.ordered
    rw [hsequence] at hordered
    exact hordered.imp .inl
  · exact h.follows_match

/-- The nodes whose writes are inside a node follow each other. -/
theorem Sits.follows_inner (h : node.Sits tokens) :
    node.inner.Pairwise (Follows node.Displaces) := by
  unfold inner
  split
  next value span =>
      have hvalue : (Node.stmt (.expression value span)).HasPart (.expr value) :=
        .of_mem (by simp [children, Stmt.nodes])
      exact (h.of_hasPart hvalue).follows_children.imp
        (.mono fun hdisplaced => hdisplaced.of_part hvalue)
  next => exact h.follows_children

end Node

/-! ## The order of writes -/

/-- How two writes stand that are walked one after the other. -/
inductive Write.Ordered (displaced : Span → Span → Prop) (first second : Write) : Prop
  /-- The second is an assignment inside the value of the first. -/
  | nested (hassigns : ∃ name value span, second = .assignment name value span)
      (hstarts : ∀ here ∈ first.places, ∀ there ∈ second.places, here.start ≤ there.start)
  /-- The first ends before the second begins. -/
  | behind (hends : ∀ here ∈ first.places, ∀ there ∈ second.places, here.stop ≤ there.start)
  | displaced (hplaces : ∀ here ∈ first.places, ∀ there ∈ second.places, displaced here there)

/-- More may be displaced. -/
theorem Write.Ordered.mono {displaced wider : Span → Span → Prop} {first second : Write}
    (hmono : ∀ {here there}, displaced here there → wider here there)
    (h : Ordered displaced first second) : Ordered wider first second := by
  cases h with
  | nested hassigns hstarts => exact .nested hassigns hstarts
  | behind hends => exact .behind hends
  | displaced hplaces =>
      exact .displaced fun here hhere there hthere => hmono (hplaces here hhere there hthere)

/-- What is written inside an assignment to a name is written in its value. -/
theorem Expr.mem_writes_of_write? {span : Span} {expr : Expr} {write later : Write}
    (h : expr.write? span = some write) (hlater : later ∈ expr.nodes.flatMap Node.writes) :
    ∃ value ∈ write.value?, later ∈ (Node.expr value).writes := by
  unfold write? at h
  split at h
  next name place value own =>
      cases h
      have htarget : (Node.expr (.identifier name place)).writes = [] := by
        simp [Node.writes_eq, Node.write?, write?, Node.inner, Node.children, nodes]
      refine ⟨value, rfl, ?_⟩
      simpa [nodes, htarget] using hlater
  next => cases h

namespace Node

variable {tokens : List Token} {node : Node} {displaced : Span → Span → Prop}

/-- What is written inside a node that is a write itself is written in its value. -/
theorem mem_writes_of_write? {write later : Write} (h : node.write? = some write)
    (hlater : later ∈ node.inner.flatMap writes) :
    ∃ value ∈ write.value?, later ∈ (Node.expr value).writes := by
  unfold write? at h
  split at h
  next decl =>
      cases h
      obtain ⟨child, hchild, hlater⟩ := List.mem_flatMap.1 hlater
      obtain ⟨value, hvalue, rfl⟩ := List.mem_map.1 hchild
      exact ⟨value, Option.mem_toList.1 hvalue, hlater⟩
  next => exact Expr.mem_writes_of_write? h hlater
  next => exact Expr.mem_writes_of_write? h hlater
  next => cases h

/-- The writes inside a node that is a write itself are nested in it. -/
theorem Sits.ordered_own (h : node.Sits tokens) {own later : Write} (hown : node.write? = some own)
    (hlater : later ∈ node.inner.flatMap writes) : Write.Ordered displaced own later := by
  obtain ⟨hspan, hparts⟩ := span_of_write? hown
  obtain ⟨value, hvalue, hinside⟩ := mem_writes_of_write? hown hlater
  have hphrase : (Node.expr value).IsPhrase := trivial
  have hpart := hparts value hvalue
  have hwithin : value.span.Within node.span := h.within hpart
  refine .nested (hphrase.assigns hinside) fun here hhere there hthere => ?_
  have hbound : here.start ≤ value.span.start := by
    rcases Write.mem_places_iff.1 hhere with rfl | ⟨found, hfound, rfl⟩
    · rw [hspan]
      exact hwithin.1
    · obtain rfl : value = found := Option.some.inj (hvalue.symm.trans hfound)
      exact Nat.le_refl _
  exact Nat.le_trans hbound ((h.of_hasPart hpart).within_of_mem_places hinside hthere).1

/-- The writes of nodes that follow each other are in order, if those of each of them are. -/
theorem ordered_flatMap {nodes : List Node} (hsits : ∀ node ∈ nodes, node.Sits tokens)
    (hfollows : nodes.Pairwise (Follows displaced))
    (hwrites : ∀ node ∈ nodes, node.writes.Pairwise (Write.Ordered displaced)) :
    (nodes.flatMap writes).Pairwise (Write.Ordered displaced) := by
  refine List.pairwise_flatMap.2 ⟨hwrites, hfollows.imp_of_mem ?_⟩
  intro first second hfirst hsecond hfollow early hearly late hlate
  have hhere : ∀ here ∈ early.places, here.Within first.span := fun _ hmem =>
    (hsits first hfirst).within_of_mem_places hearly hmem
  have hthere : ∀ there ∈ late.places, there.Within second.span := fun _ hmem =>
    (hsits second hsecond).within_of_mem_places hlate hmem
  rcases hfollow with hbefore | hdisplaced
  · refine .behind fun here hmem there hmem' => ?_
    calc here.stop ≤ first.span.stop := (hhere here hmem).2
      _ ≤ second.span.start := hbefore
      _ ≤ there.start := (hthere there hmem').1
  · exact .displaced fun here hmem there hmem' =>
      hdisplaced here there (hhere here hmem) (hthere there hmem')

/-- The writes of a node are in order. -/
theorem Sits.ordered_writes {node : Node} (h : node.Sits tokens) :
    node.writes.Pairwise (Write.Ordered node.Displaces) := by
  rw [writes_eq]
  refine List.pairwise_append.2 ⟨?_, ?_, fun own hown later hlater => ?_⟩
  · cases node.write? with
    | none => exact .nil
    | some write => exact List.pairwise_singleton _ _
  · refine ordered_flatMap (fun child hchild => h.of_hasPart (.of_mem_inner hchild))
      h.follows_inner ?_
    intro child hchild
    have hpart := HasPart.of_mem_inner hchild
    exact (h.of_hasPart hpart).ordered_writes.imp (.mono fun hdisplaced => hdisplaced.of_part hpart)
  · exact h.ordered_own (Option.mem_toList.1 hown) hlater
termination_by sizeOf node
decreasing_by exact sizeOf_lt_of_mem_inner hchild

end Node

/-- The faults of writes that stand in a relation come from writes in that relation. -/
theorem Write.pairwise_faults {related : Write → Write → Prop} {writes : List Write}
    (h : writes.Pairwise related) (scope : Scope) :
    (faults scope writes).Pairwise fun first second =>
      ∃ early late, related early late ∧ first.2 ∈ early.places ∧ second.2 ∈ late.places := by
  induction writes generalizing scope with
  | nil => exact .nil
  | cons write rest ih =>
      obtain ⟨hfirst, hrest⟩ := List.pairwise_cons.1 h
      refine List.pairwise_append.2 ⟨?_, ih hrest _, fun first hmem second hmem' => ?_⟩
      · cases write.fault? scope with
        | none => exact .nil
        | some fault => exact List.pairwise_singleton _ _
      · obtain ⟨before, late, after, rfl, hfault⟩ := mem_faults_iff.1 hmem'
        exact ⟨write, late, hfirst late (by simp), fault?_mem_places (Option.mem_toList.1 hmem),
          fault?_mem_places hfault⟩

/-! ## Programs -/

namespace Program

variable {settings : Settings} {source : String} {parsed : Parsed} {program : Program}

/-- Two places of a program are displaced in one of its statements. -/
def Displaces (program : Program) (first second : Span) : Prop :=
  ∃ stmt ∈ program.statements, (Node.stmt stmt).Displaces first second

/-- The program declares the name at the span. -/
def Declares (program : Program) (name : String) (span : Span) : Prop :=
  ∃ decl, program.HasPart (.stmt (.varDecl decl)) ∧ decl.name = name ∧ decl.span = span

/-- No default arm of the program stands in front of another arm of its `match`. -/
def DefaultsLast (program : Program) : Prop :=
  ∀ discriminant cases fallback span,
    program.HasPart (.stmt (.matchOn discriminant cases (some fallback) span)) →
      ∀ arm ∈ cases, ¬(Node.stmt fallback).Before (.arm arm)

/-- Nothing is displaced where default arms come last. -/
theorem DefaultsLast.not_displaces (h : program.DefaultsLast) (first second : Span) :
    ¬program.Displaces first second := by
  rintro ⟨stmt, hstmt, discriminant, cases, fallback, span, hmatch, arm, harm, hbefore, -⟩
  exact h discriminant cases fallback span ⟨stmt, hstmt, hmatch⟩ arm harm hbefore

/-- The writes of a parsed program are in order. -/
theorem ordered_writes (h : parse settings source = .ok parsed) :
    parsed.program.writes.Pairwise (Write.Ordered parsed.program.Displaces) := by
  obtain ⟨tokens, -, hsits, hordered⟩ := exists_sits_of_parse h
  have hwrites : parsed.program.writes =
      (parsed.program.statements.map Node.stmt).flatMap Node.writes := by
    rw [List.flatMap_map]
    rfl
  rw [hwrites]
  refine Node.ordered_flatMap (List.forall_mem_map.2 hsits) (hordered.imp .inl) ?_
  refine List.forall_mem_map.2 fun stmt hstmt => ?_
  exact (hsits stmt hstmt).ordered_writes.imp
    (.mono fun hdisplaced => ⟨stmt, hstmt, hdisplaced⟩)

/-- A diagnostic of the checker is not empty. -/
theorem nonempty_of_mem_check (h : parse settings source = .ok parsed) {diagnostic : Diagnostic}
    (hmem : diagnostic ∈ parsed.program.check) :
    diagnostic.span.start < diagnostic.span.stop := by
  obtain ⟨tokens, -, hsits, -⟩ := exists_sits_of_parse h
  obtain ⟨cause, -, stmt, hstmt, part, hpart, rfl⟩ := exists_part_of_mem_check hmem
  exact (hsits stmt hstmt part hpart).1.nonempty

/-- Two diagnostics are out of order just if their places are displaced. -/
theorem pairwise_check (h : parse settings source = .ok parsed) :
    parsed.program.check.Pairwise fun first second =>
      second.span.start < first.span.start ↔
        parsed.program.Displaces first.span second.span := by
  have hfaults := Write.pairwise_faults (ordered_writes h) .empty
  have hchecked : parsed.program.check.Pairwise fun first second => ∃ early late,
      Write.Ordered parsed.program.Displaces early late ∧ first.span ∈ early.places ∧
        second.span ∈ late.places := by
    rw [check_eq_faults]
    exact List.pairwise_map.2 hfaults
  refine hchecked.imp_of_mem ?_
  rintro first second hfirst hsecond ⟨early, late, hordered, hhere, hthere⟩
  have hnonempty := nonempty_of_mem_check h hsecond
  constructor
  · intro hlt
    cases hordered with
    | nested _ hstarts => exact absurd hlt (Nat.not_lt.2 (hstarts _ hhere _ hthere))
    | behind hends =>
        have hlong := nonempty_of_mem_check h hfirst
        have hle := hends _ hhere _ hthere
        omega
    | displaced hplaces => exact hplaces _ hhere _ hthere
  · rintro ⟨stmt, -, hdisplaced⟩
    exact hdisplaced.lt hnonempty

/-- A name that is reported as declared already is declared there, and somewhere before: in front of
it, or in an arm that displaces it. -/
theorem declares_of_redeclared (h : parse settings source = .ok parsed) {name : String}
    {diagnostic : Diagnostic} (hmem : diagnostic ∈ parsed.program.check)
    (hwords : diagnostic.words (.variableAlreadyDeclared name) = true) :
    parsed.program.Declares name diagnostic.span ∧
      ∃ other, parsed.program.Declares name other ∧
        (other.stop ≤ diagnostic.span.start ∨
          parsed.program.Displaces other diagnostic.span) := by
  obtain ⟨⟨cause, span⟩, hfault, rfl⟩ := mem_check_iff.1 hmem
  obtain rfl : cause = .variableAlreadyDeclared name :=
    ((Cause.IsFault.redeclared name).words_iff (Write.isFault_of_mem_faults hfault) span).1 hwords
  obtain ⟨before, write, after, hwrites, hfails⟩ := Write.mem_faults_iff.1 hfault
  obtain ⟨decl, hdecl, rfl, rfl⟩ := Write.fault?_eq_redeclared_iff.1 hfails
  cases write with
  | assignment target value place => cases hdecl
  | declaration found =>
      rw [Write.redeclared?] at hdecl
      split at hdecl
      next hdeclared =>
          cases hdecl
          obtain ⟨other, hother, hname⟩ := Write.declaration_of_isDeclared_foldl rfl hdeclared
          have hordered := ordered_writes h
          rw [hwrites] at hordered
          have hpair := (List.pairwise_append.1 hordered).2.2 _ hother _ List.mem_cons_self
          have hhere : other.span ∈ (Write.declaration other).places := List.mem_cons_self
          have hthere : decl.span ∈ (Write.declaration decl).places := List.mem_cons_self
          refine ⟨⟨decl, declaration_mem_writes_iff.1 (by simp [hwrites]), rfl, rfl⟩, other.span,
            ⟨other, declaration_mem_writes_iff.1 (by simp [hwrites, hother]), hname, rfl⟩, ?_⟩
          cases hpair with
          | nested hassigns _ =>
              obtain ⟨target, value, place, hassigns⟩ := hassigns
              cases hassigns
          | behind hends => exact .inl (hends _ hhere _ hthere)
          | displaced hplaces => exact .inr (hplaces _ hhere _ hthere)
      next => cases hdecl

/-- The diagnostics of the checker follow the text as far as default arms do. Of two diagnostics the
second stands in front of the first just if it is in a default arm, and the first in an arm of the
same `match` behind it. A name that is reported as declared already has a declaration in front of
that one, or in such an arm. If every default arm stands behind the other arms, the diagnostics are
in the order of the text, and a name that is declared again is declared in front. -/
theorem check_follows_text (settings : Settings) (source : String) (parsed : Parsed)
    (h : parse settings source = .ok parsed) :
    (parsed.program.check.Pairwise fun first second =>
      second.span.start < first.span.start ↔ parsed.program.Displaces first.span second.span) ∧
    (∀ name, ∀ diagnostic ∈ parsed.program.check,
      diagnostic.words (.variableAlreadyDeclared name) = true →
        parsed.program.Declares name diagnostic.span ∧
          ∃ other, parsed.program.Declares name other ∧
            (other.stop ≤ diagnostic.span.start ∨
              parsed.program.Displaces other diagnostic.span)) ∧
    (parsed.program.DefaultsLast →
      (parsed.program.check.Pairwise fun first second => first.span.start ≤ second.span.start) ∧
      ∀ name, ∀ diagnostic ∈ parsed.program.check,
        diagnostic.words (.variableAlreadyDeclared name) = true →
          ∃ other, parsed.program.Declares name other ∧ other.stop ≤ diagnostic.span.start) := by
  refine ⟨pairwise_check h, fun name diagnostic => declares_of_redeclared h, fun hlast => ⟨?_, ?_⟩⟩
  · refine (pairwise_check h).imp fun hiff => Nat.le_of_not_lt fun hlt => ?_
    exact hlast.not_displaces _ _ (hiff.1 hlt)
  · intro name diagnostic hmem hwords
    obtain ⟨-, other, hother, hbefore | hdisplaced⟩ := declares_of_redeclared h hmem hwords
    · exact ⟨other, hother, hbefore⟩
    · exact absurd hdisplaced (hlast.not_displaces _ _)

/-- In `match(a){default=>var x;case b=>var x;}` the first declaration of `x` is reported. -/
theorem check_follows_text_displaced :
    let decl (span : Span) : Stmt := .varDecl ⟨"x", false, none, none, span⟩
    let arm : MatchCase Stmt := ⟨.identifier "b" ⟨29, 30⟩, decl ⟨32, 38⟩, ⟨24, 38⟩⟩
    let program : Program :=
      ⟨[.matchOn (.identifier "a" ⟨6, 7⟩) [arm] (some (decl ⟨18, 24⟩)) ⟨0, 39⟩], ⟨0, 39⟩⟩
    let reported : Diagnostic := .ofCause (.variableAlreadyDeclared "x") ⟨18, 24⟩
    parse ⟨8, true⟩ "match(a)\x7bdefault=>var x;case b=>var x;\x7d" = .ok ⟨program, []⟩ ∧
      program.check = [reported] ∧
      ∃ other, program.Declares "x" other ∧
        (other.stop ≤ 18 ∨ program.Displaces other ⟨18, 24⟩) := by
  intro decl arm program reported
  have hparse : parse ⟨8, true⟩ "match(a)\x7bdefault=>var x;case b=>var x;\x7d" =
      .ok ⟨program, []⟩ := by cbv
  have hcheck : program.check = [reported] := rfl
  obtain ⟨-, hdeclared, -⟩ := check_follows_text ⟨8, true⟩ _ _ hparse
  have hmem : reported ∈ program.check := by
    rw [hcheck]
    exact List.mem_cons_self
  exact ⟨hparse, hcheck, (hdeclared "x" reported hmem (beq_self_eq_true _)).2⟩

/-- In `match(a){default=>var x;case b=>{var x;var x;}}` the first declaration of `x` is reported,
and behind the third. -/
theorem check_default_first :
    let decl (span : Span) : Stmt := .varDecl ⟨"x", false, none, none, span⟩
    let arm : MatchCase Stmt :=
      ⟨.identifier "b" ⟨29, 30⟩, .block ⟨[decl ⟨33, 39⟩, decl ⟨39, 45⟩], ⟨32, 46⟩⟩, ⟨24, 46⟩⟩
    let program : Program :=
      ⟨[.matchOn (.identifier "a" ⟨6, 7⟩) [arm] (some (decl ⟨18, 24⟩)) ⟨0, 47⟩], ⟨0, 47⟩⟩
    parse ⟨8, true⟩ "match(a)\x7bdefault=>var x;case b=>\x7bvar x;var x;\x7d\x7d" =
        .ok ⟨program, []⟩ ∧
      program.check = [.ofCause (.variableAlreadyDeclared "x") ⟨39, 45⟩,
        .ofCause (.variableAlreadyDeclared "x") ⟨18, 24⟩] ∧
      ¬program.check.Pairwise fun first second => first.span.start ≤ second.span.start := by
  intro decl arm program
  have hcheck : program.check = [.ofCause (.variableAlreadyDeclared "x") ⟨39, 45⟩,
      .ofCause (.variableAlreadyDeclared "x") ⟨18, 24⟩] := rfl
  refine ⟨by cbv, hcheck, ?_⟩
  rw [hcheck]
  intro hpairwise
  have hle : 39 ≤ 18 := (List.pairwise_cons.1 hpairwise).1 _ List.mem_cons_self
  exact absurd hle (by decide)

end Program

end ScriptLint
