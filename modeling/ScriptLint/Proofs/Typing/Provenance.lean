import Mathlib
import ScriptLint.Proofs.Shape.Program
import ScriptLint.Proofs.Typing.Growth

/-!
# Where types come from

A scope knows a type other than `any` only from an annotation that has been read, and `nil` can not
be written as one. So a value is compared with a type that somebody has written down, and its own
type, as far as it is inferred, is never `nil` either. `Program.check_blames_annotations` says when
a value is reported not to fit, and that an annotation of its name is to blame each time.
-/

namespace ScriptLint

namespace Ty

/-- The name of a type tells which type it is. -/
theorem name_injective : Function.Injective name := by
  intro first second h
  cases first <;> cases second <;> first | rfl | simp [name] at h

/-- The types that do not go together. -/
theorem accepts_eq_false_iff {declared actual : Ty} :
    declared.accepts actual = false ↔
      declared ≠ actual ∧ declared ≠ .any ∧ actual ≠ .any ∧ actual ≠ .nil ∧
        ¬(declared = .float ∧ actual = .int) := by
  cases declared <;> cases actual <;> decide

/-- What a type accepts if it is not asked about `nil`. -/
theorem accepts_iff_of_ne_nil {declared actual : Ty} (h : actual ≠ .nil) :
    declared.accepts actual = true ↔
      declared = actual ∨ declared = .any ∨ actual = .any ∨ declared = .float ∧ actual = .int := by
  simp [accepts, h, or_assoc]

end Ty

/-! ## Inferred types -/

/-- In a scope without names of type `nil` nothing has that type, not even `nil`. -/
theorem Scope.infer_ne_nil {scope : Scope} (h : ∀ name, scope.typeOf? name ≠ some .nil)
    (expr : Expr) : scope.infer expr ≠ .nil := by
  fun_induction Scope.infer scope expr with
  | case1 value raw =>
      cases value with
      | number => simp only [Literal.ty]; split <;> simp
      | _ => simp [Literal.ty]
  | case2 name =>
      cases hty : scope.typeOf? name with
      | none => simp
      | some ty =>
          rw [Option.getD_some]
          exact fun heq => h name (heq ▸ hty)
  | case4 operator left right => unfold Ty.arithmetic; split <;> simp
  | case7 _ _ _ _ ih => exact ih
  | _ => simp

/-! ## One write -/

namespace Write

variable {scope : Scope} {write : Write} {name : String}

/-- The type and the value that a write compares, if it comes to that: a declaration of a new name
compares its annotation with its initializer, and an assignment the type of its name with its
value. -/
def compared? (scope : Scope) : Write → Option (Ty × Expr)
  | .declaration decl =>
      if scope.isDeclared decl.name then none
      else decl.declaredType.bind fun ty => decl.initializer.map (ty, ·)
  | .assignment name value _ =>
      if scope.isStatic name && scope.isAssigned name then none
      else (scope.typeOf? name).map (·, value)

/-- What is reported of a value that does not fit, and when. -/
theorem misfit?_eq_some_iff {target : String} {ty declared actual : Ty} {value : Expr}
    {span : Span} :
    misfit? scope target ty value =
        some (.typeMismatch name declared.name actual.name, span) ↔
      target = name ∧ ty = declared ∧ scope.infer value = actual ∧ value.span = span ∧
        declared.accepts actual = false := by
  unfold misfit?
  constructor
  · intro h
    split at h
    · cases h
    next hrefused =>
        obtain ⟨hcause, rfl⟩ := Prod.mk.inj (Option.some.inj h)
        obtain ⟨rfl, hdeclared, hactual⟩ := Cause.typeMismatch.inj hcause
        obtain rfl := Ty.name_injective hdeclared
        obtain rfl := Ty.name_injective hactual
        exact ⟨rfl, rfl, rfl, rfl, by simpa using hrefused⟩
  · rintro ⟨rfl, rfl, rfl, rfl, hrefused⟩
    simp [hrefused]

/-- What is wrong with a write is a misfit just if the type and the value that it compares do not go
together. -/
theorem fault?_eq_misfit_iff {declared actual : Ty} {span : Span} :
    write.fault? scope = some (.typeMismatch name declared.name actual.name, span) ↔
      write.name = name ∧ ∃ value, write.compared? scope = some (declared, value) ∧
        scope.infer value = actual ∧ value.span = span ∧ declared.accepts actual = false := by
  cases write with
  | declaration decl =>
      cases hdeclared : scope.isDeclared decl.name with
      | true => simp [fault?, compared?, hdeclared]
      | false =>
          simp only [fault?, compared?, hdeclared, Bool.false_eq_true, if_false,
            Option.bind_eq_some_iff, Option.map_eq_some_iff, misfit?_eq_some_iff, Prod.mk.injEq,
            Write.name]
          constructor
          · rintro ⟨ty, hty, value, hvalue, hname, rfl, hactual, hspan, hrefused⟩
            exact ⟨hname, value, ⟨ty, hty, value, hvalue, rfl, rfl⟩, hactual, hspan, hrefused⟩
          · rintro ⟨hname, _, ⟨ty, hty, value, hvalue, rfl, rfl⟩, hactual, hspan, hrefused⟩
            exact ⟨ty, hty, value, hvalue, hname, rfl, hactual, hspan, hrefused⟩
  | assignment target value place =>
      cases hwritten : scope.isStatic target && scope.isAssigned target with
      | true => simp [fault?, compared?, hwritten]
      | false =>
          simp only [fault?, compared?, hwritten, Bool.false_eq_true, if_false,
            Option.bind_eq_some_iff, Option.map_eq_some_iff, misfit?_eq_some_iff, Prod.mk.injEq,
            Write.name]
          constructor
          · rintro ⟨ty, hty, hname, rfl, hactual, hspan, hrefused⟩
            exact ⟨hname, value, ⟨ty, hty, rfl, rfl⟩, hactual, hspan, hrefused⟩
          · rintro ⟨hname, _, ⟨ty, hty, rfl, rfl⟩, hactual, hspan, hrefused⟩
            exact ⟨ty, hty, hname, rfl, hactual, hspan, hrefused⟩

/-- A type that is known behind a write was known before it, or is that of the declaration which the
write is: its annotation, or `any`. -/
theorem typeOf?_apply {ty : Ty} (h : (write.apply scope).typeOf? name = some ty) :
    scope.typeOf? name = some ty ∨
      ∃ decl, write = .declaration decl ∧ decl.name = name ∧ decl.declaredType.getD .any = ty := by
  cases write with
  | assignment target value span =>
      rw [apply] at h
      split at h <;> exact .inl h
  | declaration decl =>
      by_cases hdeclared : scope.isDeclared decl.name = true
      · rw [apply_of_isDeclared hdeclared] at h
        exact .inl h
      have hnoted : ∀ other,
          (if decl.isStatic then scope.addStatic decl.name else scope).typeOf? other =
            scope.typeOf? other := by
        intro other
        split <;> simp
      have hentered : ((if decl.isStatic then scope.addStatic decl.name else scope).declare
            decl.name (decl.declaredType.getD .any)).typeOf? name = some ty →
          scope.typeOf? name = some ty ∨ ∃ found, Write.declaration decl = .declaration found ∧
            found.name = name ∧ found.declaredType.getD .any = ty := by
        intro hentered
        rw [Scope.typeOf?_declare, hnoted] at hentered
        split at hentered
        next hname => exact .inr ⟨decl, rfl, hname.symm, Option.some.inj hentered⟩
        next => exact .inl hentered
      rw [apply, if_neg hdeclared] at h
      dsimp only at h
      split at h
      · rw [hnoted] at h
        exact .inl h
      split at h
      · rw [Scope.typeOf?_markAssigned] at h
        exact hentered h
      · exact hentered h

end Write

/-! ## Runs -/

/-- Every type that the scope knows is `any`, or written as an annotation of the name in a
declaration among the writes. -/
def Scope.ComesFrom (scope : Scope) (writes : List Write) : Prop :=
  ∀ name ty, scope.typeOf? name = some ty → ty = .any ∨
    ∃ decl, .declaration decl ∈ writes ∧ decl.name = name ∧ decl.declaredType = some ty

/-- An empty scope comes from no writes. -/
theorem Scope.comesFrom_empty : Scope.empty.ComesFrom [] := by
  intro name ty h
  simp [Scope.typeOf?, Scope.empty] at h

namespace Write

/-- A write keeps account of where types come from. -/
theorem comesFrom_apply {scope : Scope} {writes : List Write} (h : scope.ComesFrom writes)
    (write : Write) : (write.apply scope).ComesFrom (writes ++ [write]) := by
  intro name ty hty
  rcases typeOf?_apply hty with hbefore | ⟨decl, rfl, hname, hdeclared⟩
  · rcases h name ty hbefore with hany | ⟨decl, hmem, hdecl⟩
    · exact .inl hany
    · exact .inr ⟨decl, List.mem_append_left _ hmem, hdecl⟩
  · cases hwritten : decl.declaredType with
    | none =>
        rw [hwritten] at hdeclared
        exact .inl hdeclared.symm
    | some found =>
        rw [hwritten] at hdeclared
        obtain rfl : found = ty := hdeclared
        exact .inr ⟨decl, by simp, hname, hwritten⟩

/-- The types behind writes come from them. -/
theorem comesFrom_foldl {scope : Scope} {earlier : List Write} (h : scope.ComesFrom earlier)
    (writes : List Write) : (writes.foldl apply scope).ComesFrom (earlier ++ writes) := by
  induction writes generalizing scope earlier with
  | nil => simpa using h
  | cons write rest ih =>
      have hrest := ih (comesFrom_apply h write)
      rwa [List.append_assoc] at hrest

/-- The type that a write compares a value with is `any`, or an annotation of its name in a
declaration up to the write. -/
theorem declaration_of_compared? {before : List Write} {write : Write} {ty : Ty} {value : Expr}
    (h : write.compared? (before.foldl apply .empty) = some (ty, value)) :
    ty = .any ∨ ∃ decl, .declaration decl ∈ before ++ [write] ∧ decl.name = write.name ∧
      decl.declaredType = some ty := by
  cases write with
  | declaration decl =>
      simp only [compared?] at h
      split at h
      · cases h
      · obtain ⟨found, hfound, h⟩ := Option.bind_eq_some_iff.1 h
        obtain ⟨content, -, h⟩ := Option.map_eq_some_iff.1 h
        cases h
        exact .inr ⟨decl, by simp, rfl, hfound⟩
  | assignment name content span =>
      simp only [compared?] at h
      split at h
      · cases h
      · obtain ⟨found, hfound, h⟩ := Option.map_eq_some_iff.1 h
        cases h
        rcases comesFrom_foldl Scope.comesFrom_empty before name _ hfound with
          hany | ⟨decl, hmem, hdecl⟩
        · exact .inl hany
        · exact .inr ⟨decl, List.mem_append_left _ hmem, hdecl⟩

end Write

/-! ## Programs -/

namespace Program

variable {program : Program}

/-- The program has a declaration of the name with the annotation. -/
def Annotates (program : Program) (name : String) (ty : Ty) : Prop :=
  ∃ decl, program.HasPart (.stmt (.varDecl decl)) ∧ decl.name = name ∧ decl.declaredType = some ty

/-- A value of the program does not fit an annotation of the name that it is written to: the two
types are known, they differ, and no number is widened. -/
structure Misfits (program : Program) (name : String) (declared actual : Ty) (span : Span) :
    Prop where
  annotated : program.Annotates name declared
  declared_known : declared ≠ .any ∧ declared ≠ .nil
  actual_known : actual ≠ .any ∧ actual ≠ .nil
  distinct : declared ≠ actual
  not_widened : ¬(declared = .float ∧ actual = .int)
  /-- The value of a write has this span, and in the scope behind the writes in front of it has this
  type. -/
  written : ∃ before write after value, program.writes = before ++ write :: after ∧
    write.name = name ∧
    write.compared? (before.foldl Write.apply .empty) = some (declared, value) ∧
    (before.foldl Write.apply .empty).infer value = actual ∧ value.span = span

/-- The annotations among the writes of a program are those in its statements. -/
theorem annotates_of_mem_writes {decl : VarDecl} {ty : Ty} (h : .declaration decl ∈ program.writes)
    (hty : decl.declaredType = some ty) : program.Annotates decl.name ty :=
  ⟨decl, declaration_mem_writes_iff.1 h, rfl, hty⟩

/-- A program that does not annotate `nil` never infers it. -/
theorem infer_ne_nil (h : ∀ name, ¬program.Annotates name .nil) {before after : List Write}
    (hwrites : program.writes = before ++ after) (expr : Expr) :
    (before.foldl Write.apply .empty).infer expr ≠ .nil := by
  refine Scope.infer_ne_nil (fun name hnil => ?_) expr
  rcases Write.comesFrom_foldl Scope.comesFrom_empty before name .nil hnil with
    hany | ⟨decl, hmem, rfl, hdecl⟩
  · cases hany
  · refine h decl.name (annotates_of_mem_writes ?_ hdecl)
    rw [hwrites]
    exact List.mem_append_left _ hmem

/-- A misfit is reported just where a value does not fit an annotation of its name. -/
theorem mem_check_iff_misfits (h : ∀ name, ¬program.Annotates name .nil) {name : String}
    {declared actual : Ty} {span : Span} :
    Diagnostic.ofCause (.typeMismatch name declared.name actual.name) span ∈ program.check ↔
      program.Misfits name declared actual span := by
  rw [mem_check_iff]
  constructor
  · rintro ⟨⟨cause, place⟩, hfault, heq⟩
    obtain rfl : place = span := congrArg Diagnostic.span heq
    obtain rfl : cause = .typeMismatch name declared.name actual.name :=
      (Write.isFault_of_mem_faults hfault).eq_of_message (.misfit name declared actual)
        (congrArg Diagnostic.message heq)
    obtain ⟨before, write, after, hwrites, hfails⟩ := Write.mem_faults_iff.1 hfault
    obtain ⟨rfl, value, hcompared, hactual, hspan, hrefused⟩ :=
      Write.fault?_eq_misfit_iff.1 hfails
    obtain ⟨hdistinct, hdeclared, hany, hnil, hwidened⟩ := Ty.accepts_eq_false_iff.1 hrefused
    have hannotated : program.Annotates write.name declared := by
      rcases Write.declaration_of_compared? hcompared with hunknown | ⟨decl, hmem, hname, hdecl⟩
      · exact absurd hunknown hdeclared
      · rw [← hname]
        refine annotates_of_mem_writes ?_ hdecl
        rw [hwrites, ← List.singleton_append, ← List.append_assoc]
        exact List.mem_append_left after hmem
    have hknown : declared ≠ .nil := by
      rintro rfl
      exact h _ hannotated
    exact ⟨hannotated, ⟨hdeclared, hknown⟩, ⟨hany, hnil⟩, hdistinct, hwidened,
      before, write, after, value, hwrites, rfl, hcompared, hactual, hspan⟩
  · intro hmisfits
    obtain ⟨before, write, after, value, hwrites, hname, hcompared, hactual, hspan⟩ :=
      hmisfits.written
    have hrefused : declared.accepts actual = false := Ty.accepts_eq_false_iff.2
      ⟨hmisfits.distinct, hmisfits.declared_known.1, hmisfits.actual_known.1,
        hmisfits.actual_known.2, hmisfits.not_widened⟩
    refine ⟨(.typeMismatch name declared.name actual.name, span), ?_, rfl⟩
    refine Write.mem_faults_iff.2 ⟨before, write, after, hwrites, ?_⟩
    exact Write.fault?_eq_misfit_iff.2 ⟨hname, value, hcompared, hactual, hspan, hrefused⟩

/-- A diagnostic with the wording of a misfit, whatever it names, is one of two types. -/
theorem exists_of_words_misfit {diagnostic : Diagnostic} (h : diagnostic ∈ program.check)
    {name expected received : String}
    (hwords : diagnostic.words (.typeMismatch name expected received) = true) :
    ∃ target declared actual, diagnostic =
      .ofCause (.typeMismatch target (Ty.name declared) (Ty.name actual)) diagnostic.span := by
  obtain ⟨⟨cause, span⟩, hfault, rfl⟩ := mem_check_iff.1 h
  have hcause := Write.isFault_of_mem_faults hfault
  have hmessage : cause.message = (Cause.typeMismatch name expected received).message :=
    beq_iff_eq.1 hwords
  have hfirst : cause.initial = 't' := by
    have hhead := hcause.head?_message
    rw [hmessage, Cause.head?_typeMismatch_message] at hhead
    exact (Option.some.inj hhead).symm
  cases hcause with
  | redeclared target => simp [Cause.initial] at hfirst
  | reassigned target => simp [Cause.initial] at hfirst
  | misfit target declared actual => exact ⟨target, declared, actual, rfl⟩

/-- A parsed program annotates no name with `nil`. -/
theorem not_annotates_nil {settings : Settings} {source : String} {parsed : Parsed}
    (h : parse settings source = .ok parsed) (name : String) :
    ¬parsed.program.Annotates name .nil := by
  rintro ⟨decl, ⟨stmt, hstmt, hpart⟩, -, hdecl⟩
  have hshaped : (Node.stmt (.varDecl decl)).Shaped source.toList :=
    wellShaped_of_parse h stmt hstmt _ hpart
  have hmem : Ty.nil ∈ Ty.annotations := hshaped.2 .nil hdecl
  simp [Ty.annotations] at hmem

/-- Only annotations are to blame for misfits. A misfit of a parsed program is reported for a name
and two types just if the name is annotated with the first one, the other one has been inferred for
a value that is written to it, and both are known, differ, and are not a `float` and an `int`; it is
reported at that value. Without annotations there is none. The type of a value is never `nil`
wherever one is compared, so whether it is accepted does not depend on what is said about `nil`. -/
theorem check_blames_annotations {settings : Settings} {source : String} {parsed : Parsed}
    (h : parse settings source = .ok parsed) :
    (∀ (name : String) (declared actual : Ty) (span : Span),
      .ofCause (.typeMismatch name declared.name actual.name) span ∈ parsed.program.check ↔
        parsed.program.Misfits name declared actual span) ∧
    (∀ diagnostic ∈ parsed.program.check, ∀ name expected received,
      diagnostic.words (.typeMismatch name expected received) = true →
        ∃ target declared actual,
          diagnostic = .ofCause (.typeMismatch target declared.name actual.name) diagnostic.span ∧
          parsed.program.Misfits target declared actual diagnostic.span) ∧
    ((∀ name ty, ¬parsed.program.Annotates name ty) →
      ∀ diagnostic ∈ parsed.program.check, ∀ name expected received,
        diagnostic.words (.typeMismatch name expected received) = false) ∧
    ∀ before after, parsed.program.writes = before ++ after → ∀ (value : Expr) (declared : Ty),
      let actual := (before.foldl Write.apply .empty).infer value
      actual ≠ .nil ∧
        (declared.accepts actual = true ↔
          declared = actual ∨ declared = .any ∨ actual = .any ∨
            declared = .float ∧ actual = .int) := by
  have hnil := not_annotates_nil h
  have hworded : ∀ diagnostic ∈ parsed.program.check, ∀ name expected received,
      diagnostic.words (.typeMismatch name expected received) = true →
        ∃ target declared actual,
          diagnostic = .ofCause (.typeMismatch target (Ty.name declared) (Ty.name actual))
            diagnostic.span ∧
          parsed.program.Misfits target declared actual diagnostic.span := by
    intro diagnostic hmem name expected received hwords
    obtain ⟨target, declared, actual, heq⟩ := exists_of_words_misfit hmem hwords
    exact ⟨target, declared, actual, heq, (mem_check_iff_misfits hnil).1 (heq ▸ hmem)⟩
  refine ⟨fun _ _ _ _ => mem_check_iff_misfits hnil, hworded, ?_, ?_⟩
  · intro hnone diagnostic hmem name expected received
    rw [Bool.eq_false_iff]
    intro hwords
    obtain ⟨target, declared, actual, -, hmisfits⟩ :=
      hworded diagnostic hmem name expected received hwords
    exact hnone target declared hmisfits.annotated
  · intro before after hwrites value declared actual
    have hactual : actual ≠ .nil := infer_ne_nil hnil hwrites value
    exact ⟨hactual, Ty.accepts_iff_of_ne_nil hactual⟩

/-- Behind `var float x;` the value `nil` is taken, and a string is not. -/
theorem check_blames_annotations_string :
    let first : Expr :=
      .assignment (.identifier "x" ⟨12, 13⟩) (.literal .nil "nil" ⟨14, 17⟩) ⟨12, 17⟩
    let second : Expr :=
      .assignment (.identifier "x" ⟨18, 19⟩) (.literal (.string "") "''" ⟨20, 22⟩) ⟨18, 22⟩
    let program : Program := ⟨[.varDecl ⟨"x", false, some .float, none, ⟨0, 12⟩⟩,
      .expression first ⟨12, 18⟩, .expression second ⟨18, 23⟩], ⟨0, 23⟩⟩
    parse ⟨5, true⟩ "var float x;x=nil;x='';" = .ok ⟨program, []⟩ ∧
      program.check = [.ofCause (.typeMismatch "x" "float" "string") ⟨20, 22⟩] ∧
      program.Misfits "x" .float .string ⟨20, 22⟩ := by
  intro first second program
  have hparse : parse ⟨5, true⟩ "var float x;x=nil;x='';" = .ok ⟨program, []⟩ := by cbv
  have hcheck : program.check = [.ofCause (.typeMismatch "x" "float" "string") ⟨20, 22⟩] := rfl
  refine ⟨hparse, hcheck, ?_⟩
  have hmem : .ofCause (.typeMismatch "x" "float" "string") ⟨20, 22⟩ ∈ program.check := by
    rw [hcheck]
    exact List.mem_cons_self
  exact ((check_blames_annotations hparse).1 "x" .float .string ⟨20, 22⟩).1 hmem

end Program

end ScriptLint
