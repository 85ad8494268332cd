import ScriptLint.Proofs.Typing.Writes

/-!
# The faults of a run

What the checker reports of a list of writes is the list of their faults, each found in the scope
behind the writes in front of it. A diagnostic keeps only the wording of a fault; the wordings of
two different faults differ, so it still tells which rule was broken and by which name.
-/

namespace ScriptLint

/-! ## Wording -/

/-- The causes that the checker reports. -/
inductive Cause.IsFault : Cause → Prop where
  | redeclared (name : String) : IsFault (.variableAlreadyDeclared name)
  | reassigned (name : String) : IsFault (.staticReassignment name)
  | misfit (name : String) (declared actual : Ty) :
      IsFault (.typeMismatch name declared.name actual.name)

/-- No name of a type has a quote in it. -/
theorem Ty.quote_notMem_name (ty : Ty) : '\'' ∉ ty.name.toList := by
  cases ty <;> decide

/-- The name of a type is all that stands behind the last quote. -/
theorem Ty.eq_of_append_quote_name {front other : String} {ty found : Ty}
    (h : front ++ "'" ++ ty.name = other ++ "'" ++ found.name) :
    front = other ∧ ty.name = found.name := by
  have hlist := congrArg (fun text => text.toList.reverse) h
  simp only [String.toList_append, List.reverse_append] at hlist
  have hbefore : ∀ (ty : Ty) (rest : List Char),
      (ty.name.toList.reverse ++ ('\'' :: rest)).takeWhile (· != '\'') =
        ty.name.toList.reverse := by
    intro ty rest
    rw [List.takeWhile_append_of_pos]
    · simp
    · intro c hc
      have hne : c ≠ '\'' := fun heq =>
        ty.quote_notMem_name (List.mem_reverse.1 (heq ▸ hc))
      simpa using hne
  have hname : ty.name.toList.reverse = found.name.toList.reverse := by
    rw [← hbefore ty front.toList.reverse, ← hbefore found other.toList.reverse]
    exact congrArg _ hlist
  have hsame : ty.name = found.name := String.toList_inj.1 (List.reverse_inj.1 hname)
  rw [hsame, String.append_left_inj, String.append_left_inj] at h
  exact ⟨h, hsame⟩

/-- The wording of a misfit tells the name and the two types. -/
theorem Cause.eq_of_typeMismatch_message {name other : String} {declared actual wanted given : Ty}
    (h : (Cause.typeMismatch name declared.name actual.name).message =
      (Cause.typeMismatch other wanted.name given.name).message) :
    name = other ∧ declared.name = wanted.name ∧ actual.name = given.name := by
  have hreceived (front : String) : front ++ "', received '" = front ++ "', received " ++ "'" := by
    rw [String.append_assoc, show "', received " ++ "'" = "', received '" by decide]
  have hexpected (front : String) : front ++ "': expected '" = front ++ "': expected " ++ "'" := by
    rw [String.append_assoc, show "': expected " ++ "'" = "': expected '" by decide]
  unfold message at h
  rw [String.append_left_inj, hreceived, hreceived] at h
  obtain ⟨h, hactual⟩ := Ty.eq_of_append_quote_name h
  rw [String.append_left_inj, hexpected, hexpected] at h
  obtain ⟨h, hdeclared⟩ := Ty.eq_of_append_quote_name h
  rw [String.append_left_inj, String.append_right_inj] at h
  exact ⟨h, hdeclared, hactual⟩

/-- A text begins with the first character of its front. -/
theorem Text.head?_append {text : String} {c : Char} (h : text.toList.head? = some c)
    (rest : String) : (text ++ rest).toList.head? = some c := by
  rw [String.toList_append, List.head?_append, h]
  rfl

/-- The letter that the wording of a fault begins with, one for each of the three rules. -/
def Cause.initial : Cause → Char
  | .variableAlreadyDeclared _ => 'v'
  | .staticReassignment _ => 'c'
  | _ => 't'

/-- The wording of a mismatch begins with one letter, whatever it names. -/
theorem Cause.head?_typeMismatch_message (name expected received : String) :
    (typeMismatch name expected received).message.toList.head? = some 't' := by
  have hfirst := Text.head?_append
    (show "types do not match for '".toList.head? = some 't' by decide) name
  have hname := Text.head?_append (Text.head?_append hfirst "': expected '") expected
  have htype := Text.head?_append (Text.head?_append hname "', received '") received
  exact Text.head?_append htype _

/-- The wording of a fault begins with the letter of its rule. -/
theorem Cause.IsFault.head?_message {cause : Cause} (h : cause.IsFault) :
    cause.message.toList.head? = some cause.initial := by
  cases h with
  | redeclared name =>
      have hfirst := Text.head?_append (show "variable '".toList.head? = some 'v' by decide) name
      exact Text.head?_append hfirst _
  | reassigned name =>
      have hfirst := Text.head?_append
        (show "cannot reassign static variable '".toList.head? = some 'c' by decide) name
      exact Text.head?_append hfirst _
  | misfit name declared actual => exact head?_typeMismatch_message name declared.name actual.name

/-- Two faults with the same wording are the same. -/
theorem Cause.IsFault.eq_of_message {cause other : Cause} (hcause : cause.IsFault)
    (hother : other.IsFault) (h : cause.message = other.message) : cause = other := by
  have hfirst : cause.initial = other.initial :=
    Option.some.inj (hcause.head?_message.symm.trans (h ▸ hother.head?_message))
  cases hcause with
  | redeclared name =>
      cases hother with
      | redeclared other =>
          unfold message at h
          rw [String.append_left_inj, String.append_right_inj] at h
          rw [h]
      | reassigned other => simp [initial] at hfirst
      | misfit other wanted given => simp [initial] at hfirst
  | reassigned name =>
      cases hother with
      | redeclared other => simp [initial] at hfirst
      | reassigned other =>
          unfold message at h
          rw [String.append_left_inj, String.append_right_inj] at h
          rw [h]
      | misfit other wanted given => simp [initial] at hfirst
  | misfit name declared actual =>
      cases hother with
      | redeclared other => simp [initial] at hfirst
      | reassigned other => simp [initial] at hfirst
      | misfit other wanted given =>
          obtain ⟨rfl, hdeclared, hactual⟩ := eq_of_typeMismatch_message h
          rw [hdeclared, hactual]

/-- The diagnostic has the wording of a cause. -/
def Diagnostic.words (cause : Cause) (diagnostic : Diagnostic) : Bool :=
  diagnostic.message == cause.message

/-- A diagnostic words one fault only. -/
theorem Cause.IsFault.words_iff {cause other : Cause} (hcause : cause.IsFault)
    (hother : other.IsFault) (span : Span) :
    (Diagnostic.ofCause other span).words cause = true ↔ other = cause := by
  rw [Diagnostic.words, beq_iff_eq]
  constructor
  · exact fun h => hother.eq_of_message hcause h
  · rintro rfl
    rfl

/-! ## Runs -/

namespace Write

/-- The faults of writes that are judged one after the other. -/
def faults : Scope → List Write → List (Cause × Span)
  | _, [] => []
  | scope, write :: rest => (write.fault? scope).toList ++ faults (write.apply scope) rest

/-- A value that does not fit is a fault. -/
theorem misfit?_isFault {scope : Scope} {name : String} {ty : Ty} {value : Expr}
    {fault : Cause × Span} (h : misfit? scope name ty value = some fault) : fault.1.IsFault := by
  unfold misfit? at h
  split at h
  · cases h
  · cases h
    exact .misfit name ty (scope.infer value)

/-- What is wrong with a write is a fault. -/
theorem fault?_isFault {scope : Scope} {write : Write} {fault : Cause × Span}
    (h : write.fault? scope = some fault) : fault.1.IsFault := by
  cases write with
  | declaration decl =>
      simp only [fault?] at h
      split at h
      · cases h
        exact .redeclared decl.name
      · obtain ⟨ty, -, h⟩ := Option.bind_eq_some_iff.1 h
        obtain ⟨value, -, h⟩ := Option.bind_eq_some_iff.1 h
        exact misfit?_isFault h
  | assignment name value span =>
      simp only [fault?] at h
      split at h
      · cases h
        exact .reassigned name
      · obtain ⟨ty, -, h⟩ := Option.bind_eq_some_iff.1 h
        exact misfit?_isFault h

/-- A fault of a run is one of its writes', in the scope behind the writes in front of it. -/
theorem mem_faults_iff {scope : Scope} {writes : List Write} {fault : Cause × Span} :
    fault ∈ faults scope writes ↔ ∃ before write after, writes = before ++ write :: after ∧
      write.fault? (before.foldl apply scope) = some fault := by
  induction writes generalizing scope with
  | nil => simp [faults]
  | cons write rest ih =>
      rw [faults, List.mem_append, Option.mem_toList, ih]
      constructor
      · rintro (h | ⟨before, found, after, rfl, h⟩)
        · exact ⟨[], write, rest, rfl, h⟩
        · exact ⟨write :: before, found, after, rfl, h⟩
      · rintro ⟨before, found, after, heq, h⟩
        cases before with
        | nil =>
            cases heq
            exact .inl h
        | cons first before =>
            cases heq
            exact .inr ⟨before, found, after, rfl, h⟩

/-- What is wrong in a run is a fault each time. -/
theorem isFault_of_mem_faults {scope : Scope} {writes : List Write} {fault : Cause × Span}
    (h : fault ∈ faults scope writes) : fault.1.IsFault := by
  obtain ⟨before, write, after, -, hfault⟩ := mem_faults_iff.1 h
  exact fault?_isFault hfault

end Write

/-- The diagnostic of a fault. -/
def Diagnostic.ofFault (fault : Cause × Span) : Diagnostic :=
  .ofCause fault.1 fault.2

/-- The diagnostics with the wording of a fault are those of that fault. -/
theorem Write.filter_words_faults {cause : Cause} (hcause : cause.IsFault) (scope : Scope)
    (writes : List Write) :
    ((faults scope writes).map Diagnostic.ofFault).filter (·.words cause) =
      ((faults scope writes).filter (·.1 = cause)).map Diagnostic.ofFault := by
  rw [List.filter_map]
  congr 1
  apply List.filter_congr
  intro fault hfault
  rw [Bool.eq_iff_iff, decide_eq_true_iff]
  exact hcause.words_iff (isFault_of_mem_faults hfault) fault.2

namespace Checker

/-- Judging writes reports their faults, and leads to the scope behind them. -/
theorem foldl_judge (writes : List Write) (checker : Checker) :
    (writes.foldl judge checker).scope = writes.foldl Write.apply checker.scope ∧
      (writes.foldl judge checker).diagnostics.toList = checker.diagnostics.toList ++
        (Write.faults checker.scope writes).map Diagnostic.ofFault := by
  induction writes generalizing checker with
  | nil => exact ⟨rfl, by simp [Write.faults]⟩
  | cons write rest ih =>
      obtain ⟨hscope, hdiagnostics⟩ := ih (checker.judge write)
      refine ⟨hscope, ?_⟩
      rw [List.foldl_cons, hdiagnostics, Write.faults, List.map_append, ← List.append_assoc]
      congr 1
      cases hfault : write.fault? checker.scope <;>
        simp [judge, hfault, Diagnostic.ofFault]

/-- Checking a program is judging its writes from an empty checker on. -/
theorem ofProgram_eq_foldl (program : Program) :
    ofProgram program = program.writes.foldl judge empty :=
  walkStmts_eq_foldl program.statements empty

/-- What is reported of a program is what judging its writes from the start reports. -/
theorem check_fst (used : Checker) (program : Program) :
    (used.check program).1 = (program.writes.foldl judge empty).diagnostics.toList := by
  rw [← ofProgram_eq_foldl]
  rfl

end Checker

/-- The diagnostics of a program are those of the faults of its writes. -/
theorem Program.check_eq_faults (program : Program) :
    program.check = (Write.faults .empty program.writes).map Diagnostic.ofFault := by
  rw [check, Checker.ofProgram_eq_foldl, (Checker.foldl_judge program.writes .empty).2]
  rfl

/-- The diagnostics of a program are those of its faults. -/
theorem Program.mem_check_iff {program : Program} {diagnostic : Diagnostic} :
    diagnostic ∈ program.check ↔
      ∃ fault ∈ Write.faults .empty program.writes, Diagnostic.ofFault fault = diagnostic := by
  rw [check_eq_faults, List.mem_map]

end ScriptLint
