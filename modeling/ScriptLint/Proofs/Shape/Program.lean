import ScriptLint.Proofs.Reporting.Positions
import ScriptLint.Proofs.Shape.Sentences

/-!
# The shape of a program

`parse_shaped` is what those who walk a program may rely on. Whatever the source, and whether or not
there were errors to recover from, every node of a program that is parsed has the shape of its kind.
-/

namespace ScriptLint.Program

variable {settings : Settings} {source : String}

/-- The statements of a parsed program are well shaped. -/
theorem wellShaped_of_parse {parsed : Parsed} (h : parse settings source = .ok parsed) :
    ∀ stmt ∈ parsed.program.statements, (Node.stmt stmt).WellShaped source.toList := by
  obtain ⟨tokens, reports, htokens, hcollected⟩ :=
    exists_collected_of_parse (Node.shapeAccounts_closed settings.foldNegative _) h
  have hstands := @Token.scan_standsIn _ _ _ [] _ htokens rfl
  refine hcollected.forall_mem id fun token htoken => ?_
  rw [List.mem_filter] at htoken
  exact hstands token htoken.1 (by simpa using htoken.2)

/-- Every node of a parsed program has the shape of its kind: operators, targets, names, types,
alternates and first parts of `for` loops are those of the language, and literals and names repeat
the source. -/
theorem parse_shaped {parsed : Parsed} (h : parse settings source = .ok parsed) :
    ∀ stmt ∈ parsed.program.statements, ∀ part, (Node.stmt stmt).HasPart part →
      part.Shaped source.toList :=
  wellShaped_of_parse h

/-- An assignment to a call is given up. Behind it, a string is assigned to a member that has the
name of a keyword. -/
theorem parse_shaped_recovered :
    ∃ parsed, parse ⟨8, true⟩ "a()=b;a.if='x';" = .ok parsed ∧
      parsed.diagnostics = [⟨⟨0, 3⟩, Cause.invalidAssignmentTarget.message, .error⟩] ∧
      ∀ stmt ∈ parsed.program.statements, ∀ part, (Node.stmt stmt).HasPart part →
        part.Shaped "a()=b;a.if='x';".toList := by
  have hanalyze : analyze ⟨8, true⟩ "a()=b;a.if='x';" =
      .ok [⟨⟨0, 3⟩, Cause.invalidAssignmentTarget.message, .error⟩] := by decide +kernel
  obtain ⟨parsed, hparse, hdiagnostics⟩ := analyze_ok_iff.1 hanalyze
  exact ⟨parsed, hparse, hdiagnostics, parse_shaped hparse⟩

end ScriptLint.Program
