import ScriptLint.Proofs.Nesting.Threshold
import ScriptLint.Proofs.Sentence.Completeness
import ScriptLint.Proofs.Sentence.Soundness

/-!
# Parsing recognizes the grammar

`parse_recognizes` is the main result on parsing. With enough levels a source is parsed without
errors exactly if its tokens derive the statements of a program, and the program has those
statements. The levels are enough if they are more than the tokens with their end mark.
-/

namespace ScriptLint

open Reading Read

variable {settings : Settings} {source : String} {tokens : List Token}

/-- The statements of a program are read without errors exactly if the tokens derive them. -/
theorem Program.readStatements_iff {context : Context} (hgrammar : context.grammar = .standard)
    {reading : Reading} (hclean : reading.Clean) {levels : Nat}
    (hlevels : reading.ahead.length + 2 ≤ levels) (statements : List Stmt) :
    (∃ later, Program.readStatements context levels reading = .ok statements later ∧
      later.errors = #[]) ↔ Sentences context.sourceText reading.ahead statements := by
  constructor
  · rintro ⟨later, hrun, herrors⟩
    exact Program.readStatements_clean hgrammar hclean herrors hrun
  · intro hsentences
    obtain ⟨later, hpasses⟩ : ∃ later, reading.Passes reading.ahead later :=
      ⟨⟨reading.ahead.reverse ++ reading.behind, [], reading.mark, reading.errors⟩,
        (List.append_nil _).symm, rfl, rfl, rfl⟩
    exact ⟨later, Program.readStatements_accepts hgrammar hclean.1 hlevels hsentences hpasses,
      hpasses.errors.trans hclean.2⟩

/-- A program has no errors if it was read to a reading without errors. -/
theorem Program.outcome_eq_ok_iff {source : List Char} {statements : List Stmt}
    {result : EStateM.Result Error Reading (List Stmt)} :
    Program.outcome source result =
        .ok ⟨⟨statements, ⟨0, Text.byteLength source⟩⟩, []⟩ ↔
      ∃ later, result = .ok statements later ∧ later.errors = #[] := by
  cases result with
  | error error later => simp [Program.outcome]
  | ok found later =>
      constructor
      · intro h
        simp only [Program.outcome, Except.ok.injEq, Parsed.mk.injEq, Program.mk.injEq, and_true,
          Array.toList_eq_nil_iff] at h
        exact ⟨later, by rw [h.1], h.2⟩
      · rintro ⟨_, ⟨⟩, herrors⟩
        simp [Program.outcome, herrors]

/-- With more levels than tokens, a source is parsed without errors into exactly the statements that
its tokens derive. -/
theorem Program.parse_recognizes (htokens : Token.tokenize settings source = .ok tokens)
    (hdepth : tokens.length + 1 ≤ settings.maxDepth) (statements : List Stmt) :
    Program.parse settings source =
        .ok ⟨⟨statements, ⟨0, Text.byteLength source.toList⟩⟩, []⟩ ↔
      Sentences (Context.ofSettings settings source.toList).sourceText
        (tokens.filter (·.kind != .eof)) statements := by
  obtain ⟨body, stop, hshape, hbody, hparse⟩ := Program.exists_parse_eq htokens
  have hlevels : body.length + 2 ≤ settings.maxDepth := by
    rw [hshape, List.length_append, List.length_singleton] at hdepth
    exact hdepth
  have hclean : Reading.Clean ⟨[], body, Token.endMark stop, #[]⟩ := ⟨rfl, rfl⟩
  have hiff := Program.readStatements_iff
    (show (Context.ofSettings settings source.toList).grammar = .standard from rfl) hclean hlevels
    statements
  rw [hparse, hbody, ← hiff]
  exact Program.outcome_eq_ok_iff

/-- A loop whose last semicolon belongs to it is parsed, so its tokens derive it. -/
theorem Program.parse_recognizes_do_while :
    let tokens : List Token := [⟨.keyword, "do", ⟨0, 2⟩⟩, ⟨.symbol, "\x7b", ⟨2, 3⟩⟩,
      ⟨.symbol, "\x7d", ⟨3, 4⟩⟩, ⟨.keyword, "while", ⟨4, 9⟩⟩, ⟨.symbol, "(", ⟨9, 10⟩⟩,
      ⟨.identifier, "a", ⟨10, 11⟩⟩, ⟨.symbol, ")", ⟨11, 12⟩⟩, ⟨.symbol, ";", ⟨12, 13⟩⟩,
      Token.endMark 13]
    let loop : Stmt := .doWhile ⟨[], ⟨2, 4⟩⟩ (.identifier "a" ⟨10, 11⟩) ⟨0, 13⟩
    Token.tokenize ⟨10, true⟩ "do\x7b\x7dwhile(a);" = .ok tokens ∧ tokens.length + 1 ≤ 10 ∧
      Program.parse ⟨10, true⟩ "do\x7b\x7dwhile(a);" = .ok ⟨⟨[loop], ⟨0, 13⟩⟩, []⟩ ∧
      Sentences (Context.ofSettings ⟨10, true⟩ "do\x7b\x7dwhile(a);".toList).sourceText
        (tokens.filter (·.kind != .eof)) [loop] := by
  intro tokens loop
  have htokens : Token.tokenize ⟨10, true⟩ "do\x7b\x7dwhile(a);" = .ok tokens := by cbv
  have hparse :
      Program.parse ⟨10, true⟩ "do\x7b\x7dwhile(a);" = .ok ⟨⟨[loop], ⟨0, 13⟩⟩, []⟩ := by cbv
  have hdepth : tokens.length + 1 ≤ 10 := by decide
  exact ⟨htokens, hdepth, hparse, (Program.parse_recognizes htokens hdepth [loop]).1 hparse⟩

end ScriptLint
