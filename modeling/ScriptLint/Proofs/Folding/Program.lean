import Mathlib
import ScriptLint.Proofs.Folding.Sentences
import ScriptLint.Proofs.Sentence.Recognition
import ScriptLint.Proofs.Sequence.Program
import ScriptLint.Proofs.Token.Tiling

/-!
# Folding is only a different spelling

A source that is read without errors with folding is also read without it, given enough levels, into
the unfolded program. The checker cannot tell the two programs apart. The main theorem is
`Program.parse_unfolded`.
-/

namespace ScriptLint

/-- The program with a minus sign and a number in the place of every negative literal. -/
def Program.unfolded (program : Program) : Program :=
  program.respell .unfolded

/-- The digits behind the sign of a signed number stand in the source. -/
theorem Token.StandsIn.signStands {source : List Char} {token : Token}
    (h : token.StandsIn true source) (hfolded : token.isFolded = true) (settings : Settings) :
    token.SignStands (Context.ofSettings settings source).sourceText := by
  obtain ⟨kind, value, span⟩ := token
  obtain ⟨front, text, back, rfl, rfl, hwritten⟩ := h
  simp only [isFolded, Bool.and_eq_true, beq_iff_eq] at hfolded
  obtain ⟨hkind, hhead⟩ := hfolded
  dsimp only at hkind hwritten
  subst hkind
  cases hwritten with
  | number hlongest =>
      obtain ⟨hnumber, -⟩ := hlongest
      rw [String.toList_ofList] at hhead
      cases hnumber with
      | plain hplain => exact absurd hhead hplain.head?_ne_sign
      | @negative digits _ hplain =>
          have hsign : Text.byteLength ('-' :: digits) = 1 + Text.byteLength digits := rfl
          have hwhole := Text.slice?_middle front ('-' :: digits) back
          -- The digits are cut out behind the text in front and the sign.
          have hpart := Text.slice?_middle (front ++ ['-']) digits back
          rw [Text.byteLength_append, show Text.byteLength ['-'] = 1 from rfl, List.append_assoc,
            List.singleton_append, ← List.cons_append, Nat.add_assoc, ← hsign] at hpart
          refine ⟨digits, rfl, hplain.startsWithDigit, ?_, ?_, ?_⟩
          · exact congrArg (fun slice => String.ofList (Option.getD slice [])) hwhole
          · exact congrArg (fun slice => String.ofList (Option.getD slice [])) hpart
          · dsimp only
            omega

namespace Program

/-- The tokens of a source may be split if no signed number is called or has a member. -/
theorem splittable_of_tokenize {settings : Settings} {source : String} {body : List Token}
    {mark : Token} (hfold : settings.foldNegative = true)
    (htokens : Token.tokenize settings source = .ok (body ++ [mark]))
    (hbody : ∀ token ∈ body, token.kind ≠ .eof)
    (hapart : (body ++ [mark]).IsChain fun first second =>
      first.isFolded = true → second.isAny ["(", "."] = false) (other : Settings) :
    Splittable (Context.ofSettings other source.toList).sourceText body where
  stands token htoken hfolded := by
    have hstands := @Token.scan_standsIn _ _ _ [] _ htokens rfl token
      (List.mem_append_left _ htoken) (hbody token htoken)
    rw [hfold] at hstands
    exact hstands.signStands hfolded other
  apart := (List.isChain_append.1 hapart).1

/-- Without folding a source gives the split tokens. -/
theorem tokenize_unfolded {depth more : Nat} {source : String} {body : List Token} {stop : Nat}
    (htokens : Token.tokenize ⟨depth, true⟩ source = .ok (body ++ [Token.endMark stop])) :
    Token.tokenize ⟨more, false⟩ source =
      .ok (Token.splitAll body ++ [Token.endMark stop]) := by
  have hscan : Token.scan true 0 source.toList = .ok (body ++ [Token.endMark stop]) := htokens
  show Token.scan false 0 source.toList = _
  rw [Token.scan_split, hscan]
  show Except.ok (Token.splitAll _) = _
  rw [Token.splitAll_append]
  rfl

/-- The statements of a source that is read without errors are derived by its tokens. -/
theorem sentences_of_parse {settings : Settings} {source : String} {body : List Token} {stop : Nat}
    {parsed : Parsed}
    (htokens : Token.tokenize settings source = .ok (body ++ [Token.endMark stop]))
    (hparse : parse settings source = .ok parsed) (herrors : parsed.errors = []) :
    Sentences (Context.ofSettings settings source.toList).sourceText body
        parsed.program.statements ∧
      parsed.program.span = ⟨0, Text.byteLength source.toList⟩ := by
  rw [parse_of_tokens htokens] at hparse
  cases hrun : readStatements (.ofSettings settings source.toList) settings.maxDepth
      ⟨[], body, Token.endMark stop, #[]⟩ with
  | error error later =>
      rw [hrun] at hparse
      cases hparse
  | ok statements later =>
      rw [hrun] at hparse
      cases hparse
      have hclean : Reading.Clean ⟨[], body, Token.endMark stop, #[]⟩ := ⟨rfl, rfl⟩
      exact ⟨readStatements_clean rfl hclean (Array.toList_eq_nil_iff.1 herrors) hrun, rfl⟩

/-- The checker cannot tell a program from the unfolded one. -/
theorem ofProgram_unfolded (program : Program) :
    Checker.ofProgram program.unfolded = Checker.ofProgram program := by
  obtain ⟨hscope, hcheck⟩ := Checker.ofProgram_respell Respelling.unfolded_faithful program
  have hkept : program.check.map (Diagnostic.mapSpan Respelling.unfolded.span) = program.check :=
    List.map_id _
  have hext : ∀ first second : Checker, first.scope = second.scope →
      first.diagnostics = second.diagnostics → first = second := by
    rintro ⟨_, _⟩ ⟨_, _⟩ rfl rfl
    rfl
  exact hext _ _ hscope (Array.toList_inj.1 (hcheck.trans hkept))

/-- A source that is read without errors with folding is read without it, given enough levels, into
the unfolded program, unless a signed number is called or has a member. The checker comes to the
same end for both. -/
theorem parse_unfolded {depth : Nat} {source : String} {tokens : List Token} {parsed : Parsed}
    (htokens : Token.tokenize ⟨depth, true⟩ source = .ok tokens)
    (hparse : parse ⟨depth, true⟩ source = .ok parsed) (herrors : parsed.errors = [])
    (hapart : tokens.IsChain fun first second =>
      first.isFolded = true → second.isAny ["(", "."] = false) :
    ∃ enough, ∀ more, enough ≤ more →
      parse ⟨more, false⟩ source = .ok ⟨parsed.program.unfolded, []⟩ ∧
        Checker.ofProgram parsed.program.unfolded = Checker.ofProgram parsed.program := by
  obtain ⟨body, rfl, hbody⟩ := Token.tokenize_mark htokens
  obtain ⟨hsentences, hspan⟩ := sentences_of_parse htokens hparse herrors
  refine ⟨(Token.splitAll body).length + 2, fun more hmore => ⟨?_, ofProgram_unfolded _⟩⟩
  have hsplit := splittable_of_tokenize rfl htokens (fun token h => (hbody token h).1) hapart
    ⟨depth, true⟩
  have hclean : Reading.Clean ⟨[], Token.splitAll body,
      Token.endMark (Text.byteLength source.toList), #[]⟩ := ⟨rfl, rfl⟩
  have hgrammar : (Context.ofSettings ⟨more, false⟩ source.toList).grammar = .standard := rfl
  have hread := (readStatements_iff hgrammar hclean hmore _).2 (hsentences.splitAll hsplit)
  rw [parse_of_tokens (tokenize_unfolded htokens), outcome_eq_ok_iff.2 hread, unfolded, respell,
    hspan]
  rfl

theorem parse_unfolded_difference :
    let tokens : List Token := [⟨.identifier, "a", ⟨0, 1⟩⟩, ⟨.symbol, "=", ⟨1, 2⟩⟩,
      ⟨.number, "-1", ⟨2, 4⟩⟩, ⟨.symbol, "-", ⟨5, 6⟩⟩, ⟨.number, "-2", ⟨7, 9⟩⟩,
      ⟨.symbol, ";", ⟨9, 10⟩⟩, Token.endMark 10]
    Token.tokenize ⟨9, true⟩ "a=-1 - -2;" = .ok tokens ∧
      (tokens.IsChain fun first second =>
        first.isFolded = true → second.isAny ["(", "."] = false) ∧
      ∃ parsed, parse ⟨9, true⟩ "a=-1 - -2;" = .ok parsed ∧ parsed.errors = [] ∧
        ∃ enough, ∀ more, enough ≤ more →
          parse ⟨more, false⟩ "a=-1 - -2;" = .ok ⟨parsed.program.unfolded, []⟩ ∧
            Checker.ofProgram parsed.program.unfolded = Checker.ofProgram parsed.program := by
  intro tokens
  have htokens : Token.tokenize ⟨9, true⟩ "a=-1 - -2;" = .ok tokens := by decide +kernel
  have hapart : tokens.IsChain fun first second =>
      first.isFolded = true → second.isAny ["(", "."] = false := by decide
  have hclean : (parse ⟨9, true⟩ "a=-1 - -2;").toOption.any (·.errors.isEmpty) = true := by
    decide +kernel
  cases hparse : parse ⟨9, true⟩ "a=-1 - -2;" with
  | error error =>
      rw [hparse] at hclean
      cases hclean
  | ok parsed =>
      rw [hparse] at hclean
      have herrors : parsed.errors = [] := List.isEmpty_iff.1 hclean
      exact ⟨htokens, hapart, parsed, rfl, herrors,
        parse_unfolded htokens hparse herrors hapart⟩

end Program

end ScriptLint
