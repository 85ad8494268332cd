import Mathlib
import ScriptLint.Proofs.Failure.Headers

/-!
# Why a program cannot be read

`parse_fails_fatally` is the main result on failure. Reading a source fails at a string that is
never closed, at the nesting limit, or behind a keyword with a header, and at nothing else. So a
source without such keywords is always read, if its strings are closed and there are levels enough.
-/

namespace ScriptLint

/-- An operator or a symbol is never spelled like a keyword with a header. -/
theorem Lexeme.notMem_headerKeywords {c : Char} {rest : List Char} {kind : TokenKind}
    {value : String} (h : (Lexeme.operatorOrSymbol c rest).piece = .token kind value) :
    value ∉ Token.headerKeywords := by
  rcases Lexeme.operatorOrSymbol_cases h with ⟨-, hvalue⟩ | ⟨-, rfl⟩
  · revert hvalue
    have hnone : ∀ text ∈ ["and", "or", "==", "!=", ">=", "<=", "=>"],
        text ∉ Token.headerKeywords := by decide
    exact hnone value
  · intro hmem
    have hlong : ∀ text ∈ Token.headerKeywords, text.toList.length ≠ 1 := by decide
    exact hlong _ hmem (by simp)

/-- The tokens of a text that are spelled like a keyword with a header are keywords. -/
theorem Token.headersKnown_of_scan {fold : Bool} {offset : Nat} {text : List Char}
    {tokens : List Token} (h : Token.scan fold offset text = .ok tokens) :
    Token.HeadersKnown tokens := by
  have hkinds : ∀ token ∈ tokens, token.value ∈ headerKeywords →
      token.kind ≠ .operator ∧ token.kind ≠ .symbol := by
    refine Token.forall_mem_scan (P := fun kind value => value ∈ headerKeywords →
      kind ≠ .operator ∧ kind ≠ .symbol) (fun _ => ⟨nofun, nofun⟩) ?_ h
    intro c rest kind value hpiece hvalue
    rcases Lexeme.next_token_cases hpiece with hkind | hword | hsymbol
    · rcases List.mem_pair.1 hkind with rfl | rfl <;> exact ⟨nofun, nofun⟩
    · rcases Lexeme.word_cases hword with ⟨rfl, -⟩ | rfl <;> exact ⟨nofun, nofun⟩
    · exact absurd hvalue (Lexeme.notMem_headerKeywords hsymbol)
  intro token htoken hany
  obtain ⟨text, htext, his⟩ := List.any_eq_true.1 hany
  obtain ⟨hspelled, rfl⟩ := Token.is_iff.1 his
  obtain ⟨hoperator, hsymbol⟩ := hkinds token htoken htext
  have hkeyword : token.kind = .keyword := by
    unfold Token.isSpelled at hspelled
    split at hspelled <;> simp_all
  unfold Token.opensHeader
  rw [hkeyword, List.contains_iff_mem.2 htext]
  rfl

namespace Program

variable {settings : Settings} {source : String} {tokens : List Token}

/-- The start of the reading of a source is bounded by the end mark. -/
theorem bounded_of_tokenize {body : List Token} {stop : Nat}
    (h : Token.tokenize settings source = .ok (body ++ [Token.endMark stop]))
    (hbody : (body ++ [Token.endMark stop]).filter (·.kind != .eof) = body) :
    Reading.Bounded body ⟨[], body, Token.endMark stop, #[]⟩ := by
  obtain ⟨-, hinorder⟩ := Token.tokenize_places h
  rw [hbody] at hinorder
  obtain ⟨-, -, hordered⟩ := @Token.scan_places _ _ _ [] _ h rfl
  refine ⟨⟨rfl, rfl, hinorder⟩, fun token htoken => ?_⟩
  exact (List.pairwise_append.1 hordered).2.2 token htoken _ List.mem_cons_self

/-- An error that ends the reading of statements is fatal. -/
theorem readStatements_error_fatal {context : Context} {levels : Nat} {reading later : Reading}
    {error : Error} (h : readStatements context levels reading = .error error later) :
    error.fatal = true := by
  obtain ⟨middle, hitem⟩ := Read.collect_error Read.halts_not_hasTokens h
  exact (Read.recovering_error_cases hitem).2

/-- What may be wrong with a source whose strings are closed. -/
theorem error_cases_of_tokens {error : Error}
    (htokens : Token.tokenize settings source = .ok tokens)
    (h : parse settings source = .error error) :
    error.fatal = true ∧
      (error.cause = .recursionLimit settings.maxDepth ∨ error.InHeader tokens) := by
  obtain ⟨body, stop, rfl, hbody, hparse⟩ := exists_parse_eq htokens
  rw [hparse] at h
  cases hrun : readStatements (Context.ofSettings settings source.toList) settings.maxDepth
      ⟨[], body, Token.endMark stop, #[]⟩ with
  | ok stmts later => simp [hrun, outcome] at h
  | error failure later =>
      rw [hrun] at h
      cases h
      have hfatal := readStatements_error_fatal hrun
      have hknown : Token.HeadersKnown body := fun token hmem =>
        Token.headersKnown_of_scan htokens token (List.mem_append_left _ hmem)
      have hbounded := bounded_of_tokenize htokens hbody
      rcases readStatements_excused hknown rfl hbounded hrun hfatal with
        hlimit | ⟨hmisplaced, token, hmem, hheader⟩
      · exact ⟨hfatal, .inl hlimit.1⟩
      · exact ⟨hfatal, .inr ⟨hmisplaced, token, List.mem_append_left _ hmem, hheader⟩⟩

/-- A source that cannot be read has a fatal error. Either a string is never closed, or the nesting
limit is reached, or a phrase cannot stand where it stands, behind the keyword of a function, a
class or a `for` loop. Without such a keyword, and with one level more than there are tokens, every
source whose strings are closed is read. -/
theorem parse_fails_fatally (settings : Settings) (source : String) :
    (∀ error : Error, parse settings source = .error error →
      error.fatal = true ∧
        ((Token.tokenize settings source = .error error ∧
            ∃ start : Nat, error.cause = .unterminatedString start) ∨
          error.cause = .recursionLimit settings.maxDepth ∨
          ∃ tokens : List Token, Token.tokenize settings source = .ok tokens ∧
            error.InHeader tokens)) ∧
      ∀ tokens : List Token, Token.tokenize settings source = .ok tokens →
        (∀ token ∈ tokens, token.opensHeader = false) → tokens.length + 1 ≤ settings.maxDepth →
        ∃ parsed : Parsed, parse settings source = .ok parsed := by
  constructor
  · intro error herror
    cases htokens : Token.tokenize settings source with
    | error failure =>
        rw [parse_of_error htokens] at herror
        cases herror
        obtain ⟨start, rest, rfl⟩ := Token.scan_error htokens
        exact ⟨rfl, .inl ⟨rfl, start, rfl⟩⟩
    | ok tokens =>
        obtain ⟨hfatal, hcases⟩ := error_cases_of_tokens htokens herror
        refine ⟨hfatal, .inr ?_⟩
        rcases hcases with hlimit | hheader
        · exact .inl hlimit
        · exact .inr ⟨tokens, rfl, hheader⟩
  · intro tokens htokens hnone hdepth
    cases hparse : parse settings source with
    | ok parsed => exact ⟨parsed, rfl⟩
    | error error =>
        obtain ⟨-, hcases⟩ := error_cases_of_tokens htokens hparse
        rcases hcases with hlimit | ⟨-, token, hmem, hopens, -⟩
        · exact absurd hlimit (parse_ne_limit htokens hdepth hparse _)
        · rw [hnone token hmem] at hopens
          cases hopens

/-- In `for(''=` the error stands at the string, behind the keyword. A sign that stands alone is
recovered from. -/
theorem parse_fails_fatally_loop :
    parse ⟨4, true⟩ "for(''=" = .error ⟨.invalidAssignmentTarget, ⟨4, 6⟩, true⟩ ∧
      (∃ tokens : List Token, Token.tokenize ⟨4, true⟩ "for(''=" = .ok tokens ∧
        Error.InHeader tokens ⟨.invalidAssignmentTarget, ⟨4, 6⟩, true⟩) ∧
      ∃ parsed : Parsed, parse ⟨4, true⟩ "=;" = .ok parsed := by
  have hparse : parse ⟨4, true⟩ "for(''=" =
      .error ⟨.invalidAssignmentTarget, ⟨4, 6⟩, true⟩ := by cbv
  have htokens : Token.tokenize ⟨4, true⟩ "=;" = .ok [⟨.symbol, "=", ⟨0, 1⟩⟩,
      ⟨.symbol, ";", ⟨1, 2⟩⟩, Token.endMark 2] := by cbv
  refine ⟨hparse, ?_, ?_⟩
  · obtain ⟨-, ⟨hopen, start, hcause⟩ | hlimit | hheader⟩ :=
      (parse_fails_fatally ⟨4, true⟩ "for(''=").1 _ hparse
    · cases hcause
    · cases hlimit
    · exact hheader
  · exact (parse_fails_fatally ⟨4, true⟩ "=;").2 _ htokens (by decide) (by decide)

end Program

end ScriptLint
