import Mathlib
import ScriptLint.Proofs.Nesting.Supply
import ScriptLint.Proofs.Token.Stream

/-!
# The nesting limit as a threshold

For every source there is a number of levels that it needs. With fewer levels the reading fails with
the nesting error, and with as many or more it has always the same outcome, which is no nesting
error. A source never needs more than one level more than it has tokens, the end mark included.
-/

namespace ScriptLint.Program

/-- What the outcome of reading the statements means for the program of a source. -/
def outcome (source : List Char) :
    EStateM.Result Error Reading (List Stmt) → Except Error Parsed
  | .ok statements reading => .ok ⟨⟨statements, ⟨0, Text.byteLength source⟩⟩, reading.errors.toList⟩
  | .error error _ => .error error

variable {settings : Settings} {source : String} {tokens : List Token}

/-- The limit enters a parse only as the levels that may be opened. -/
theorem parse_eq_outcome (htokens : Token.tokenize settings source = .ok tokens) (depth : Nat) :
    parse { settings with maxDepth := depth } source =
      outcome source.toList (readStatements
        ((Context.ofSettings settings source.toList).withLimit depth) depth
        (Reading.ofTokens tokens)) := by
  show (Token.tokenize settings source).bind _ = _
  rw [htokens]
  rfl

/-- A source is parsed by reading its tokens from the first one to the end mark. -/
theorem exists_parse_eq (htokens : Token.tokenize settings source = .ok tokens) :
    ∃ body stop, tokens = body ++ [Token.endMark stop] ∧
      tokens.filter (·.kind != .eof) = body ∧
      parse settings source = outcome source.toList
        (readStatements (Context.ofSettings settings source.toList) settings.maxDepth
          ⟨[], body, Token.endMark stop, #[]⟩) := by
  obtain ⟨body, stop, hshape, hbody, hreading⟩ := Reading.ofTokens_tokenize htokens
  refine ⟨body, stop, hshape, hbody, ?_⟩
  rw [← hreading]
  exact parse_eq_outcome htokens settings.maxDepth

/-- A source that is parsed has been read to its end, and the program is what was read. -/
theorem exists_run_of_parse {parsed : Parsed} (h : parse settings source = .ok parsed) :
    ∃ tokens stop later, Token.tokenize settings source = .ok tokens ∧
      readStatements (Context.ofSettings settings source.toList) settings.maxDepth
        ⟨[], tokens.filter (·.kind != .eof), Token.endMark stop, #[]⟩ =
          .ok parsed.program.statements later := by
  cases htokens : Token.tokenize settings source with
  | error error => simp [parse, htokens, bind, Except.bind] at h
  | ok tokens =>
      obtain ⟨body, stop, -, hbody, hparse⟩ := exists_parse_eq htokens
      rw [hparse] at h
      cases hrun : readStatements (Context.ofSettings settings source.toList) settings.maxDepth
          ⟨[], body, Token.endMark stop, #[]⟩ with
      | error error later => simp [hrun, outcome] at h
      | ok stmts later =>
          rw [hrun] at h
          cases h
          exact ⟨tokens, stop, later, rfl, hbody ▸ hrun⟩

/-- If there are no tokens, there is nothing to parse. -/
theorem parse_of_error {error : Error} (htokens : Token.tokenize settings source = .error error) :
    parse settings source = .error error := by
  show (Token.tokenize settings source).bind _ = _
  rw [htokens]
  rfl

/-- Two readings of a source either have the same outcome, or the one with fewer levels fails with
its nesting error. -/
theorem parse_agrees (htokens : Token.tokenize settings source = .ok tokens) {depth more : Nat}
    (hle : depth ≤ more) :
    (∃ error, parse { settings with maxDepth := depth } source = .error error ∧
      error.IsLimit depth) ∨
    parse { settings with maxDepth := depth } source =
      parse { settings with maxDepth := more } source := by
  rw [parse_eq_outcome htokens, parse_eq_outcome htokens]
  have hagrees := readStatements_agrees
    ((Context.ofSettings settings source.toList).withLimit depth) more hle
    (Reading.ofTokens tokens)
  rcases hagrees with ⟨error, later, herror, hlimit⟩ | ⟨heq, _⟩
  · exact .inl ⟨error, by rw [herror]; rfl, hlimit⟩
  · exact .inr (congrArg (outcome source.toList) heq)

/-- With one level more than there are tokens there is no nesting error. -/
theorem parse_ne_limit (htokens : Token.tokenize settings source = .ok tokens) {depth : Nat}
    (hdepth : tokens.length + 1 ≤ depth) {error : Error}
    (herror : parse { settings with maxDepth := depth } source = .error error) (limit : Nat) :
    error.cause ≠ .recursionLimit limit := by
  obtain ⟨body, stop, rfl, _, hreading⟩ := Reading.ofTokens_tokenize htokens
  rw [parse_eq_outcome htokens, hreading] at herror
  have hlevels : body.length + 2 ≤ depth := by
    rw [List.length_append, List.length_singleton] at hdepth
    exact hdepth
  have hends := readStatements_suffices hlevels
    ((Context.ofSettings settings source.toList).withLimit depth)
    Grammar.standard_stopsAtMark ⟨[], body, Token.endMark stop, #[]⟩ rfl (Nat.le_refl _)
  cases hrun : readStatements ((Context.ofSettings settings source.toList).withLimit depth) depth
      ⟨[], body, Token.endMark stop, #[]⟩ with
  | ok statements later => simp [hrun, outcome] at herror
  | error found later =>
      rw [hrun] at hends herror
      cases herror
      exact hends.1 limit

open Classical in
/-- Every source has a threshold of nesting. Below it, reading fails with the nesting error; from it
on, the outcome is always the same and no nesting error. -/
theorem parse_threshold (htokens : Token.tokenize settings source = .ok tokens) :
    ∃ threshold, threshold ≤ tokens.length + 1 ∧
      (∀ depth, depth < threshold →
        ∃ error, parse { settings with maxDepth := depth } source = .error error ∧
          error.cause = .recursionLimit depth ∧ error.fatal = true) ∧
      ∃ result,
        (∀ depth, threshold ≤ depth →
          parse { settings with maxDepth := depth } source = result) ∧
        ∀ error, result = .error error → ∀ limit, error.cause ≠ .recursionLimit limit := by
  let exhausted (depth : Nat) : Prop :=
    ∃ error, parse { settings with maxDepth := depth } source = .error error ∧
      error.IsLimit depth
  have henough : ¬ exhausted (tokens.length + 1) := by
    rintro ⟨error, herror, hcause, _⟩
    exact parse_ne_limit htokens (Nat.le_refl _) herror _ hcause
  have hexists : ∃ depth, ¬ exhausted depth := ⟨_, henough⟩
  have hsame : ∀ depth, Nat.find hexists ≤ depth →
      parse { settings with maxDepth := Nat.find hexists } source =
        parse { settings with maxDepth := depth } source := by
    intro depth hle
    exact (parse_agrees htokens hle).resolve_left (Nat.find_spec hexists)
  refine ⟨Nat.find hexists, Nat.find_min' hexists henough, ?_, _, fun depth hle =>
    (hsame depth hle).symm, ?_⟩
  · intro depth hlt
    exact not_not.1 (Nat.find_min hexists hlt)
  · intro error herror limit
    rw [hsame _ (Nat.find_min' hexists henough)] at herror
    exact parse_ne_limit htokens (Nat.le_refl _) herror limit

/-- The threshold of `x=-`, which opens a level for the statement, its expression, the assignment,
the value and the operand that is missing. -/
theorem parse_threshold_missing_operand :
    Token.tokenize {} "x=-" = .ok [⟨.identifier, "x", ⟨0, 1⟩⟩, ⟨.symbol, "=", ⟨1, 2⟩⟩,
      ⟨.symbol, "-", ⟨2, 3⟩⟩, Token.endMark 3] ∧
    ∃ threshold, threshold ≤ 5 ∧
      (∀ depth, depth < threshold → ∃ error, parse ⟨depth, true⟩ "x=-" = .error error ∧
        error.cause = .recursionLimit depth ∧ error.fatal = true) ∧
      ∃ result, (∀ depth, threshold ≤ depth → parse ⟨depth, true⟩ "x=-" = result) ∧
        ∀ error, result = .error error → ∀ limit, error.cause ≠ .recursionLimit limit := by
  have htokens : Token.tokenize {} "x=-" = .ok [⟨.identifier, "x", ⟨0, 1⟩⟩,
      ⟨.symbol, "=", ⟨1, 2⟩⟩, ⟨.symbol, "-", ⟨2, 3⟩⟩, Token.endMark 3] := by cbv
  exact ⟨htokens, parse_threshold htokens⟩

end ScriptLint.Program
