import Mathlib
import ScriptLint.Analysis
import ScriptLint.Proofs.Placement.Program
import ScriptLint.Proofs.Reporting.Places
import ScriptLint.Proofs.Sequence.Program
import ScriptLint.Proofs.Text.Lines
import ScriptLint.Proofs.Typing.Parts

/-!
# Positions of diagnostics

`analyze_usable` is the main result on positions. Whatever the source, all that is reported of it
stands inside it, with both ends between characters, so that it can be cut out and shown. What is
said of a missing semicolon stays in one line, from the end of a token to the end of that line.
-/

namespace ScriptLint

namespace Span

/-- The span lies in the source, and its ends fall between characters. -/
structure Usable (source : List Char) (span : Span) : Prop where
  ordered : span.start ≤ span.stop
  inside : span.stop ≤ Text.byteLength source
  starts : Text.IsBoundary source span.start
  stops : Text.IsBoundary source span.stop

/-- The span runs from its start to the next line feed, or to the end of the source if there is
none. -/
def RestOfLine (source : List Char) (span : Span) : Prop :=
  ∃ front line back, source = front ++ (line ++ back) ∧ '\n' ∉ line ∧
    (∀ c ∈ back.head?, c = '\n') ∧
    span = ⟨Text.byteLength front, Text.byteLength front + Text.byteLength line⟩

variable {source : List Char} {span : Span}

/-- A span between two boundaries can be cut out. -/
theorem Usable.of_boundaries (hordered : span.start ≤ span.stop)
    (hstart : Text.IsBoundary source span.start) (hstop : Text.IsBoundary source span.stop) :
    span.Usable source :=
  ⟨hordered, hstop.le, hstart, hstop⟩

/-- The span of a part of the source. -/
theorem usable_middle (front text back : List Char) :
    Usable (front ++ (text ++ back))
      ⟨Text.byteLength front, Text.byteLength front + Text.byteLength text⟩ :=
  .of_boundaries (Nat.le_add_right _ _) ⟨front, text ++ back, rfl, rfl⟩
    ⟨front ++ text, back, (List.append_assoc front text back).symm, Text.byteLength_append _ _⟩

/-- The rest of a line can be cut out. -/
theorem RestOfLine.usable (h : span.RestOfLine source) : span.Usable source := by
  obtain ⟨front, line, back, rfl, -, -, rfl⟩ := h
  exact usable_middle front line back

/-- The two ends of what is left of a line have the same line number. -/
theorem RestOfLine.lineAt_eq (h : span.RestOfLine source) :
    (Text.lineAt source span.start).line = (Text.lineAt source span.stop).line := by
  obtain ⟨front, line, back, rfl, hline, -, rfl⟩ := h
  have hstop := Text.lineAt_line (front ++ line) back
  rw [Text.byteLength_append, List.append_assoc, List.count_append,
    List.count_eq_zero_of_not_mem hline, Nat.add_zero] at hstop
  exact (Text.lineAt_line front (line ++ back)).trans hstop.symm

/-- Behind a boundary the line goes on up to its end. -/
theorem restOfLine_lineEnd {offset : Nat} (h : Text.IsBoundary source offset) :
    RestOfLine source ⟨offset, Text.lineEnd source offset⟩ := by
  obtain ⟨front, rest, rfl, rfl⟩ := h
  refine ⟨front, rest.takeWhile (· != '\n'), rest.dropWhile (· != '\n'), ?_, ?_, ?_, ?_⟩
  · rw [List.takeWhile_append_dropWhile]
  · exact fun hmem => absurd (List.mem_takeWhile_imp hmem) (by simp)
  · intro c hc
    have hnot := List.head?_dropWhile_not (· != '\n') rest
    rw [Option.mem_def.1 hc] at hnot
    simpa using hnot
  · rw [Text.lineEnd_append]

end Span

/-! ## Places of errors -/

/-- The scanner reports a part of the text that it is given. -/
theorem Token.scan_error_usable {fold : Bool} {offset : Nat} {text front : List Char}
    {error : Error} (h : Token.scan fold offset text = .error error)
    (hoffset : Text.byteLength front = offset) :
    error.cause ≠ .missingSemicolon ∧ error.span.Usable (front ++ text) := by
  fun_induction Token.scan fold offset text generalizing front error with
  | case1 => cases h
  | case2 offset c rest lexeme stop =>
      rename_i hpiece ih
      have hwhole : lexeme.text ++ lexeme.rest = c :: rest := Lexeme.text_append_rest fold c rest
      have hlater := @ih (front ++ lexeme.text) error h (by rw [Text.byteLength_append, hoffset])
      rwa [List.append_assoc, hwhole] at hlater
  | case3 offset c rest lexeme stop kind value =>
      rename_i hpiece ih
      have hwhole : lexeme.text ++ lexeme.rest = c :: rest := Lexeme.text_append_rest fold c rest
      have hlater := @ih (front ++ lexeme.text) error (Token.of_map_error h)
        (by rw [Text.byteLength_append, hoffset])
      rwa [List.append_assoc, hwhole] at hlater
  | case4 offset c rest lexeme =>
      have hwhole : lexeme.text ++ lexeme.rest = c :: rest := Lexeme.text_append_rest fold c rest
      cases h
      rw [← hwhole, ← hoffset]
      exact ⟨by simp [Token.unterminated, Error.ofCause],
        Span.usable_middle front lexeme.text lexeme.rest⟩

namespace Tokenized

variable {T : Tokenized}

/-- The tokens cover parts of the source, and the mark stands at its end. -/
structure Covers (T : Tokenized) : Prop where
  tokens : ∀ token ∈ T.tokens, token.Covers T.source
  mark : T.mark.span = ⟨Text.byteLength T.source, Text.byteLength T.source⟩

/-- A node over the tokens can be cut out of the source. -/
theorem Covers.usable_of_sits (h : T.Covers) {node : Node} (hnode : node.Sits T.tokens) :
    node.span.Usable T.source := by
  have hplaced := hnode.placed
  obtain ⟨first, hfirst, hstart⟩ := hplaced.starts
  obtain ⟨last, hlast, hstop⟩ := hplaced.stops
  have hleft := (h.tokens first hfirst).isBoundary_start
  have hright := (h.tokens last hlast).isBoundary_stop
  rw [hstart] at hleft
  rw [hstop] at hright
  exact .of_boundaries (Nat.le_of_lt hplaced.nonempty) hleft hright

/-- Errors stand at places that can be shown. -/
theorem Covers.usable_of_locates (h : T.Covers) {cause : Cause} {span : Span}
    (hlocates : T.Locates cause span) : span.Usable T.source := by
  cases hlocates with
  | node _ hnode => exact h.usable_of_sits hnode
  | mark =>
      rw [h.mark]
      simpa using Span.usable_middle T.source [] []
  | restOfLine hmem => exact (Span.restOfLine_lineEnd (h.tokens _ hmem).isBoundary_stop).usable

/-- A missing semicolon is reported from the end of a token to the end of the line. -/
theorem Covers.restOfLine_of_locates (h : T.Covers) {span : Span}
    (hlocates : T.Locates .missingSemicolon span) :
    (∃ token ∈ T.tokens, token.span.stop = span.start) ∧ span.RestOfLine T.source := by
  cases hlocates with
  | node hcause => exact absurd rfl hcause
  | mark hcause => exact absurd rfl hcause
  | restOfLine hmem =>
      exact ⟨⟨_, hmem, rfl⟩, Span.restOfLine_lineEnd (h.tokens _ hmem).isBoundary_stop⟩

end Tokenized

/-- No other cause has the wording of a missing semicolon. -/
theorem Cause.eq_missingSemicolon {cause : Cause}
    (h : cause.message = Cause.missingSemicolon.message) : cause = .missingSemicolon := by
  -- The wordings are told apart by their first characters, all but one.
  have hother (c : Char) (hc : c ≠ 'm') (hfirst : cause.message.toList.head? = some c) :
      cause = .missingSemicolon := by
    rw [h, show Cause.missingSemicolon.message.toList.head? = some 'm' by decide] at hfirst
    exact absurd (Option.some.inj hfirst).symm hc
  open Text (head?_append) in
  cases cause with
  | missingSemicolon => rfl
  | duplicateDefault => exact absurd h (by decide)
  | invalidAssignmentTarget => exact hother 'i' (by decide) (by decide)
  | unterminatedString start => exact hother 'u' (by decide) (head?_append (by decide) _)
  | recursionLimit limit => exact hother 'n' (by decide) (head?_append (by decide) _)
  | unexpectedToken token =>
      exact hother 'u' (by decide) (head?_append (head?_append (by decide) _) _)
  | variableAlreadyDeclared name =>
      exact hother 'v' (by decide) (head?_append (head?_append (by decide) _) _)
  | staticReassignment name =>
      exact hother 'c' (by decide) (head?_append (head?_append (by decide) _) _)
  | unexpectedTokenDetailed token detail =>
      have htoken := head?_append
        (show "unexpected token `".toList.head? = some 'u' by decide) token
      exact hother 'u' (by decide) (head?_append (head?_append htoken _) _)
  | expectedToken expected found =>
      have htoken := head?_append (show "expected `".toList.head? = some 'e' by decide) expected
      exact hother 'e' (by decide) (head?_append (head?_append (head?_append htoken _) _) _)
  | typeMismatch name expected received =>
      have hname := head?_append (show "types do not match for '".toList.head? = some 't' by decide)
        name
      have htype := head?_append (head?_append hname "': expected '") expected
      exact hother 't' (by decide) (head?_append (head?_append (head?_append htype _) _) _)

/-! ## Sources -/

namespace Program

variable {settings : Settings} {source : String} {body : List Token}

/-- A source with the tokens that were found in it. -/
def tokenized (source : String) (body : List Token) : Tokenized :=
  ⟨source.toList, body, Token.endMark (Text.byteLength source.toList)⟩

variable (htokens : Token.tokenize settings source =
  .ok (body ++ [Token.endMark (Text.byteLength source.toList)]))
  (hbody : ∀ token ∈ body, token.kind ≠ .eof)

include htokens hbody

omit htokens in
/-- The tokens without the mark are those in front of it. -/
theorem filter_eq_body : (body ++ [Token.endMark (Text.byteLength source.toList)]).filter
    (·.kind != .eof) = body := by
  rw [List.filter_append, List.filter_eq_self.2 (by simpa using hbody)]
  simp [Token.endMark]

/-- The tokens that were found cover parts of the source. -/
theorem tokenized_covers : (tokenized source body).Covers := by
  refine ⟨fun token htoken => ?_, rfl⟩
  exact (Token.tokenize_places htokens).1 token (List.mem_append_left _ htoken) (hbody token htoken)

/-- The reading of a source starts over all of its tokens. -/
theorem admits_start : (tokenized source body).Admits
    ⟨[], body, Token.endMark (Text.byteLength source.toList), #[]⟩ := by
  have hinorder := (Token.tokenize_places htokens).2
  rw [filter_eq_body hbody] at hinorder
  exact ⟨⟨rfl, rfl, hinorder⟩, rfl⟩

/-- Reading a source reports nothing but at the places of errors. -/
theorem outcome_start :
    (@RunLogic.locating (tokenized source body) (.ofSettings settings source.toList) rfl).Outcome
      (.Collected Stmt.Accounts.free.stmt)
      ⟨[], body, Token.endMark (Text.byteLength source.toList), #[]⟩
      (readStatements (.ofSettings settings source.toList) settings.maxDepth
        ⟨[], body, Token.endMark (Text.byteLength source.toList), #[]⟩) :=
  readStatements_reports rfl rfl settings.maxDepth (admits_start htokens hbody) trivial

/-- A source that cannot be read has its error at one of these places. -/
theorem locates_of_parse_error {error : Error} (h : parse settings source = .error error) :
    (tokenized source body).Locates error.cause error.span := by
  have houtcome := outcome_start htokens hbody
  rw [parse_of_tokens htokens] at h
  cases hrun : readStatements (.ofSettings settings source.toList) settings.maxDepth
      ⟨[], body, Token.endMark (Text.byteLength source.toList), #[]⟩ with
  | ok stmts later => simp [hrun, outcome] at h
  | error failure later =>
      rw [hrun] at h houtcome
      cases h
      exact houtcome.2

/-- The errors that were recovered from stand at these places. -/
theorem holds_of_parse {parsed : Parsed} (h : parse settings source = .ok parsed) :
    ∀ report ∈ parsed.errors, (tokenized source body).Holds report := by
  have houtcome := outcome_start htokens hbody
  rw [parse_of_tokens htokens] at h
  cases hrun : readStatements (.ofSettings settings source.toList) settings.maxDepth
      ⟨[], body, Token.endMark (Text.byteLength source.toList), #[]⟩ with
  | error error later => simp [hrun, outcome] at h
  | ok stmts later =>
      rw [hrun] at h houtcome
      cases h
      obtain ⟨passed, reports, ⟨hgoes, hreports⟩, -⟩ := houtcome
      intro report hreport
      rw [Array.mem_toList_iff, hgoes.errors, Array.empty_append] at hreport
      exact hreports report hreport

/-- The statements are nodes over the tokens. -/
theorem sits_of_parse {parsed : Parsed} (h : parse settings source = .ok parsed) :
    ∀ stmt ∈ parsed.program.statements, (Node.stmt stmt).Sits body := by
  obtain ⟨tokens, hfound, hsits, -⟩ := exists_sits_of_parse h
  cases htokens.symm.trans hfound
  rwa [filter_eq_body hbody] at hsits

/-- Every diagnostic of a source that is read words a cause at one of its places. -/
theorem locates_of_mem_diagnostics {parsed : Parsed} (h : parse settings source = .ok parsed)
    {diagnostic : Diagnostic} (hmem : diagnostic ∈ parsed.diagnostics) :
    ∃ cause, (tokenized source body).Locates cause diagnostic.span ∧
      diagnostic.message = cause.message := by
  have hsits := sits_of_parse htokens hbody h
  rcases List.mem_append.1 hmem with hreported | hchecked
  · obtain ⟨report, hreport, rfl⟩ := List.mem_map.1 hreported
    exact holds_of_parse htokens hbody h report hreport
  · obtain ⟨cause, hfault, stmt, hstmt, part, hpart, rfl⟩ := exists_part_of_mem_check hchecked
    have hcause : cause ≠ .missingSemicolon := by
      rintro rfl
      cases hfault
    exact ⟨cause, .node hcause fun inner hinner => hsits stmt hstmt inner (hpart.trans hinner), rfl⟩

end Program

/-- What a message says at a span of a source can be shown there. A missing semicolon is shown in
one line, from the end of a token to the end of the line. -/
structure Shown (settings : Settings) (source message : String) (span : Span) : Prop where
  usable : span.Usable source.toList
  behind_token : message = Cause.missingSemicolon.message →
    ∃ tokens, Token.tokenize settings source = .ok tokens ∧ ∃ token ∈ tokens,
      token.kind ≠ .eof ∧ token.span.stop = span.start
  to_line_end : message = Cause.missingSemicolon.message → span.RestOfLine source.toList
  in_one_line : message = Cause.missingSemicolon.message →
    (Text.lineAt source.toList span.start).line = (Text.lineAt source.toList span.stop).line

/-- What is located among the tokens can be shown in the source. -/
theorem Program.shown_of_locates {settings : Settings} {source : String} {body : List Token}
    (htokens : Token.tokenize settings source =
      .ok (body ++ [Token.endMark (Text.byteLength source.toList)]))
    (hbody : ∀ token ∈ body, token.kind ≠ .eof) {cause : Cause} {span : Span}
    (h : (tokenized source body).Locates cause span) :
    Shown settings source cause.message span := by
  have hcovers := tokenized_covers htokens hbody
  have hsemicolon : cause.message = Cause.missingSemicolon.message →
      (∃ token ∈ body, token.span.stop = span.start) ∧ span.RestOfLine source.toList := by
    intro hmessage
    cases Cause.eq_missingSemicolon hmessage
    exact hcovers.restOfLine_of_locates h
  refine ⟨hcovers.usable_of_locates h, fun hmessage => ?_, fun hmessage => ?_, fun hmessage => ?_⟩
  · obtain ⟨⟨token, hmem, hstop⟩, -⟩ := hsemicolon hmessage
    exact ⟨_, htokens, token, List.mem_append_left _ hmem, hbody token hmem, hstop⟩
  · exact (hsemicolon hmessage).2
  · exact (hsemicolon hmessage).2.lineAt_eq

theorem analyze_error_iff {settings : Settings} {source : String} {error : Error} :
    analyze settings source = .error error ↔ Program.parse settings source = .error error := by
  unfold analyze
  cases Program.parse settings source <;> simp [Except.map]

theorem analyze_ok_iff {settings : Settings} {source : String} {diagnostics : List Diagnostic} :
    analyze settings source = .ok diagnostics ↔
      ∃ parsed, Program.parse settings source = .ok parsed ∧ parsed.diagnostics = diagnostics := by
  unfold analyze
  cases Program.parse settings source <;> simp [Except.map]

/-- All that is reported of a source can be shown in it: the error that ends its reading, or else
every diagnostic of it. -/
theorem analyze_usable (settings : Settings) (source : String) :
    (∀ error : Error, analyze settings source = .error error →
      Shown settings source error.message error.span) ∧
    ∀ diagnostics : List Diagnostic, analyze settings source = .ok diagnostics →
      ∀ diagnostic ∈ diagnostics, Shown settings source diagnostic.message diagnostic.span := by
  cases htokens : Token.tokenize settings source with
  | error failure =>
      have hparse := Program.parse_of_error htokens
      obtain ⟨hcause, husable⟩ := @Token.scan_error_usable _ _ _ [] _ htokens rfl
      have hwording : failure.message ≠ Cause.missingSemicolon.message :=
        fun hmessage => hcause (Cause.eq_missingSemicolon hmessage)
      constructor
      · intro error herror
        obtain rfl : failure = error := Except.error.inj (hparse.symm.trans
          (analyze_error_iff.1 herror))
        exact ⟨husable, fun h => absurd h hwording, fun h => absurd h hwording,
          fun h => absurd h hwording⟩
      · intro diagnostics hdiagnostics
        obtain ⟨parsed, hparsed, -⟩ := analyze_ok_iff.1 hdiagnostics
        cases hparse.symm.trans hparsed
  | ok tokens =>
      obtain ⟨body, rfl, hplaces⟩ := Token.tokenize_mark htokens
      have hbody : ∀ token ∈ body, token.kind ≠ .eof := fun token hmem => (hplaces token hmem).1
      constructor
      · intro error herror
        have hlocates := Program.locates_of_parse_error htokens hbody (analyze_error_iff.1 herror)
        exact Program.shown_of_locates htokens hbody hlocates
      · intro diagnostics hdiagnostics diagnostic hmem
        obtain ⟨parsed, hparsed, rfl⟩ := analyze_ok_iff.1 hdiagnostics
        obtain ⟨cause, hlocates, hmessage⟩ :=
          Program.locates_of_mem_diagnostics htokens hbody hparsed hmem
        rw [hmessage]
        exact Program.shown_of_locates htokens hbody hlocates

/-- The semicolon is missing behind a string with a character of two bytes, and in front of a
comment, which is part of the line. A string that is never closed is the error of its source. -/
theorem analyze_usable_comment :
    analyze ⟨4, true⟩ "var x='\u00e9' //\n" =
        .ok [⟨⟨10, 13⟩, Cause.missingSemicolon.message, .error⟩] ∧
      Shown ⟨4, true⟩ "var x='\u00e9' //\n" Cause.missingSemicolon.message ⟨10, 13⟩ ∧
      analyze ⟨4, true⟩ "\u00e9'" = .error ⟨.unterminatedString 2, ⟨2, 3⟩, true⟩ ∧
      Shown ⟨4, true⟩ "\u00e9'" (Cause.unterminatedString 2).message ⟨2, 3⟩ := by
  have hread : analyze ⟨4, true⟩ "var x='\u00e9' //\n" =
      .ok [⟨⟨10, 13⟩, Cause.missingSemicolon.message, .error⟩] := by decide +kernel
  have hrefused : analyze ⟨4, true⟩ "\u00e9'" =
      .error ⟨.unterminatedString 2, ⟨2, 3⟩, true⟩ := by decide +kernel
  exact ⟨hread, (analyze_usable _ _).2 _ hread _ List.mem_cons_self, hrefused,
    (analyze_usable _ _).1 _ hrefused⟩

end ScriptLint
