import ScriptLint.Proofs.Nesting.Threshold
import ScriptLint.Proofs.Run.Expressions
import ScriptLint.Proofs.Run.Forms
import ScriptLint.Proofs.Session.Rounds

/-!
# Runs over statements

Each reader of the grammar is taken through the rules of the logic once. What it gives has one of
the forms of `Stmt.Accounts.Form`, and what it raises or records is what the logic lets it. An
induction on the levels that may still be opened does the rest: whatever the logic, and whatever
account goes from the statements inside a form to the whole, all statements of a program are read in
accordance with it.
-/

namespace ScriptLint

open RunLogic

variable {context : Context} {L : RunLogic context} {A : Stmt.Accounts}
  {sourceText : Span → String} {expr : Read Expr} {stmt : Read (Option Stmt)}

/-! ## Parts without statements -/

section Parts

variable (hexpr : L.Judges (.Quiet (Phrase sourceText .assign)) expr)

include hexpr

/-- An expression in parentheses is a condition. -/
theorem Stmt.readCondition_judges :
    L.Judges (.Quiet (Condition sourceText)) (Stmt.readCondition expr) := by
  refine .begin (.expect fun opening hopening => ?_)
  refine .quiet hexpr fun inside test hphrase => ?_
  refine .expect fun closing hclosing => ?_
  exact .give (by simp) rfl ⟨rfl, .mk hopening hphrase hclosing⟩

/-- An expression is read unless its closing token is there. -/
theorem Stmt.readUnless_judges (close : String) :
    L.Judges (.Quiet (OptionalPhrase sourceText)) (Stmt.readUnless close expr) := by
  refine .begin (.sees (.give rfl rfl ⟨rfl, .none⟩) (.map (.of_judges hexpr) ?_))
  rintro tokens reports value ⟨rfl, hphrase⟩
  exact ⟨rfl, .some hphrase⟩

/-- The value of a jump is an expression or nothing. -/
theorem Stmt.readResult_judges :
    L.Judges (.Quiet (OptionalPhrase sourceText)) (Stmt.readResult expr) := by
  refine .begin (.ask fun semicolon => .ask fun closed => ?_)
  split
  · exact .give rfl rfl ⟨rfl, .none⟩
  · refine .map hexpr ?_
    rintro tokens reports value ⟨rfl, hphrase⟩
    exact ⟨rfl, .some hphrase⟩

/-- A value stands behind `=`, or nothing does. -/
theorem VarDecl.readInitializer_judges :
    L.Judges (.Quiet (Initializer sourceText)) (VarDecl.readInitializer expr) := by
  refine .begin (.accept (fun equals hequals => .map hexpr ?_) (.give rfl rfl ⟨rfl, .none⟩))
  rintro tokens reports value ⟨rfl, hphrase⟩
  exact ⟨rfl, .some hequals hphrase⟩

omit hexpr in
/-- A declaration begins with its keywords. -/
theorem VarDecl.readKeyword_judges :
    L.JudgesAt (·.isAny ["var", "static"] = true)
      (.Quiet fun tokens opening => tokens.head? = some opening ∧
        DeclarationKeyword tokens (opening.is "static")) VarDecl.readKeyword := by
  have hspelled : ∀ token : Token, token.isAny ["var", "static"] = true → token.kind ≠ .eof := by
    intro token hany
    obtain ⟨text, -, his⟩ := List.any_eq_true.1 hany
    exact Token.kind_ne_eof_of_is his
  refine .begin (.token hspelled fun opening hopening => ?_)
  split
  next hstatic =>
      refine .expect fun keyword hvar => .give rfl rfl ⟨rfl, rfl, ?_⟩
      rw [hstatic]
      exact .static hstatic hvar
  next hstatic =>
      have hvar : opening.is "var" = true := by simpa [Token.isAny, hstatic] using hopening
      rw [Bool.not_eq_true] at hstatic
      refine .give rfl rfl ⟨rfl, rfl, ?_⟩
      rw [hstatic]
      exact .plain hvar

omit hexpr in
/-- The type of a declaration is that of a type keyword, or there is none. -/
theorem VarDecl.readType_judges : L.Judges (.Quiet DeclaredType) VarDecl.readType := by
  refine .begin (.look fun token _ => ?_)
  split
  next htype =>
      have hread : L.JudgesAt (· = token) (.Quiet fun tokens ty => DeclaredType tokens (some ty))
          Ty.read := by
        refine .begin (.look fun token hsame => ?_)
        subst hsame
        rw [if_pos htype]
        cases hnames : Ty.ofAnnotation? token.value with
        | none => exact .fail fun _ => trivial
        | some ty =>
            have hkind : ∀ other, other = token → other.kind ≠ .eof := by
              rintro _ rfl hkind
              simp [Token.isTypeKeyword, hkind] at htype
            refine .token hkind fun other hother => ?_
            subst hother
            exact .give rfl rfl ⟨rfl, .some htype hnames⟩
      refine .map hread ?_
      rintro tokens reports ty ⟨rfl, htyped⟩
      exact ⟨rfl, htyped⟩
  next => exact .give rfl rfl ⟨rfl, .none⟩

/-- A declaration up to its semicolon. -/
theorem VarDecl.read_judges :
    L.JudgesAt (·.isAny ["var", "static"] = true) (.Quiet (Declaration sourceText))
      (VarDecl.read expr) := by
  refine .begin (.quiet VarDecl.readKeyword_judges fun keywords opening hkeywords => ?_)
  refine .quiet VarDecl.readType_judges fun types declaredType htype => ?_
  refine .name fun name hname => ?_
  refine .quiet (VarDecl.readInitializer_judges hexpr) fun value initializer hvalue => ?_
  exact .close (by simp [hkeywords.1]) (by simp) rfl
    ⟨rfl, .mk hkeywords.2 htype hname hvalue rfl⟩

/-- The first part of the header of a `for` loop. -/
theorem Stmt.readForInit_judges :
    L.Judges (.Quiet (ForInit sourceText)) (Stmt.readForInit expr) := by
  refine .begin (.look fun token _ => ?_)
  split
  · exact .give rfl rfl ⟨rfl, .none⟩
  split
  next hvar =>
      have hdecl : L.JudgesAt (· = token) (.Quiet (Declaration sourceText)) (VarDecl.read expr) :=
        (VarDecl.read_judges hexpr).imp fun other hother => hother ▸ hvar
      refine .quiet hdecl fun tokens decl hdecl => ?_
      exact .give rfl rfl ⟨rfl, .declaration hdecl⟩
  next =>
      refine .quiet (JudgesAt.headed (.of_judges hexpr)) fun tokens value hvalue => ?_
      obtain ⟨hphrase, hfirst⟩ := hvalue
      obtain ⟨first, rest, rfl, -⟩ := hphrase.starts
      obtain rfl := hfirst first rfl
      exact .close rfl rfl rfl ⟨rfl, .expression hphrase⟩

/-- The header of a `for` loop. -/
theorem Stmt.readForHeader_judges :
    L.Judges (.Quiet (ForHeader sourceText)) (Stmt.readForHeader expr) := by
  refine .begin (.expect fun opening hopening => ?_)
  refine .quiet (Stmt.readForInit_judges hexpr) fun before init hinit => ?_
  refine .expect fun first hfirst => ?_
  refine .quiet (Stmt.readUnless_judges hexpr ";") fun between test htest => ?_
  refine .expect fun second hsecond => ?_
  refine .quiet (Stmt.readUnless_judges hexpr ")") fun behind update hupdate => ?_
  refine .expect fun closing hclosing => ?_
  exact .give (by simp) rfl ⟨rfl, .mk hopening hinit hfirst htest hsecond hupdate hclosing⟩

omit hexpr in
/-- The name and the parameters of a function. -/
theorem Stmt.readFunctionHeader_judges :
    L.Judges (.Quiet FunctionHeader) Stmt.readFunctionHeader := by
  have hparameters : L.Judges (.Quiet fun tokens values => ∃ parameters : List Token,
      (∀ parameter ∈ parameters, parameter.kind = .identifier) ∧
        parameters.map Token.value = values ∧
        Separated (fun parameter => [parameter]) parameters tokens)
      (Read.separated (Read.sees ")")
        (Token.value <$> Read.expectIdentifier "expected parameter name")) := by
    refine judges_of_sound fun reading values later hmark hrun => ?_
    refine Read.separated_sound (fun hstart hitem => ?_) hmark hrun
    obtain ⟨parameter, hparameter, rfl⟩ := Read.map_ok_iff.1 hitem
    obtain ⟨hkind, hpasses⟩ := (Read.expectIdentifier_passes hstart).1 hparameter
    exact ⟨parameter, hkind, rfl, hpasses⟩
  refine .begin (.name fun name hname => .expect fun opening hopening => ?_)
  refine .quiet hparameters fun inside values hvalues => ?_
  obtain ⟨parameters, hkinds, rfl, hseparated⟩ := hvalues
  refine .expect fun closing hclosing => ?_
  exact .give (by simp) rfl ⟨rfl, .mk hname hopening hkinds hseparated hclosing⟩

end Parts

/-! ## Parts with statements -/

section Clauses

variable (hstmt : L.Judges (.Recovered A.stmt) stmt)

include hstmt

/-- Statements between braces. Where a missing brace is fatal, it has to be behind a header. -/
theorem Block.read_judges (fatal : Bool) (hfatal : fatal = true → L.Escalates) :
    L.Judges A.Braced (Block.read fatal stmt) := by
  have hbrace (text : String) :
      L.Judges (.Quiet fun tokens token => tokens = [token] ∧ token.is text = true)
        ((if fatal then Read.fatally else id) (Read.expect text)) := by
    cases fatal with
    | false => exact judges_expect text
    | true => exact (judges_expect text).fatally (hfatal rfl)
  refine .begin (.quiet (hbrace "\x7b") fun tokens opening hopening => ?_)
  obtain ⟨rfl, hopening⟩ := hopening
  refine .andThen (judges_collect hstmt) fun inside reports body hbody => ?_
  refine .quiet (hbrace "\x7d") fun tokens closing hclosing => ?_
  obtain ⟨rfl, hclosing⟩ := hclosing
  exact .close rfl (by simp) (by simp) (.mk hopening hbody hclosing rfl)

/-- A block where a missing brace is not fatal. -/
theorem Block.read_judges_plain : L.Judges A.Braced (Block.read false stmt) :=
  Block.read_judges hstmt false (by simp)

/-- A block that stands as a statement. -/
theorem Stmt.readBlock_judges :
    L.Judges (fun tokens reports result => ∃ content, result = .block content ∧
      A.Braced tokens reports content) (Stmt.readBlock stmt) := by
  refine .begin (.map (Block.read_judges_plain hstmt) fun hbraced => ⟨_, rfl, ?_⟩)
  simpa using hbraced

/-- The handler of a `try` or `retry` statement, if there is one. -/
theorem Stmt.readHandler_judges : L.Judges A.Handler (Stmt.readHandler stmt) := by
  have hclause : L.JudgesAt (·.is "catch" = true)
      (fun tokens reports clause => A.Handler tokens reports (some clause))
      (CatchClause.read stmt) := by
    refine .begin (.keyword fun keyword hkeyword => .expect fun opening hopening => ?_)
    refine .name fun name hname => .expect fun closing hclosing => ?_
    refine .andThen (Block.read_judges_plain hstmt) fun block reports body hbody => ?_
    exact .close rfl (by simp) (by simp) (.some hkeyword hopening hname hclosing hbody rfl)
  refine .begin (.sees (.map hclause fun hhandler => ?_) (.give rfl rfl .none))
  simpa using hhandler

/-- The closing part of a `try` statement, if there is one. -/
theorem Stmt.readFinalizer_judges : L.Judges A.Finalizer (Stmt.readFinalizer stmt) := by
  have hclause : L.JudgesAt (·.is "finally" = true)
      (fun tokens reports clause => A.Finalizer tokens reports (some clause))
      (FinallyClause.read stmt) := by
    refine .begin (.keyword fun keyword hkeyword => ?_)
    refine .andThen (Block.read_judges_plain hstmt) fun block reports body hbody => ?_
    exact .close rfl (by simp) (by simp) (.some hkeyword hbody rfl)
  refine .begin (.sees (.map hclause fun hfinalizer => ?_) (.give rfl rfl .none))
  simpa using hfinalizer

/-- What follows the consequent of a conditional. -/
theorem Stmt.readAlternate_judges {elseIf : Read Stmt}
    (helse : ∀ text, L.JudgesAt (·.is text = true) (A.conditional text) elseIf) :
    L.Judges A.Alternate (Stmt.readAlternate stmt elseIf) := by
  refine .begin (.accept (fun keyword hkeyword => .sees ?_ ?_) (.sees ?_ ?_))
  · refine .map (helse "if") fun hconditional => ?_
    rw [Array.empty_append]
    exact .elseIf hkeyword hconditional
  · refine .map (.of_judges (Stmt.readBlock_judges hstmt)) fun hblock => ?_
    obtain ⟨content, rfl, hbraced⟩ := hblock
    rw [Array.empty_append]
    exact .block hkeyword hbraced
  · refine .map (helse "elif") fun hconditional => ?_
    rw [Array.empty_append]
    exact .elif hconditional
  · exact .give rfl rfl .none

end Clauses

/-! ## Arms -/

section Arms

variable (closed : A.Closed sourceText)

include closed

/-- An arm of a `match` statement. -/
theorem MatchArm.read_judges {single : Read Stmt}
    (hexpr : L.Judges (.Quiet (Phrase sourceText .assign)) expr)
    (hsingle : L.Judges A.stmt single) (hstmt : L.Judges (.Recovered A.stmt) stmt) :
    L.Judges (A.Arm sourceText) (MatchArm.read expr single stmt) := by
  have hbody : L.Judges A.stmt (MatchArm.readBody single stmt) := by
    refine .begin (.sees (.last (.of_judges (Stmt.readBlock_judges hstmt)) fun hblock => ?_)
      (.last (.of_judges hsingle) fun hgood => ?_))
    · obtain ⟨content, rfl, hbraced⟩ := hblock
      rw [Array.empty_append]
      exact closed.stmt (.block hbraced)
    · simpa using hgood
  refine .begin (.sees (.keyword fun keyword hkeyword => ?_)
    (.sees (.keyword fun keyword hkeyword => ?_) ?_))
  · refine .quiet hexpr fun inside test htest => .expect fun arrow harrow => ?_
    refine .andThen hbody fun behind reports consequent hconsequent => ?_
    exact .close rfl (by simp) (by simp) (.test hkeyword htest harrow hconsequent rfl)
  · refine .expect fun arrow harrow => .andThen hbody fun behind reports body hgood => ?_
    exact .give (by simp) (by simp) (.otherwise hkeyword harrow hgood)
  · exact .unexpectedDetailed

omit closed in
/-- The arms that count are collected. A second default arm is recorded at its keyword and dropped
like one that is recovered from. -/
theorem MatchArm.collectFrom_judges {arm : Read (Option MatchArm)}
    (harm : L.Judges (.Recovered (A.Arm sourceText)) arm) (seen : Bool) (bound : Nat) :
    L.Judges (A.Arms sourceText seen) (MatchArm.collectFrom arm seen bound) := by
  induction bound generalizing seen with
  | zero => exact .begin (.give rfl rfl (.mk .nil (Nat.zero_le _)))
  | succ bound ih =>
      refine .begin (.ask fun closed => ?_)
      split
      · exact .give rfl rfl (.mk .nil (Nat.zero_le _))
      refine .andThen harm fun tokens reports found hfound => ?_
      rw [Array.empty_append, List.nil_append]
      cases hfound with
      | lost hlost =>
          refine .last (ih seen) fun harms => ?_
          obtain ⟨harms, hcount⟩ := harms
          exact .mk (.skip tokens hlost harms) hcount
      | @read _ _ found hgood =>
          cases found with
          | test content =>
              refine .andThen (ih seen) fun more others result hresult => ?_
              obtain ⟨harms, hcount⟩ := hresult
              exact .give rfl rfl (.mk (.cons hgood harms) hcount)
          | otherwise body keyword =>
              cases seen with
              | true =>
                  -- The arm has been read, so its keyword is behind.
                  obtain - | ⟨hkeyword, harrow, hbody⟩ := hgood
                  refine .record (fun hadmits hway => ?_) (.last (ih true) fun harms => ?_)
                  · exact L.records_default (L.admits_later hadmits hway.reaches)
                      (hway.1.mem_behind List.mem_cons_self)
                  · obtain ⟨harms, hcount⟩ := harms
                    exact .mk (.skip _ (by simp) harms) hcount
              | false =>
                  refine .andThen (ih true) fun more others result hresult => ?_
                  obtain @⟨_, _, arms, harms, hcount⟩ := hresult
                  -- No default arm behind this one counts, so it is the one that is kept.
                  have hnone : arms.filterMap MatchArm.fallback? = [] :=
                    List.eq_nil_of_length_eq_zero (Nat.le_zero.1 hcount)
                  have hmore : ((MatchArm.otherwise body keyword :: arms).filterMap
                      MatchArm.fallback?).length ≤ 1 := by simp [MatchArm.fallback?, hnone]
                  exact .give rfl rfl (.mk (.cons hgood harms) hmore)

end Arms

/-! ## Statement forms -/

section Forms

variable {elseIf : Read Stmt} (closed : A.Closed sourceText)

include closed

omit closed in
/-- A declaration with its semicolon. A missing one is recorded. -/
theorem Stmt.readVarDecl_judges (closed : A.Closed context.sourceText)
    (hexpr : L.Judges (.Quiet (Phrase context.sourceText .assign)) expr) :
    L.JudgesAt (·.isAny ["var", "static"] = true) A.stmt (Stmt.readVarDecl context expr) := by
  refine .begin (.quiet (VarDecl.read_judges hexpr) fun tokens decl hdecl => ?_)
  obtain ⟨opening, rest, rfl, -, hspan⟩ := hdecl.starts
  have hstart : decl.span.start = opening.span.start := by
    rw [hspan]
    rfl
  refine .accept (fun semicolon hsemicolon => ?_) (.record (fun hadmits hway => ?_) ?_)
  · rw [if_pos rfl, hstart]
    exact .close rfl rfl rfl (closed.stmt (.varDecl hdecl hsemicolon rfl))
  · exact L.records_semicolon hadmits (Reading.goes_empty_iff.1 hway.1) hdecl
  · exact .give rfl rfl (closed.stmt (.openVarDecl hdecl))

/-- A conditional that begins with a given keyword. -/
theorem Stmt.readIfElse_judges (hexpr : L.Judges (.Quiet (Phrase sourceText .assign)) expr)
    (hstmt : L.Judges (.Recovered A.stmt) stmt)
    (helse : ∀ text, L.JudgesAt (·.is text = true) (A.conditional text) elseIf) (text : String) :
    L.JudgesAt (·.is text = true) (A.conditional text) (Stmt.readIfElse expr stmt elseIf) := by
  refine .begin (.keyword fun keyword hkeyword => ?_)
  refine .quiet (Stmt.readCondition_judges hexpr) fun condition test htest => ?_
  refine .andThen (Block.read_judges_plain hstmt) fun block reports consequent hconsequent => ?_
  refine .andThen (Stmt.readAlternate_judges hstmt helse) fun behind others alternate hbehind => ?_
  exact .close rfl (by simp) (by simp)
    (closed.conditional (.mk hkeyword htest hconsequent hbehind rfl))

/-- A loop with its test in front. -/
theorem Stmt.readWhileLoop_judges (hexpr : L.Judges (.Quiet (Phrase sourceText .assign)) expr)
    (hstmt : L.Judges (.Recovered A.stmt) stmt) :
    L.JudgesAt (·.is "while" = true) A.stmt (Stmt.readWhileLoop expr stmt) := by
  refine .begin (.keyword fun keyword hkeyword => ?_)
  refine .quiet (Stmt.readCondition_judges hexpr) fun condition test htest => ?_
  refine .andThen (Block.read_judges_plain hstmt) fun block reports body hbody => ?_
  exact .close rfl (by simp) (by simp) (closed.stmt (.whileLoop hkeyword htest hbody rfl))

/-- A loop with its test behind. -/
theorem Stmt.readDoWhile_judges (hexpr : L.Judges (.Quiet (Phrase sourceText .assign)) expr)
    (hstmt : L.Judges (.Recovered A.stmt) stmt) :
    L.JudgesAt (·.is "do" = true) A.stmt (Stmt.readDoWhile expr stmt) := by
  refine .begin (.keyword fun keyword hkeyword => ?_)
  refine .andThen (Block.read_judges_plain hstmt) fun block reports body hbody => ?_
  refine .expect fun middle hmiddle => ?_
  refine .quiet (Stmt.readCondition_judges hexpr) fun condition test htest => ?_
  refine .accept (fun semicolon hsemicolon => ?_) ?_
  · exact .close rfl (by simp) (by simp) (closed.stmt
      (.doWhile hkeyword hbody hmiddle htest (.inr ⟨semicolon, hsemicolon, rfl⟩) rfl))
  · exact .close rfl (by simp) (by simp) (closed.stmt
      (.doWhile hkeyword hbody hmiddle htest (.inl rfl) rfl))

/-- A `for` loop. Errors in its header are fatal. -/
theorem Stmt.readForLoop_judges (hexpr : L.Judges (.Quiet (Phrase sourceText .assign)) expr)
    (hstmt : L.Judges (.Recovered A.stmt) stmt) :
    L.JudgesAt (·.is "for" = true) A.stmt (Stmt.readForLoop expr stmt) := by
  refine .begin (.keyword fun keyword hkeyword => ?_)
  have hany : keyword.isAny Token.headerKeywords = true :=
    List.any_eq_true.2 ⟨"for", by decide, hkeyword⟩
  have hheader := (Stmt.readForHeader_judges hexpr).inside.fatally L.inside_escalates
  refine .header (by simp) hany hheader fun header reports parts hparts => ?_
  obtain ⟨rfl, hparts⟩ := hparts
  refine .andThen (Block.read_judges_plain hstmt) fun block reports body hbody => ?_
  exact .close rfl (by simp) (by simp) (closed.stmt (.forLoop hkeyword hparts hbody rfl))

/-- A function. Errors in its header and at its braces are fatal. -/
theorem Stmt.readFunctionDecl_judges (hstmt : L.Judges (.Recovered A.stmt) stmt) :
    L.JudgesAt (·.is "function" = true) A.stmt (Stmt.readFunctionDecl stmt) := by
  refine .begin (.keyword fun keyword hkeyword => ?_)
  have hany : keyword.isAny Token.headerKeywords = true :=
    List.any_eq_true.2 ⟨"function", by decide, hkeyword⟩
  have hheader := JudgesAt.fatally L.inside_escalates Stmt.readFunctionHeader_judges
  refine .header (by simp) hany hheader fun header reports parts hparts => ?_
  obtain ⟨rfl, hparts⟩ := hparts
  have hblock := Block.read_judges hstmt.inside true fun _ => L.inside_escalates
  refine .header (by simp) hany hblock fun block reports body hbody => ?_
  exact .close rfl (by simp) (by simp) (closed.stmt (.functionDecl hkeyword hparts hbody rfl))

/-- A class. Errors at its name and at its braces are fatal. -/
theorem Stmt.readClassDecl_judges (hstmt : L.Judges (.Recovered A.stmt) stmt) :
    L.JudgesAt (·.is "class" = true) A.stmt (Stmt.readClassDecl stmt) := by
  refine .begin (.keyword fun keyword hkeyword => ?_)
  have hany : keyword.isAny Token.headerKeywords = true :=
    List.any_eq_true.2 ⟨"class", by decide, hkeyword⟩
  have hname := JudgesAt.fatally L.inside_escalates (judges_expectIdentifier "expected class name")
  refine .header (by simp) hany hname fun tokens reports name hname => ?_
  obtain ⟨rfl, rfl, hname⟩ := hname
  have hblock := Block.read_judges hstmt.inside true fun _ => L.inside_escalates
  refine .header (by simp) hany hblock fun block reports body hbody => ?_
  exact .close rfl (by simp) (by simp) (closed.stmt (.classDecl hkeyword hname hbody rfl))

omit closed in
/-- `return` and `throw` differ in the statement they make. -/
theorem Stmt.readJump_judges (hexpr : L.Judges (.Quiet (Phrase sourceText .assign)) expr)
    {make : Option Expr → Span → Stmt} {text : String}
    (hmake : ∀ {inside : List Token} {keyword semicolon : Token} {value : Option Expr},
      keyword.is text = true → OptionalPhrase sourceText inside value → semicolon.is ";" = true →
      A.stmt (keyword :: (inside ++ [semicolon])) #[]
        (make value (Span.ofTokens (keyword :: (inside ++ [semicolon]))))) :
    L.JudgesAt (·.is text = true) A.stmt (do
      let opening ← Read.advance
      let value ← Stmt.readResult expr
      let _ ← Read.expect ";"
      return make value (← Read.spanFrom opening.span.start)) := by
  refine .begin (.keyword fun keyword hkeyword => ?_)
  refine .quiet (Stmt.readResult_judges hexpr) fun inside value hvalue => ?_
  refine .expect fun semicolon hsemicolon => ?_
  exact .close rfl (by simp) rfl (hmake hkeyword hvalue hsemicolon)

omit closed in
/-- `break` and `continue` differ in the statement they make. -/
theorem Stmt.readWord_judges {make : Span → Stmt} {text : String}
    (hmake : ∀ {keyword semicolon : Token}, keyword.is text = true → semicolon.is ";" = true →
      A.stmt [keyword, semicolon] #[] (make (Span.ofTokens [keyword, semicolon]))) :
    L.JudgesAt (·.is text = true) A.stmt (do
      let opening ← Read.advance
      let _ ← Read.expect ";"
      return make (← Read.spanFrom opening.span.start)) := by
  refine .begin (.keyword fun keyword hkeyword => .expect fun semicolon hsemicolon => ?_)
  exact .close rfl rfl rfl (hmake hkeyword hsemicolon)

/-- A `match` statement. -/
theorem Stmt.readMatch_judges (hexpr : L.Judges (.Quiet (Phrase sourceText .assign)) expr)
    {arm : Read (Option MatchArm)} (harm : L.Judges (.Recovered (A.Arm sourceText)) arm) :
    L.JudgesAt (·.is "match" = true) A.stmt (Stmt.readMatch expr arm) := by
  refine .begin (.keyword fun keyword hkeyword => ?_)
  refine .quiet (Stmt.readCondition_judges hexpr) fun condition discriminant hcondition => ?_
  refine .expect fun opening hopening => ?_
  have harms := JudgesAt.bounded (MatchArm.collectFrom_judges harm false)
  refine .andThen harms fun inside reports found hfound => .expect fun closing hclosing => ?_
  exact .close rfl (by simp) (by simp)
    (closed.stmt (.matchOn hkeyword hcondition hopening hfound hclosing rfl))

/-- A `try` statement. -/
theorem Stmt.readTry_judges (hstmt : L.Judges (.Recovered A.stmt) stmt) :
    L.JudgesAt (·.is "try" = true) A.stmt (Stmt.readTry stmt) := by
  refine .begin (.keyword fun keyword hkeyword => ?_)
  refine .andThen (Block.read_judges_plain hstmt) fun block reports body hbody => ?_
  refine .andThen (Stmt.readHandler_judges hstmt) fun behind others handler hhandler => ?_
  refine .andThen (Stmt.readFinalizer_judges hstmt) fun last final finalizer hfinalizer => ?_
  exact .close rfl (by simp) (by simp [Array.append_assoc])
    (closed.stmt (.tryCatch hkeyword hbody hhandler hfinalizer rfl))

/-- A `retry` statement. -/
theorem Stmt.readRetry_judges (hexpr : L.Judges (.Quiet (Phrase sourceText .assign)) expr)
    (hstmt : L.Judges (.Recovered A.stmt) stmt) :
    L.JudgesAt (·.is "retry" = true) A.stmt (Stmt.readRetry expr stmt) := by
  refine .begin (.keyword fun keyword hkeyword => ?_)
  refine .quiet (Stmt.readCondition_judges hexpr) fun condition count hcount => ?_
  refine .andThen (Block.read_judges_plain hstmt) fun block reports body hbody => ?_
  refine .andThen (Stmt.readHandler_judges hstmt) fun behind others handler hhandler => ?_
  exact .close rfl (by simp) (by simp)
    (closed.stmt (.retry hkeyword hcount hbody hhandler rfl))

/-- A statement without a form is an expression that begins with a name. -/
theorem Stmt.readExpression_judges
    (hexpr : L.Judges (.Quiet (Phrase sourceText .assign)) expr) :
    L.Judges A.stmt (Stmt.readExpression expr) := by
  refine .begin (.look fun token _ => ?_)
  split
  next hkind =>
      refine .quiet (JudgesAt.headed (.of_judges hexpr)) fun tokens value hvalue => ?_
      obtain ⟨hphrase, hfirst⟩ := hvalue
      obtain ⟨name, rest, rfl, -⟩ := hphrase.starts
      obtain rfl := hfirst name rfl
      refine .expect fun semicolon hsemicolon => ?_
      exact .close rfl rfl rfl (closed.stmt (.expression hkind hphrase hsemicolon rfl))
  next => exact .unexpected

end Forms

/-- A statement of a given form. -/
theorem Stmt.readForm_judges {inner : Stmt.Inner} (closed : A.Closed context.sourceText)
    (hexpr : L.Judges (.Quiet (Phrase context.sourceText .assign)) inner.expr)
    (hstmt : L.Judges A.stmt (inner.stmt context))
    (hmatch : L.Judges A.stmt (inner.stmt context.enterMatch))
    (helse : ∀ text, L.JudgesAt (·.is text = true) (A.conditional text) inner.elseIf)
    (form : StmtForm) :
    L.JudgesAt (·.isAny form.keywords = true) A.stmt (Stmt.readForm context inner form) := by
  have hrecovered : L.Judges (.Recovered A.stmt) (inner.recovered context) :=
    hstmt.recovering context
  -- All forms but the declaration of a variable begin with one keyword.
  have single {text : String} (htext : form.keywords = [text])
      (h : L.JudgesAt (·.is text = true) A.stmt (Stmt.readForm context inner form)) :
      L.JudgesAt (·.isAny form.keywords = true) A.stmt (Stmt.readForm context inner form) :=
    h.imp fun token htoken => by simpa [htext, Token.isAny] using htoken
  cases form with
  | block =>
      refine .of_judges ((Stmt.readBlock_judges hrecovered).mono fun hblock => ?_)
      obtain ⟨content, rfl, hbraced⟩ := hblock
      exact closed.stmt (.block hbraced)
  | varDecl => exact Stmt.readVarDecl_judges closed hexpr
  | ifElse =>
      refine single rfl ((Stmt.readIfElse_judges closed hexpr hrecovered helse "if").mono ?_)
      exact fun hconditional => closed.stmt (.conditional hconditional)
  | whileLoop => exact single rfl (Stmt.readWhileLoop_judges closed hexpr hrecovered)
  | doWhile => exact single rfl (Stmt.readDoWhile_judges closed hexpr hrecovered)
  | forLoop => exact single rfl (Stmt.readForLoop_judges closed hexpr hrecovered)
  | functionDecl => exact single rfl (Stmt.readFunctionDecl_judges closed hrecovered)
  | classDecl => exact single rfl (Stmt.readClassDecl_judges closed hrecovered)
  | returnValue =>
      exact single rfl (Stmt.readJump_judges hexpr fun hkeyword hvalue hsemicolon =>
        closed.stmt (.returnValue hkeyword hvalue hsemicolon rfl))
  | throwValue =>
      exact single rfl (Stmt.readJump_judges hexpr fun hkeyword hvalue hsemicolon =>
        closed.stmt (.throwValue hkeyword hvalue hsemicolon rfl))
  | breakLoop =>
      exact single rfl (Stmt.readWord_judges fun hkeyword hsemicolon =>
        closed.stmt (.breakLoop hkeyword hsemicolon))
  | continueLoop =>
      exact single rfl (Stmt.readWord_judges fun hkeyword hsemicolon =>
        closed.stmt (.continueLoop hkeyword hsemicolon))
  | matchOn =>
      have harm := (MatchArm.read_judges closed hexpr hmatch
        (hmatch.recovering context.enterMatch)).recovering context.enterMatch
      exact single rfl (Stmt.readMatch_judges closed hexpr harm)
  | tryCatch => exact single rfl (Stmt.readTry_judges closed hrecovered)
  | retry => exact single rfl (Stmt.readRetry_judges closed hexpr hrecovered)

/-! ## Statements -/

mutual

/-- A statement is read in accordance with the logic, and it has the account. -/
theorem Stmt.read_judges (levels : Nat) {context : Context} (L : RunLogic context)
    (hgrammar : context.grammar = .standard) (closed : A.Closed context.sourceText) :
    L.Judges A.stmt (Stmt.read levels context) := by
  cases levels with
  | zero => exact judges_tooDeep
  | succ levels =>
      have hexpr := Expr.read_judges L hgrammar levels
      have hstmt := Stmt.read_judges levels L hgrammar closed
      -- The reader inside a `match` has other surroundings, and so has its logic.
      have hmatch := Stmt.read_judges levels L.inMatch hgrammar closed
      refine .begin (.look fun token _ => ?_)
      rw [hgrammar]
      cases hform : Grammar.statementOf? token with
      | none =>
          simp only [Grammar.standard, hform]
          exact .last (.of_judges (Stmt.readExpression_judges closed hexpr)) (by simp)
      | some form =>
          simp only [Grammar.standard, hform]
          have helse := Stmt.readElseIf_judges levels L hgrammar closed
          have hread : L.JudgesAt (·.isAny form.keywords = true) A.stmt
              (Stmt.readForm context (Stmt.inner context levels) form) :=
            Stmt.readForm_judges closed hexpr hstmt hmatch helse form
          refine .last (hread.imp ?_) (by simp)
          rintro _ rfl
          exact Grammar.statementOf?_cases hform

/-- A conditional behind `else` is read in accordance with the logic, and it has the account. -/
theorem Stmt.readElseIf_judges (levels : Nat) {context : Context} (L : RunLogic context)
    (hgrammar : context.grammar = .standard) (closed : A.Closed context.sourceText)
    (text : String) :
    L.JudgesAt (·.is text = true) (A.conditional text) (Stmt.readElseIf levels context) := by
  cases levels with
  | zero => exact judges_tooDeep
  | succ levels =>
      have hstmt := (Stmt.read_judges levels L hgrammar closed).recovering context
      exact Stmt.readIfElse_judges closed (Expr.read_judges L hgrammar levels) hstmt
        (Stmt.readElseIf_judges levels L hgrammar closed) text

end

/-! ## Programs -/

namespace Program

/-- All statements of a program are read in accordance with the logic, and those that are not
recovered from have the account. -/
theorem readStatements_judges (L : RunLogic context) (hgrammar : context.grammar = .standard)
    (closed : A.Closed context.sourceText) (levels : Nat) :
    L.Judges (.Collected A.stmt) (readStatements context levels) :=
  judges_collect ((Stmt.read_judges levels L hgrammar closed).recovering context)

/-- Whatever errors were recorded, the statements that were read have the account, over all of the
tokens. -/
theorem readStatements_collected (hgrammar : context.grammar = .standard)
    (closed : A.Closed context.sourceText) {levels : Nat} {reading later : Reading}
    {statements : List Stmt}
    (h : readStatements context levels reading = .ok statements later) (hmark : reading.Marked) :
    ∃ reports, later.errors = reading.errors ++ reports ∧
      Account.Collected A.stmt reading.ahead reports statements := by
  have houtcome := readStatements_judges (.free context) hgrammar closed levels hmark trivial
  rw [h] at houtcome
  obtain ⟨tokens, reports, hway, hcollected⟩ := houtcome
  refine ⟨reports, hway.1.errors, ?_⟩
  rwa [hway.1.ahead, ahead_eq_nil_of_readStatements h, List.append_nil]

/-- The statements of a source that is parsed have the account, over all of its tokens. -/
theorem exists_collected_of_parse {settings : Settings} {source : String} {parsed : Parsed}
    (closed : A.Closed (Context.ofSettings settings source.toList).sourceText)
    (h : parse settings source = .ok parsed) :
    ∃ tokens reports, Token.tokenize settings source = .ok tokens ∧
      Account.Collected A.stmt (tokens.filter (·.kind != .eof)) reports
        parsed.program.statements := by
  obtain ⟨tokens, stop, later, htokens, hrun⟩ := exists_run_of_parse h
  obtain ⟨reports, -, hcollected⟩ := readStatements_collected rfl closed hrun rfl
  exact ⟨tokens, reports, htokens, hcollected⟩

end Program

end ScriptLint
