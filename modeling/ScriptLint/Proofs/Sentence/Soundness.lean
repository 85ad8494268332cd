import ScriptLint.Proofs.Run.Statements

/-!
# Statements that are read without error are sentences

If a statement is read and no error is recorded, the tokens that were passed derive it. This is an
account that goes from the statements inside a form to the whole: where nothing was recorded nothing
was recovered from, so each part of the form is derived from its tokens.
-/

namespace ScriptLint

/-- Where no error is recorded, the tokens derive what is read from them. -/
def Sentence.accounts (sourceText : Span → String) : Stmt.Accounts where
  stmt tokens reports stmt := reports = #[] → Sentence sourceText tokens stmt
  conditional text tokens reports stmt := reports = #[] → Conditional sourceText text tokens stmt

variable {sourceText : Span → String} {tokens : List Token} {reports : Array ParseError}

namespace Stmt.Accounts

/-- Braces with no error between them. -/
theorem Braced.derived {content : Block Stmt}
    (h : (Sentence.accounts sourceText).Braced tokens reports content) (hquiet : reports = #[]) :
    ScriptLint.Braced sourceText tokens content := by
  obtain ⟨hopening, hbody, hclosing, htokens⟩ := h
  exact .mk hopening (hbody.of_quiet .nil .cons id hquiet) hclosing htokens

/-- What follows a consequent, with no error in it. -/
theorem Alternate.derived {alternate : Option Stmt}
    (h : (Sentence.accounts sourceText).Alternate tokens reports alternate)
    (hquiet : reports = #[]) : ScriptLint.Alternate sourceText tokens alternate := by
  cases h with
  | none => exact .none
  | block hkeyword hbraced => exact .block hkeyword (hbraced.derived hquiet)
  | elseIf hkeyword hconditional => exact .elseIf hkeyword (hconditional hquiet)
  | elif hconditional => exact .elif (hconditional hquiet)

/-- A handler with no error in it. -/
theorem Handler.derived {handler : Option (CatchClause Stmt)}
    (h : (Sentence.accounts sourceText).Handler tokens reports handler) (hquiet : reports = #[]) :
    ScriptLint.Handler sourceText tokens handler := by
  cases h with
  | none => exact .none
  | some hkeyword hopening hname hclosing hbody htokens =>
      exact .some hkeyword hopening hname hclosing (hbody.derived hquiet) htokens

/-- A closing part with no error in it. -/
theorem Finalizer.derived {finalizer : Option (FinallyClause Stmt)}
    (h : (Sentence.accounts sourceText).Finalizer tokens reports finalizer)
    (hquiet : reports = #[]) : ScriptLint.Finalizer sourceText tokens finalizer := by
  cases h with
  | none => exact .none
  | some hkeyword hbody htokens => exact .some hkeyword (hbody.derived hquiet) htokens

/-- An arm with no error in it. -/
theorem Arm.derived {arm : MatchArm}
    (h : (Sentence.accounts sourceText).Arm sourceText tokens reports arm)
    (hquiet : reports = #[]) : ScriptLint.Arm sourceText tokens arm := by
  cases h with
  | test hkeyword htest harrow hconsequent htokens =>
      exact .test hkeyword htest harrow (hconsequent hquiet) htokens
  | otherwise hkeyword harrow hbody => exact .otherwise hkeyword harrow (hbody hquiet)

end Stmt.Accounts

/-- The grammar goes from the statements inside a form to the whole. -/
theorem Sentence.accounts_closed (sourceText : Span → String) :
    (Sentence.accounts sourceText).Closed sourceText where
  conditional := by
    rintro _ _ _ _ ⟨hkeyword, htest, hconsequent, halternate, htokens⟩ hquiet
    obtain ⟨hfirst, hrest⟩ := Array.append_eq_empty_iff.1 hquiet
    exact .mk hkeyword htest (hconsequent.derived hfirst) (halternate.derived hrest) htokens
  stmt := by
    intro tokens reports stmt hform hquiet
    cases hform with
    | block hbraced => exact .block (hbraced.derived hquiet)
    | varDecl hdecl hsemicolon htokens => exact .varDecl hdecl hsemicolon htokens
    | openVarDecl => cases hquiet
    | conditional hconditional => exact .conditional (hconditional hquiet)
    | whileLoop hkeyword htest hbody htokens =>
        exact .whileLoop hkeyword htest (hbody.derived hquiet) htokens
    | doWhile hkeyword hbody hmiddle htest hending htokens =>
        exact .doWhile hkeyword (hbody.derived hquiet) hmiddle htest hending htokens
    | forLoop hkeyword hheader hbody htokens =>
        exact .forLoop hkeyword hheader (hbody.derived hquiet) htokens
    | functionDecl hkeyword hheader hbody htokens =>
        exact .functionDecl hkeyword hheader (hbody.derived hquiet) htokens
    | classDecl hkeyword hname hbody htokens =>
        exact .classDecl hkeyword hname (hbody.derived hquiet) htokens
    | returnValue hkeyword hvalue hsemicolon htokens =>
        exact .returnValue hkeyword hvalue hsemicolon htokens
    | throwValue hkeyword hvalue hsemicolon htokens =>
        exact .throwValue hkeyword hvalue hsemicolon htokens
    | breakLoop hkeyword hsemicolon => exact .breakLoop hkeyword hsemicolon
    | continueLoop hkeyword hsemicolon => exact .continueLoop hkeyword hsemicolon
    | matchOn hkeyword hcondition hopening harms hclosing htokens =>
        obtain ⟨harms, hcount⟩ := harms
        have harms := harms.of_quiet Arms.nil Arms.cons (fun harm => harm.derived) hquiet
        exact .matchOn hkeyword hcondition hopening harms hcount hclosing htokens
    | tryCatch hkeyword hbody hhandler hfinalizer htokens =>
        obtain ⟨hfirst, hrest⟩ := Array.append_eq_empty_iff.1 hquiet
        obtain ⟨hsecond, hthird⟩ := Array.append_eq_empty_iff.1 hrest
        exact .tryCatch hkeyword (hbody.derived hfirst) (hhandler.derived hsecond)
          (hfinalizer.derived hthird) htokens
    | retry hkeyword hcount hbody hhandler htokens =>
        obtain ⟨hfirst, hrest⟩ := Array.append_eq_empty_iff.1 hquiet
        exact .retry hkeyword hcount (hbody.derived hfirst) (hhandler.derived hrest) htokens
    | expression hkind hphrase hsemicolon htokens =>
        exact .expression hkind hphrase hsemicolon htokens

/-- The statements of a program that are read without error are derived from all its tokens. -/
theorem Program.readStatements_clean {levels : Nat} {context : Context}
    (hgrammar : context.grammar = .standard) {reading later : Reading} {statements : List Stmt}
    (hclean : reading.Clean) (herrors : later.errors = #[])
    (h : Program.readStatements context levels reading = .ok statements later) :
    Sentences context.sourceText reading.ahead statements := by
  obtain ⟨reports, hreports, hcollected⟩ :=
    readStatements_collected hgrammar (Sentence.accounts_closed context.sourceText) h hclean.1
  rw [hreports, hclean.2, Array.empty_append] at herrors
  exact hcollected.of_quiet .nil .cons id herrors

end ScriptLint
