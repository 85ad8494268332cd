import ScriptLint.Proofs.Placement.Sentences
import ScriptLint.Proofs.Reading.Over

/-!
# Where errors are reported

An error stands at a node that is well placed over the tokens, a single token among them, or at the
end mark. Only a missing semicolon stands between the end of a token and the end of its line. Most
errors stand at the current token. Three do not: the target of an assignment is an expression that
has been read, a missing semicolon stands behind a declaration that has been read, and a second
default arm is blamed on its keyword.
-/

namespace ScriptLint

/-- The tokens of a source, and the mark behind them. -/
structure Tokenized where
  source : List Char
  tokens : List Token
  mark : Token

namespace Tokenized

variable (T : Tokenized)

/-- The places at which an error with a given cause may be reported. -/
inductive Locates : Cause → Span → Prop where
  | node {cause : Cause} {node : Node} : cause ≠ .missingSemicolon → node.Sits T.tokens →
      Locates cause node.span
  | mark {cause : Cause} : cause ≠ .missingSemicolon → Locates cause T.mark.span
  | restOfLine {token : Token} : token ∈ T.tokens →
      Locates .missingSemicolon ⟨token.span.stop, Text.lineEnd T.source token.span.stop⟩

/-- The report words a cause at one of its places. -/
def Holds (report : ParseError) : Prop :=
  ∃ cause, T.Locates cause report.span ∧ report.message = cause.message

/-- The reading goes over the tokens up to the mark. -/
structure Admits (reading : Reading) : Prop extends reading.Over T.tokens where
  mark_eq : reading.mark = T.mark

namespace Admits

variable {T} {reading later : Reading} {passed : List Token}

/-- Further on the reading goes over the same tokens. -/
theorem reaches (h : T.Admits reading) (hreaches : reading.Reaches later) : T.Admits later :=
  ⟨h.toOver.reaches hreaches, hreaches.mark.trans h.mark_eq⟩

/-- Every cause but a missing semicolon may be reported at a token. -/
theorem locates_token (h : T.Admits reading) {token : Token} (hmem : token ∈ T.tokens)
    {cause : Cause} (hcause : cause ≠ .missingSemicolon) : T.Locates cause token.span :=
  .node hcause (h.inOrder.sits hmem)

/-- Every cause but a missing semicolon may be reported at the current token. -/
theorem locates_current (h : T.Admits reading) {cause : Cause}
    (hcause : cause ≠ .missingSemicolon) : T.Locates cause reading.current.span := by
  by_cases hahead : reading.ahead = []
  · have hcurrent : reading.current = T.mark := by simp [Reading.current, hahead, h.mark_eq]
    rw [hcurrent]
    exact .mark hcause
  · exact h.locates_token (h.toOver.current_mem hahead) hcause

/-- Every cause but a missing semicolon may be reported at an expression that has been read. -/
theorem locates_phrase (h : T.Admits reading) (hpasses : reading.Passes passed later)
    {sourceText : Span → String} {level : Level} {expr : Expr}
    (hphrase : Phrase sourceText level passed expr) {cause : Cause}
    (hcause : cause ≠ .missingSemicolon) : T.Locates cause expr.span := by
  have hsits := hphrase.sits (h.toOver.inOrder_of_passes hpasses)
  exact .node hcause (hsits.mono (h.toOver.subset_of_passes hpasses))

/-- A missing semicolon may be reported behind a declaration that has been read. -/
theorem locates_declaration (h : T.Admits reading) (hpasses : reading.Passes passed later)
    {sourceText : Span → String} {decl : VarDecl} (hdecl : Declaration sourceText passed decl) :
    T.Locates .missingSemicolon
      ⟨decl.span.stop, Text.lineEnd T.source decl.span.stop⟩ := by
  obtain ⟨hsits, -⟩ := hdecl.laid (h.toOver.inOrder_of_passes hpasses)
  obtain ⟨token, hmem, hstop⟩ := (hsits _ List.mem_cons_self).placed.stops
  have hstop : token.span.stop = decl.span.stop := hstop
  rw [← hstop]
  exact .restOfLine (h.toOver.subset_of_passes hpasses hmem)

end Admits

end Tokenized

/-- A missing semicolon is no error of syntax. -/
theorem Cause.IsSyntax.ne_missingSemicolon {cause : Cause} (h : cause.IsSyntax) :
    cause ≠ .missingSemicolon := by
  rintro rfl
  exact h

/-- The logic of where errors are reported, whether they are raised or recorded. -/
def RunLogic.locating (T : Tokenized) {context : Context} (hsource : context.source = T.source) :
    RunLogic context where
  admits := T.Admits
  raises _ error := T.Locates error.cause error.span
  records := T.Holds
  marked hadmits := hadmits.marked
  admits_later hadmits hreaches := hadmits.reaches hreaches
  raises_earlier _ _ hlocates := hlocates
  raises_here hadmits hcause := hadmits.locates_current hcause.ne_missingSemicolon
  raises_limit hadmits := hadmits.locates_current (by simp [Error.ofCause])
  raises_target hadmits hpasses hphrase :=
    hadmits.locates_phrase hpasses hphrase (by simp [Error.ofCause])
  raises_fatally _ _ _ hlocates := hlocates
  records_raised _ hlocates _ := ⟨_, hlocates, rfl⟩
  records_semicolon hadmits hpasses hdecl := by
    refine ⟨.missingSemicolon, ?_, rfl⟩
    rw [Context.lineEnd, hsource]
    exact hadmits.locates_declaration hpasses hdecl
  records_default hadmits hmem :=
    ⟨.duplicateDefault, hadmits.locates_token (hadmits.toOver.mem_of_behind hmem) (by simp), rfl⟩

/-- Reading statements reports nothing but at the places of errors. -/
theorem Program.readStatements_reports {T : Tokenized} {context : Context}
    (hgrammar : context.grammar = .standard) (hsource : context.source = T.source) (levels : Nat) :
    (RunLogic.locating T hsource).Judges (.Collected Stmt.Accounts.free.stmt)
      (readStatements context levels) :=
  readStatements_judges _ hgrammar (Stmt.Accounts.free_closed context.sourceText) levels

end ScriptLint
