import Mathlib
import ScriptLint.Proofs.Alignment.Layout
import ScriptLint.Proofs.Tree.Renaming

/-!
# Contents do not steer the reading

Two lists of tokens that agree everywhere but in the contents of strings and names are read in the
same way: a string or a name is never taken for what it happens to spell. The trees that come out
are the same, spans included, with the contents of the one list in the place of those of the other.
The main theorem is `Program.ofTokens_contents`.
-/

namespace ScriptLint

/-- Tokens that agree in all but the contents of a string or a name. -/
structure Token.Twin (token other : Token) : Prop where
  kind : token.kind = other.kind
  span : token.span = other.span
  value : token.kind ≠ .string → token.kind ≠ .identifier → token.value = other.value

/-- Twins that stand at the same place of two lists. -/
def Token.Swap (tokens others : List Token) (token other : Token) : Prop :=
  (token, other) ∈ tokens.zip others ∧ token.Twin other

/-- Two lists of tokens for one source. -/
structure Contents where
  settings : Settings
  source : List Char
  tokens : List Token
  others : List Token

namespace Contents

variable (C : Contents)

/-- The readers of the two lists. Twins at the same place correspond, and their spans are equal. -/
def alignment : Alignment where
  token := Token.Swap C.tokens C.others
  span span other := span = other
  expr := Expr.Renamed (Token.Swap C.tokens C.others)
  stmt := Stmt.Renamed (Token.Swap C.tokens C.others)
  cause cause other := cause.name = other.name ∧ cause.category = other.category
  context := Context.ofSettings C.settings C.source
  other := Context.ofSettings C.settings C.source
  before := []
  after := none
  earlier := []

/-- Twins are read in the same way, since only strings and names may differ in their values. -/
theorem lawfulTokens : C.alignment.LawfulTokens where
  grammar := rfl
  grammar_other := rfl
  limit := rfl
  kind h := h.2.kind
  value h := h.2.value

variable {C}

/-- Twins end at the same place. -/
theorem ends_eq {stop stop' : Nat} (h : C.alignment.Ends stop stop') : stop = stop' := by
  rcases h with ⟨token, other, htoken, rfl, rfl⟩ | ⟨rfl, rfl⟩
  · rw [htoken.2.span]
  · rfl

/-- Corresponding names are the values of twins. -/
theorem reworded {value other : String} (h : C.alignment.Value value other) :
    Reworded (Token.Swap C.tokens C.others) value other := by
  obtain ⟨token, twin, htoken, rfl, rfl⟩ := h
  exact .intro htoken

/-- Corresponding tokens, with the kind and the span that they share. -/
theorem swap_parts {token other : Token} (h : C.alignment.token token other) :
    Token.Swap C.tokens C.others ⟨token.kind, token.value, token.span⟩
      ⟨token.kind, other.value, token.span⟩ := by
  have hother : (⟨token.kind, other.value, token.span⟩ : Token) = other := by
    rw [h.2.kind, h.2.span]
  rw [hother]
  exact h

/-- Corresponding blocks are renamings of each other. -/
theorem renamedBlock {block other : Block Stmt} (h : C.alignment.Block block other) :
    Block.Renamed (Token.Swap C.tokens C.others) block other := by
  obtain ⟨body, span⟩ := block
  obtain ⟨body', span'⟩ := other
  obtain ⟨hbody, rfl⟩ := h
  exact .intro span hbody

/-- So are corresponding handlers. -/
theorem renamedHandler {handler other : Option (CatchClause Stmt)}
    (h : Option.Rel C.alignment.Handler handler other) :
    Option.Rel (CatchClause.Renamed (Token.Swap C.tokens C.others)) handler other := by
  cases h with
  | none => exact .none
  | @some clause twin hclause =>
      obtain ⟨parameter, body, span⟩ := clause
      obtain ⟨parameter', body', span'⟩ := twin
      obtain ⟨hparameter, hbody, rfl⟩ := hclause
      exact .some (.intro span (reworded hparameter) (renamedBlock hbody))

/-- So are corresponding closing parts. -/
theorem renamedFinalizer {finalizer other : Option (FinallyClause Stmt)}
    (h : Option.Rel C.alignment.Finalizer finalizer other) :
    Option.Rel (FinallyClause.Renamed (Token.Swap C.tokens C.others)) finalizer other := by
  cases h with
  | none => exact .none
  | @some clause twin hclause =>
      obtain ⟨body, span⟩ := clause
      obtain ⟨body', span'⟩ := twin
      obtain ⟨hbody, rfl⟩ := hclause
      exact .some (.intro span (renamedBlock hbody))

/-- So are corresponding arms. -/
theorem renamedCase {arm other : MatchCase Stmt} (h : C.alignment.Case arm other) :
    MatchCase.Renamed (Token.Swap C.tokens C.others) arm other := by
  obtain ⟨test, consequent, span⟩ := arm
  obtain ⟨test', consequent', span'⟩ := other
  obtain ⟨htest, hconsequent, rfl⟩ := h
  exact .intro span htest hconsequent

/-- So are corresponding properties, whose keys may be strings or names. -/
theorem renamedProperty {property other : Property Expr} (h : C.alignment.Property property other) :
    Property.Renamed (Token.Swap C.tokens C.others) property other := by
  obtain ⟨key, value, span⟩ := property
  obtain ⟨key', value', span'⟩ := other
  obtain ⟨hkey, hvalue, rfl⟩ := h
  exact .intro span (reworded hkey) hvalue

/-- So are corresponding declarations. -/
theorem renamedDecl {decl other : VarDecl} (h : C.alignment.Decl decl other) :
    VarDecl.Renamed (Token.Swap C.tokens C.others) decl other := by
  obtain ⟨name, isStatic, declaredType, initializer, span⟩ := decl
  obtain ⟨name', isStatic', declaredType', initializer', span'⟩ := other
  obtain ⟨hname, rfl, rfl, hvalue, rfl⟩ := h
  exact .intro isStatic declaredType span (reworded hname) hvalue

variable (C)

/-- Twins stand at the same place, and so does what is put together from them. -/
theorem lawfulSpans : C.alignment.LawfulSpans where
  token_span h := h.2.span
  hull h h' := by cases h; cases h'; rfl
  join h h' := by cases h; cases h'; rfl
  upTo h hends := by cases h; cases ends_eq hends; rfl
  lineEnd h := by cases h; rfl

/-- Renamed expressions are made of renamed parts. -/
theorem lawfulExprs : C.alignment.LawfulExprs where
  expr_span h := h.span_eq
  assignable h := h.isAssignable_eq
  literal {token other} value h _ := by
    rw [← h.2.span]
    exact .literal value _ token.span
  string {token other} h hkind := by
    have hswap := swap_parts h
    rw [hkind] at hswap
    rw [← h.2.span]
    exact .string _ hswap
  identifier {token other} h hkind := by
    have hswap := swap_parts h
    rw [hkind] at hswap
    rw [← h.2.span]
    exact .identifier hswap
  unary hargument hspan := by cases hspan; exact .unary _ _ hargument
  binary hleft hright hspan := by cases hspan; exact .binary _ _ hleft hright
  logical hleft hright hspan := by cases hspan; exact .logical _ _ hleft hright
  assignment hassignee hvalue hspan := by cases hspan; exact .assignment _ hassignee hvalue
  call hcallee harguments hspan := by cases hspan; exact .call _ hcallee harguments
  member hobject hproperty hspan := by
    cases hspan
    rw [← hproperty.2.span]
    exact .member _ hobject (swap_parts hproperty)
  array helements hspan := by cases hspan; exact .array _ helements
  object hproperties hspan := by
    cases hspan
    exact .object _ (hproperties.imp fun _ _ => renamedProperty)

/-- Renamed statements are made of renamed parts. -/
theorem lawfulStmts : C.alignment.LawfulStmts where
  varDecl hdecl := .varDecl (renamedDecl hdecl)
  ifElse htest hconsequent halternate hspan := by
    cases hspan
    exact .ifElse _ htest (renamedBlock hconsequent) halternate
  whileLoop htest hbody hspan := by cases hspan; exact .whileLoop _ htest (renamedBlock hbody)
  doWhile hbody htest hspan := by cases hspan; exact .doWhile _ (renamedBlock hbody) htest
  forLoop hinit htest hupdate hbody hspan := by
    cases hspan
    exact .forLoop _ hinit htest hupdate (renamedBlock hbody)
  functionDecl hname hparameters hbody hspan := by
    cases hspan
    exact .functionDecl _ (reworded hname) (hparameters.imp fun _ _ => reworded)
      (renamedBlock hbody)
  classDecl hname hbody hspan := by
    cases hspan
    exact .classDecl _ (reworded hname) (renamedBlock hbody)
  returnValue hvalue hspan := by cases hspan; exact .returnValue _ hvalue
  throwValue hvalue hspan := by cases hspan; exact .throwValue _ hvalue
  breakLoop hspan := by cases hspan; exact .breakLoop _
  continueLoop hspan := by cases hspan; exact .continueLoop _
  matchOn hdiscriminant hcases hfallback hspan := by
    cases hspan
    exact .matchOn _ hdiscriminant (hcases.imp fun _ _ => renamedCase) hfallback
  tryCatch hbody hhandler hfinalizer hspan := by
    cases hspan
    exact .tryCatch _ (renamedBlock hbody) (renamedHandler hhandler)
      (renamedFinalizer hfinalizer)
  retry hcount hbody hhandler hspan := by
    cases hspan
    exact .retry _ hcount (renamedBlock hbody) (renamedHandler hhandler)
  expression hvalue hspan := by cases hspan; exact .expression _ hvalue
  block hcontent := .block (renamedBlock hcontent)

/-- A cause may show a name, but its sort does not depend on it. -/
theorem lawfulCauses : C.alignment.LawfulCauses where
  refl _ _ := ⟨rfl, rfl⟩
  category h := h.2
  unexpected _ := ⟨rfl, rfl⟩
  detailed _ _ := ⟨rfl, rfl⟩
  expected _ _ := ⟨rfl, rfl⟩

/-- What is renamed is put together from what is renamed. -/
theorem lawful : C.alignment.Lawful :=
  ⟨C.lawfulTokens, C.lawfulSpans, C.lawfulExprs, C.lawfulStmts, C.lawfulCauses⟩

/-! ## Runs -/

variable {C}

/-- Lists that correspond place by place are cut at the same place by what depends on the kind. -/
theorem forall₂_cut {R : Token → Token → Prop} (hR : ∀ {token other}, R token other →
      token.kind = other.kind) {tokens others : List Token} (h : List.Forall₂ R tokens others) :
    List.Forall₂ R (tokens.takeWhile (·.kind != .eof)) (others.takeWhile (·.kind != .eof)) ∧
      List.Forall₂ R (tokens.dropWhile (·.kind != .eof)) (others.dropWhile (·.kind != .eof)) := by
  induction h with
  | nil => exact ⟨.nil, .nil⟩
  | @cons token other rest rest' htoken hrest ih =>
      cases hkind : token.kind != .eof with
      | true => simpa [hkind, ← hR htoken, htoken] using ih
      | false => simpa [hkind, ← hR htoken, htoken] using hrest

/-- The readers of the two lists at their starts. -/
theorem aligned_start (hend : ∃ mark ∈ C.tokens, mark.kind = .eof)
    (htwins : List.Forall₂ Token.Twin C.tokens C.others) :
    C.alignment.Aligned (.ofTokens C.tokens) (.ofTokens C.others) := by
  obtain ⟨hlength, hpairs⟩ := List.forall₂_iff_zip.1 htwins
  have hswaps : List.Forall₂ (Token.Swap C.tokens C.others) C.tokens C.others :=
    List.forall₂_iff_zip.2 ⟨hlength, fun hpair => ⟨hpair, hpairs hpair⟩⟩
  obtain ⟨hahead, hrest⟩ := forall₂_cut (fun h => h.2.kind) hswaps
  have hne : C.tokens.dropWhile (·.kind != .eof) ≠ [] := by
    obtain ⟨mark, hmem, hmark⟩ := hend
    intro hnil
    simpa [hmark] using List.dropWhile_eq_nil_iff.1 hnil mark hmem
  have hmark := List.head_dropWhile_not _ hne
  obtain ⟨mark, rest, hdrop⟩ := List.exists_cons_of_ne_nil hne
  rw [hdrop] at hrest
  obtain ⟨mark', rest', hmarks, -, hdrop'⟩ := List.forall₂_cons_left_iff.1 hrest
  have hkind : mark.kind = .eof := by simpa [hdrop] using hmark
  have hfirst : (Reading.ofTokens C.tokens).mark = mark := by
    simp only [Reading.ofTokens, hdrop, List.headD_cons]
  have hsecond : (Reading.ofTokens C.others).mark = mark' := by
    simp only [Reading.ofTokens, hdrop', List.headD_cons]
  refine ⟨⟨_, hahead, (List.append_nil _).symm⟩, ⟨[], .nil, rfl⟩, fun _ => ?_, ?_, ?_,
    ⟨[], .nil, rfl⟩⟩
  · rw [hfirst, hsecond]
    exact hmarks
  · rw [Reading.Marked, hfirst, hkind]
  · rw [Reading.Marked, hsecond, ← hmarks.2.kind, hkind]

/-- Corresponding reports are at the same place. -/
theorem report_span {report other : ParseError} (h : C.alignment.Report report other) :
    report.span = other.span := by
  obtain ⟨_, _, _, _, _, hspan⟩ := h
  exact hspan

end Contents

namespace Program

/-- Outcomes of the same structure: both are errors of one kind at one place, or both are programs
that are renamings of each other, with recovered errors at the same places. -/
inductive SameOutcome (R : Token → Token → Prop) : Except Error Parsed → Except Error Parsed → Prop
  where
  | refused {error error' : Error} : error.cause.name = error'.cause.name →
      error.fatal = error'.fatal → error.span = error'.span →
      SameOutcome R (.error error) (.error error')
  | read {statements statements' : List Stmt} {errors errors' : List ParseError} (span : Span) :
      List.Forall₂ (Stmt.Renamed R) statements statements' →
      errors.map ParseError.span = errors'.map ParseError.span →
      SameOutcome R (.ok ⟨⟨statements, span⟩, errors⟩) (.ok ⟨⟨statements', span⟩, errors'⟩)

/-- Lists of tokens that hold an end mark and differ in the contents of strings and names only are
read with outcomes of the same structure, where contents stand for those at the same place. -/
theorem ofTokens_contents (settings : Settings) (source : List Char) {tokens others : List Token}
    (hend : ∃ mark ∈ tokens, mark.kind = .eof) (htwins : List.Forall₂ Token.Twin tokens others) :
    SameOutcome (Token.Swap tokens others) (ofTokens settings source tokens)
      (ofTokens settings source others) := by
  let C : Contents := ⟨settings, source, tokens, others⟩
  have haligned := @Contents.aligned_start C hend htwins
  have hsim := C.lawful.sim_statements settings.maxDepth false
  unfold ofTokens
  cases hrun : readStatements (.ofSettings settings source) settings.maxDepth
      (.ofTokens tokens) with
  | error error later =>
      obtain ⟨error', later', hrun', ⟨hcause, hspan, hfatal⟩, -⟩ :=
        hsim.of_error haligned trivial hrun (.inl rfl)
      have hsecond : readStatements (.ofSettings settings source) settings.maxDepth
          (.ofTokens others) = .error error' later' := hrun'
      simp only [hrun, hsecond]
      exact .refused hcause.1 hfatal hspan
  | ok stmts later =>
      obtain ⟨stmts', later', hrun', hstmts, hlater⟩ :=
        hsim.of_ok haligned trivial hrun (.inl rfl)
      have hsecond : readStatements (.ofSettings settings source) settings.maxDepth
          (.ofTokens others) = .ok stmts' later' := hrun'
      obtain ⟨reports, hreports, herrors⟩ := hlater.errors
      have hspans : later.errors.toList.map ParseError.span =
          later'.errors.toList.map ParseError.span := by
        rw [herrors]
        exact map_eq_map_of_forall₂ (fun _ _ hreport => Contents.report_span hreport) hreports
      simp only [hrun, hsecond]
      exact .read _ hstmts hspans

/-- A name that is spelled like a keyword and a string that is spelled like a parenthesis are read
like any other name and string. -/
theorem ofTokens_contents_disguised :
    let tokens : List Token := [⟨.identifier, "f", ⟨0, 1⟩⟩, ⟨.symbol, "(", ⟨1, 2⟩⟩,
      ⟨.string, "a", ⟨2, 5⟩⟩, ⟨.symbol, ")", ⟨5, 6⟩⟩, ⟨.symbol, ";", ⟨6, 7⟩⟩, Token.endMark 7]
    let others : List Token := [⟨.identifier, "while", ⟨0, 1⟩⟩, ⟨.symbol, "(", ⟨1, 2⟩⟩,
      ⟨.string, "(", ⟨2, 5⟩⟩, ⟨.symbol, ")", ⟨5, 6⟩⟩, ⟨.symbol, ";", ⟨6, 7⟩⟩, Token.endMark 7]
    ofTokens ⟨8, true⟩ "f('a');".toList tokens = .ok ⟨⟨[.expression (.call (.identifier "f" ⟨0, 1⟩)
        [.literal (.string "a") "'a'" ⟨2, 5⟩] ⟨0, 6⟩) ⟨0, 7⟩], ⟨0, 7⟩⟩, []⟩ ∧
      SameOutcome (Token.Swap tokens others) (ofTokens ⟨8, true⟩ "f('a');".toList tokens)
        (ofTokens ⟨8, true⟩ "f('a');".toList others) := by
  intro tokens others
  refine ⟨by cbv, ofTokens_contents _ _ ⟨Token.endMark 7, by simp [tokens], rfl⟩ ?_⟩
  exact .cons ⟨rfl, rfl, by decide⟩ (.cons ⟨rfl, rfl, by decide⟩ (.cons ⟨rfl, rfl, by decide⟩
    (.cons ⟨rfl, rfl, by decide⟩ (.cons ⟨rfl, rfl, by decide⟩ (.cons ⟨rfl, rfl, by decide⟩ .nil)))))

end Program

end ScriptLint
