import Mathlib
import ScriptLint.Analysis
import ScriptLint.Proofs.Alignment.Sentences
import ScriptLint.Proofs.Sequence.Program
import ScriptLint.Proofs.Token.Tiling
import ScriptLint.Proofs.Typing.Respelling

/-!
# Layout does not matter

Two sources whose tokens agree in kind and value are read in the same way, wherever their tokens
stand. `Respelling.unplaced` takes away what may differ in the trees: the spans, and the texts that
strings were written as. The main theorem is `Program.parse_layout`.
-/

namespace ScriptLint

/-- Takes away all spans, and the texts that strings were written as. -/
def Respelling.unplaced : Respelling where
  span _ := ⟨0, 0⟩
  literal
    | .string value, _, _ => .literal (.string value) "" ⟨0, 0⟩
    | value, raw, _ => .literal value raw ⟨0, 0⟩

namespace Respelling

/-- Without its place, a literal keeps its value and its type. -/
theorem unplaced_literal (value : Literal) (raw : String) (span : Span) :
    ∃ text, unplaced.literal value raw span = .literal value text ⟨0, 0⟩ ∧
      value.ty text = value.ty raw := by
  cases value <;> exact ⟨_, rfl, rfl⟩

/-- Taking away the places changes nothing that the checker of types looks at. -/
theorem unplaced_faithful : unplaced.Faithful where
  span_literal value raw span := by
    obtain ⟨text, heq, -⟩ := unplaced_literal value raw span
    rw [heq]
    rfl
  isAssignable_literal value raw span := by
    obtain ⟨text, heq, -⟩ := unplaced_literal value raw span
    rw [heq]
    rfl
  infer_literal scope value raw span := by
    obtain ⟨text, heq, hty⟩ := unplaced_literal value raw span
    rw [heq]
    exact hty
  writes_literal value raw span := by
    obtain ⟨text, heq, -⟩ := unplaced_literal value raw span
    rw [heq, Node.writes_eq]
    rfl

end Respelling

/-- The program without its spans and the texts that its strings were written as. -/
def Program.unplaced (program : Program) : Program :=
  program.respell .unplaced

/-- Lists whose elements agree under two functions agree as a whole. -/
theorem map_eq_map_of_forall₂ {α β γ : Type} {R : α → β → Prop} {f : α → γ} {g : β → γ}
    (hR : ∀ value other, R value other → f value = g other) {values : List α} {others : List β}
    (h : List.Forall₂ R values others) : values.map f = others.map g := by
  induction h with
  | nil => rfl
  | cons hvalue _ ih => rw [List.map_cons, List.map_cons, hR _ _ hvalue, ih]

/-- Options whose contents agree under two functions agree as a whole. -/
theorem map_eq_map_of_rel {α β γ : Type} {R : α → β → Prop} {f : α → γ} {g : β → γ}
    (hR : ∀ value other, R value other → f value = g other) {value : Option α} {other : Option β}
    (h : Option.Rel R value other) : value.map f = other.map g := by
  cases h with
  | none => rfl
  | some hvalue => rw [Option.map_some, Option.map_some, hR _ _ hvalue]

/-- Two sources that are read with the same settings. -/
structure Layout where
  settings : Settings
  source : List Char
  other : List Char

namespace Layout

variable (L : Layout)

/-- The readers of the two sources. Tokens that agree in kind and value correspond if they are
written alike, which strings need not be. -/
def alignment : Alignment where
  token token other := token.kind = other.kind ∧ token.value = other.value ∧
    (token.kind ≠ .string → (Context.ofSettings L.settings L.source).sourceText token.span =
      (Context.ofSettings L.settings L.other).sourceText other.span)
  span _ _ := True
  expr expr other := expr.respell .unplaced = other.respell .unplaced
  stmt stmt other := stmt.respell .unplaced = other.respell .unplaced
  cause cause other := cause = other
  context := Context.ofSettings L.settings L.source
  other := Context.ofSettings L.settings L.other
  before := []
  after := none
  earlier := []

/-- Tokens of the same kind and value are read in the same way. -/
theorem lawfulTokens : L.alignment.LawfulTokens where
  grammar := rfl
  grammar_other := rfl
  limit := rfl
  kind h := h.1
  value h _ _ := h.2.1

/-- Any two spans correspond, so that nothing is asked of them. -/
theorem lawfulSpans : L.alignment.LawfulSpans where
  token_span _ := trivial
  hull _ _ := trivial
  join _ _ := trivial
  upTo _ _ := trivial
  lineEnd _ := trivial

variable {L}

/-- Corresponding names are the same. -/
theorem value_eq {value other : String} (h : L.alignment.Value value other) : value = other := by
  obtain ⟨token, twin, htoken, rfl, rfl⟩ := h
  exact htoken.2.1

theorem optional_eq {expr other : Option Expr} (h : Option.Rel L.alignment.expr expr other) :
    expr.map (Expr.respell .unplaced) = other.map (Expr.respell .unplaced) :=
  map_eq_map_of_rel (fun _ _ hexpr => hexpr) h

theorem alternate_eq {stmt other : Option Stmt} (h : Option.Rel L.alignment.stmt stmt other) :
    stmt.map (Stmt.respell .unplaced) = other.map (Stmt.respell .unplaced) :=
  map_eq_map_of_rel (fun _ _ hstmt => hstmt) h

/-- Corresponding blocks differ in their layout only. -/
theorem block_eq {block other : Block Stmt} (h : L.alignment.Block block other) :
    block.respell .unplaced = other.respell .unplaced := by
  rw [Block.respell, Block.respell, map_eq_map_of_forall₂ (fun _ _ hstmt => hstmt) h.1]
  rfl

/-- So do corresponding handlers. -/
theorem handler_eq {handler other : Option (CatchClause Stmt)}
    (h : Option.Rel L.alignment.Handler handler other) :
    handler.map (CatchClause.respell .unplaced) = other.map (CatchClause.respell .unplaced) := by
  refine map_eq_map_of_rel (fun clause twin hclause => ?_) h
  rw [CatchClause.respell, CatchClause.respell, value_eq hclause.1, block_eq hclause.2.1]
  rfl

/-- So do corresponding closing parts. -/
theorem finalizer_eq {finalizer other : Option (FinallyClause Stmt)}
    (h : Option.Rel L.alignment.Finalizer finalizer other) :
    finalizer.map (FinallyClause.respell .unplaced) =
      other.map (FinallyClause.respell .unplaced) := by
  refine map_eq_map_of_rel (fun clause twin hclause => ?_) h
  rw [FinallyClause.respell, FinallyClause.respell, block_eq hclause.1]
  rfl

/-- So do the arms of corresponding `match` statements. -/
theorem cases_eq {cases others : List (MatchCase Stmt)}
    (h : List.Forall₂ L.alignment.Case cases others) :
    cases.map (MatchCase.respell .unplaced) = others.map (MatchCase.respell .unplaced) := by
  refine map_eq_map_of_forall₂ (fun arm twin harm => ?_) h
  obtain ⟨htest, hconsequent, -⟩ := harm
  rw [MatchCase.respell, MatchCase.respell, htest, hconsequent]
  rfl

/-- So do corresponding declarations. -/
theorem decl_eq {decl other : VarDecl} (h : L.alignment.Decl decl other) :
    decl.respell .unplaced = other.respell .unplaced := by
  obtain ⟨hname, hstatic, htype, hvalue, -⟩ := h
  rw [VarDecl.respell, VarDecl.respell, value_eq hname, hstatic, htype, optional_eq hvalue]
  rfl

/-- So do the properties of corresponding objects. -/
theorem properties_eq {properties others : List (Property Expr)}
    (h : List.Forall₂ L.alignment.Property properties others) :
    properties.map (Property.respell .unplaced) = others.map (Property.respell .unplaced) := by
  refine map_eq_map_of_forall₂ (fun property twin hproperty => ?_) h
  obtain ⟨hkey, hvalue, -⟩ := hproperty
  rw [Property.respell, Property.respell, value_eq hkey, hvalue]
  rfl

theorem exprs_eq {exprs others : List Expr} (h : List.Forall₂ L.alignment.expr exprs others) :
    exprs.map (Expr.respell .unplaced) = others.map (Expr.respell .unplaced) :=
  map_eq_map_of_forall₂ (fun _ _ hexpr => hexpr) h

variable (L)

/-- Expressions that differ in their layout are made of parts that do. -/
theorem lawfulExprs : L.alignment.LawfulExprs where
  expr_span _ := trivial
  assignable {expr other} h := by
    have hassignable := Expr.isAssignable_respell Respelling.unplaced_faithful
    rw [← hassignable expr, ← hassignable other, h]
  literal {token other} value h hkind := by
    have hraw : L.alignment.context.sourceText token.span =
        L.alignment.other.sourceText other.span := h.2.2 hkind
    show Expr.respell _ _ = Expr.respell _ _
    rw [Expr.respell, Expr.respell, hraw]
    cases value <;> rfl
  string h _ := congrArg (fun value => Expr.literal (.string value) "" ⟨0, 0⟩) h.2.1
  identifier h _ := congrArg (Expr.identifier · ⟨0, 0⟩) h.2.1
  unary hargument _ := congrArg (Expr.unary _ · ⟨0, 0⟩) hargument
  binary hleft hright _ := congrArg₂ (Expr.binary _ · · ⟨0, 0⟩) hleft hright
  logical hleft hright _ := congrArg₂ (Expr.logical _ · · ⟨0, 0⟩) hleft hright
  assignment hassignee hvalue _ := congrArg₂ (Expr.assignment · · ⟨0, 0⟩) hassignee hvalue
  call hcallee harguments _ := by
    show Expr.respell _ _ = Expr.respell _ _
    simp only [Expr.respell, Expr.respellAll_eq_map]
    exact congrArg₂ (Expr.call · · ⟨0, 0⟩) hcallee (exprs_eq harguments)
  member hobject hproperty _ :=
    congrArg₂ (fun owner name => Expr.member owner ⟨name, ⟨0, 0⟩⟩ ⟨0, 0⟩) hobject hproperty.2.1
  array helements _ := by
    show Expr.respell _ _ = Expr.respell _ _
    simp only [Expr.respell, Expr.respellAll_eq_map]
    exact congrArg (Expr.array · ⟨0, 0⟩) (exprs_eq helements)
  object hproperties _ := by
    show Expr.respell _ _ = Expr.respell _ _
    simp only [Expr.respell, Expr.respellProperties_eq_map]
    exact congrArg (Expr.object · ⟨0, 0⟩) (properties_eq hproperties)

/-- Statements that differ in their layout are made of parts that do. -/
theorem lawfulStmts : L.alignment.LawfulStmts where
  varDecl hdecl := congrArg Stmt.varDecl (decl_eq hdecl)
  ifElse htest hconsequent halternate _ := by
    show Stmt.respell _ _ = Stmt.respell _ _
    simp only [Stmt.respell, Stmt.respellBlock_eq, Stmt.respellOption_eq_map]
    rw [htest, block_eq hconsequent, alternate_eq halternate]
    rfl
  whileLoop htest hbody _ := by
    show Stmt.respell _ _ = Stmt.respell _ _
    simp only [Stmt.respell, Stmt.respellBlock_eq]
    exact congrArg₂ (Stmt.whileLoop · · ⟨0, 0⟩) htest (block_eq hbody)
  doWhile hbody htest _ := by
    show Stmt.respell _ _ = Stmt.respell _ _
    simp only [Stmt.respell, Stmt.respellBlock_eq]
    exact congrArg₂ (Stmt.doWhile · · ⟨0, 0⟩) (block_eq hbody) htest
  forLoop hinit htest hupdate hbody _ := by
    show Stmt.respell _ _ = Stmt.respell _ _
    simp only [Stmt.respell, Stmt.respellBlock_eq, Stmt.respellOption_eq_map]
    rw [alternate_eq hinit, optional_eq htest, optional_eq hupdate, block_eq hbody]
    rfl
  functionDecl hname hparameters hbody _ := by
    show Stmt.respell _ _ = Stmt.respell _ _
    simp only [Stmt.respell, Stmt.respellBlock_eq]
    have hsame := map_eq_map_of_forall₂ (f := id) (g := id) (fun _ _ => value_eq) hparameters
    rw [List.map_id, List.map_id] at hsame
    rw [value_eq hname, hsame, block_eq hbody]
    rfl
  classDecl hname hbody _ := by
    show Stmt.respell _ _ = Stmt.respell _ _
    simp only [Stmt.respell, Stmt.respellBlock_eq]
    exact congrArg₂ (Stmt.classDecl · · ⟨0, 0⟩) (value_eq hname) (block_eq hbody)
  returnValue hvalue _ := congrArg (Stmt.returnValue · ⟨0, 0⟩) (optional_eq hvalue)
  throwValue hvalue _ := congrArg (Stmt.throwValue · ⟨0, 0⟩) (optional_eq hvalue)
  breakLoop _ := rfl
  continueLoop _ := rfl
  matchOn hdiscriminant hcases hfallback _ := by
    show Stmt.respell _ _ = Stmt.respell _ _
    simp only [Stmt.respell, Stmt.respellCases_eq_map, Stmt.respellOption_eq_map]
    rw [hdiscriminant, cases_eq hcases, alternate_eq hfallback]
    rfl
  tryCatch hbody hhandler hfinalizer _ := by
    show Stmt.respell _ _ = Stmt.respell _ _
    simp only [Stmt.respell, Stmt.respellBlock_eq, Stmt.respellHandler_eq_map,
      Stmt.respellFinalizer_eq_map]
    rw [block_eq hbody, handler_eq hhandler, finalizer_eq hfinalizer]
    rfl
  retry hcount hbody hhandler _ := by
    show Stmt.respell _ _ = Stmt.respell _ _
    simp only [Stmt.respell, Stmt.respellBlock_eq, Stmt.respellHandler_eq_map]
    rw [hcount, block_eq hbody, handler_eq hhandler]
    rfl
  expression hvalue _ := congrArg (Stmt.expression · ⟨0, 0⟩) hvalue
  block hcontent := by
    show Stmt.respell _ _ = Stmt.respell _ _
    simp only [Stmt.respell, Stmt.respellBlock_eq]
    exact congrArg Stmt.block (block_eq hcontent)

/-- Causes show tokens by their kind and value, not by their place. -/
theorem lawfulCauses : L.alignment.LawfulCauses where
  refl _ _ := rfl
  category h := congrArg Cause.category h
  unexpected {token other} h := by
    show Cause.unexpectedToken _ = _
    simp only [Token.display, h.1, h.2.1]
  detailed {token other} detail h := by
    show Cause.unexpectedTokenDetailed _ _ = _
    simp only [Token.display, h.1, h.2.1]
  expected {token other} text h := by
    show Cause.expectedToken _ _ = _
    simp only [Token.display, h.1, h.2.1]

/-- What differs in its layout is put together from what does. -/
theorem lawful : L.alignment.Lawful :=
  ⟨L.lawfulTokens, L.lawfulSpans, L.lawfulExprs, L.lawfulStmts, L.lawfulCauses⟩

/-! ## Runs -/

variable {L} {fold : Bool}

/-- Tokens of the same form that stand in the two sources correspond. -/
theorem token_of_standsIn {token other : Token} (h : token.StandsIn fold L.source)
    (hother : other.StandsIn fold L.other) (hform : token.form = other.form) :
    L.alignment.token token other := by
  obtain ⟨hkind, hvalue⟩ := Prod.mk.inj hform
  refine ⟨hkind, hvalue, fun hstring => ?_⟩
  obtain ⟨text, back, htext, hwritten⟩ := h.slice?
  obtain ⟨text', back', htext', hwritten'⟩ := hother.slice?
  rw [← hkind, ← hvalue] at hwritten'
  obtain rfl := hwritten.text_unique hwritten' hstring
  show String.ofList ((Text.slice? L.source _ _).getD []) =
    String.ofList ((Text.slice? L.other _ _).getD [])
  rw [htext, htext']

/-- The end marks of the two sources correspond. -/
theorem token_endMark : L.alignment.token (Token.endMark (Text.byteLength L.source))
    (Token.endMark (Text.byteLength L.other)) := by
  have hempty : ∀ text : List Char, Text.slice? text (Text.byteLength text)
      (Text.byteLength text) = some [] := by
    intro text
    simpa using Text.slice?_middle text [] []
  refine ⟨rfl, rfl, fun _ => ?_⟩
  show String.ofList ((Text.slice? L.source _ _).getD []) =
    String.ofList ((Text.slice? L.other _ _).getD [])
  exact congrArg (fun slice => String.ofList (Option.getD slice []))
    ((hempty L.source).trans (hempty L.other).symm)

/-- The readers of the two sources at their starts. -/
theorem aligned_start {body others : List Token}
    (hbody : ∀ token ∈ body, token.StandsIn fold L.source)
    (hothers : ∀ token ∈ others, token.StandsIn fold L.other)
    (hsame : body.map Token.form = others.map Token.form) :
    L.alignment.Aligned ⟨[], body, Token.endMark (Text.byteLength L.source), #[]⟩
      ⟨[], others, Token.endMark (Text.byteLength L.other), #[]⟩ where
  ahead := by
    refine ⟨others, ?_, (List.append_nil _).symm⟩
    have hforms : List.Forall₂ (fun token other => token.form = other.form) body others := by
      rw [← List.forall₂_eq_eq_eq, List.forall₂_map_left_iff, List.forall₂_map_right_iff] at hsame
      exact hsame
    obtain ⟨hlength, hpairs⟩ := List.forall₂_iff_zip.1 hforms
    refine List.forall₂_iff_zip.2 ⟨hlength, fun hpair => ?_⟩
    obtain ⟨htoken, hother⟩ := List.of_mem_zip hpair
    exact token_of_standsIn (hbody _ htoken) (hothers _ hother) (hpairs hpair)
  behind := ⟨[], .nil, rfl⟩
  mark _ := token_endMark
  marked := rfl
  marked_other := rfl
  errors := ⟨[], .nil, rfl⟩

/-- Corresponding reports have the same message. -/
theorem message_eq {report other : ParseError} (h : L.alignment.Report report other) :
    report.message = other.message := by
  obtain ⟨cause, _, rfl, hmessage, hmessage', -⟩ := h
  rw [hmessage, hmessage']

end Layout

namespace Program

/-- The checker says the same of two programs that differ in their places only. -/
theorem check_unplaced {program other : Program} (h : program.unplaced = other.unplaced) :
    program.check.map (fun diagnostic => (diagnostic.message, diagnostic.severity)) =
      other.check.map fun diagnostic => (diagnostic.message, diagnostic.severity) := by
  have hcheck : ∀ program : Program,
      program.unplaced.check.map (fun diagnostic => (diagnostic.message, diagnostic.severity)) =
        program.check.map fun diagnostic => (diagnostic.message, diagnostic.severity) := by
    intro program
    rw [unplaced, (Checker.ofProgram_respell Respelling.unplaced_faithful program).2, List.map_map]
    rfl
  rw [← hcheck, h, hcheck]

/-- With recovered errors of the same wording, the same is reported of them. -/
theorem diagnostics_unplaced {parsed other : Parsed}
    (hprogram : parsed.program.unplaced = other.program.unplaced)
    (herrors : parsed.errors.map ParseError.message = other.errors.map ParseError.message) :
    parsed.diagnostics.map (fun diagnostic => (diagnostic.message, diagnostic.severity)) =
      other.diagnostics.map fun diagnostic => (diagnostic.message, diagnostic.severity) := by
  have hreported := congrArg (List.map fun message => (message, Severity.error)) herrors
  rw [List.map_map, List.map_map] at hreported
  rw [Parsed.diagnostics, Parsed.diagnostics, List.map_append, List.map_append,
    check_unplaced hprogram, List.map_map, List.map_map]
  exact congrArg (· ++ _) hreported

/-- Two sources are both refused for the same cause, or both read into programs that differ in their
places only, with recovered errors of the same wording. What is reported of them is the same, but
for the places. -/
inductive ReadAlike (settings : Settings) (source other : String) : Prop where
  | refused {error error' : Error} : parse settings source = .error error →
      parse settings other = .error error' → error.cause = error'.cause →
      error.fatal = error'.fatal → analyze settings source = .error error →
      analyze settings other = .error error' → ReadAlike settings source other
  | read {parsed parsed' : Parsed} {diagnostics diagnostics' : List Diagnostic} :
      parse settings source = .ok parsed → parse settings other = .ok parsed' →
      parsed.program.unplaced = parsed'.program.unplaced →
      parsed.errors.map ParseError.message = parsed'.errors.map ParseError.message →
      analyze settings source = .ok diagnostics → analyze settings other = .ok diagnostics' →
      diagnostics.map (fun diagnostic => (diagnostic.message, diagnostic.severity)) =
        diagnostics'.map (fun diagnostic => (diagnostic.message, diagnostic.severity)) →
      ReadAlike settings source other

/-- Sources whose tokens have the same forms are read alike. -/
theorem parse_layout {settings : Settings} {source other : String} {tokens others : List Token}
    (htokens : Token.tokenize settings source = .ok tokens)
    (hothers : Token.tokenize settings other = .ok others)
    (hsame : tokens.map Token.form = others.map Token.form) : ReadAlike settings source other := by
  have hstands := @Token.scan_standsIn _ _ _ [] _ htokens rfl
  have hstands' := @Token.scan_standsIn _ _ _ [] _ hothers rfl
  obtain ⟨body, rfl, hbody⟩ := Token.tokenize_mark htokens
  obtain ⟨body', rfl, hbody'⟩ := Token.tokenize_mark hothers
  have hforms : body.map Token.form = body'.map Token.form := by
    simpa [Token.form, Token.endMark] using hsame
  let L : Layout := ⟨settings, source.toList, other.toList⟩
  have haligned := @Layout.aligned_start L _ body body'
    (fun token h => hstands token (List.mem_append_left _ h) (hbody token h).1)
    (fun token h => hstands' token (List.mem_append_left _ h) (hbody' token h).1) hforms
  -- The two readings go in step, so one of them decides which case both are in.
  have hsim := L.lawful.sim_statements settings.maxDepth false
  cases hrun : readStatements (.ofSettings settings source.toList) settings.maxDepth
      ⟨[], body, Token.endMark (Text.byteLength source.toList), #[]⟩ with
  | error error later =>
      obtain ⟨error', later', hrun', ⟨hcause, -, hfatal⟩, -⟩ :=
        hsim.of_error haligned trivial hrun (.inl rfl)
      have hparse := (parse_of_tokens htokens).trans (congrArg (outcome source.toList) hrun)
      have hparse' := (parse_of_tokens hothers).trans (congrArg (outcome other.toList) hrun')
      exact .refused hparse hparse' hcause hfatal
        (congrArg (Except.map Parsed.diagnostics) hparse)
        (congrArg (Except.map Parsed.diagnostics) hparse')
  | ok stmts later =>
      obtain ⟨stmts', later', hrun', hstmts, hlater⟩ :=
        hsim.of_ok haligned trivial hrun (.inl rfl)
      have hparse := (parse_of_tokens htokens).trans (congrArg (outcome source.toList) hrun)
      have hparse' := (parse_of_tokens hothers).trans (congrArg (outcome other.toList) hrun')
      obtain ⟨reports, hreports, herrors⟩ := hlater.errors
      have hmessages : later.errors.toList.map ParseError.message =
          later'.errors.toList.map ParseError.message := by
        rw [herrors]
        exact map_eq_map_of_forall₂ (fun _ _ hreport => Layout.message_eq hreport) hreports
      have hprogram := congrArg (Program.mk · ⟨0, 0⟩)
        (map_eq_map_of_forall₂ (fun _ _ hstmt => hstmt) hstmts)
      exact .read hparse hparse' hprogram hmessages
        (congrArg (Except.map Parsed.diagnostics) hparse)
        (congrArg (Except.map Parsed.diagnostics) hparse')
        (diagnostics_unplaced hprogram hmessages)

theorem parse_layout_quotes :
    let tokens : List Token := [⟨.keyword, "static", ⟨0, 6⟩⟩, ⟨.identifier, "a", ⟨7, 8⟩⟩,
      ⟨.symbol, "=", ⟨8, 9⟩⟩, ⟨.string, "b", ⟨9, 12⟩⟩, Token.endMark 12]
    let others : List Token := [⟨.keyword, "static", ⟨0, 6⟩⟩, ⟨.identifier, "a", ⟨11, 12⟩⟩,
      ⟨.symbol, "=", ⟨13, 14⟩⟩, ⟨.string, "b", ⟨15, 18⟩⟩, Token.endMark 21]
    Token.tokenize ⟨8, true⟩ "static a='b'" = .ok tokens ∧
      Token.tokenize ⟨8, true⟩ "static/**/ a = \"b\" //" = .ok others ∧
      tokens.map Token.form = others.map Token.form ∧
      ReadAlike ⟨8, true⟩ "static a='b'" "static/**/ a = \"b\" //" := by
  intro tokens others
  have htokens : Token.tokenize ⟨8, true⟩ "static a='b'" = .ok tokens := by decide +kernel
  have hothers : Token.tokenize ⟨8, true⟩ "static/**/ a = \"b\" //" = .ok others := by
    decide +kernel
  exact ⟨htokens, hothers, rfl, parse_layout htokens hothers rfl⟩

end Program

end ScriptLint
