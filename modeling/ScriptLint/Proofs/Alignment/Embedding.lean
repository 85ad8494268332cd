import ScriptLint.Proofs.Alignment.Sentences
import ScriptLint.Proofs.Text.Embedding
import ScriptLint.Proofs.Token.Composition
import ScriptLint.Proofs.Tree.Spans

/-!
# A text inside a longer one

The alignment of the reader of a text with the reader of a longer text in which it stands. What
corresponds to a token, a span or a tree is the same one, moved by the length of the text in front.
The ends of lines and the texts of literals are kept because the spans stay inside the text.
-/

namespace ScriptLint

/-- The ends of the span are not behind the end of the text. -/
def Span.Fits (text : List Char) (span : Span) : Prop :=
  span.start ≤ Text.byteLength text ∧ span.stop ≤ Text.byteLength text

/-- A list is the image of another one if it is so element by element. -/
theorem eq_map_of_forall₂ {α β : Type} {R : α → β → Prop} {f : α → β}
    (hR : ∀ value image, R value image → image = f value) {values : List α} {images : List β}
    (h : List.Forall₂ R values images) : images = values.map f := by
  induction h with
  | nil => rfl
  | cons hvalue _ ih => rw [List.map_cons, ← hR _ _ hvalue, ih]

/-- An option is the image of another one if its content is. -/
theorem eq_map_of_rel {α β : Type} {R : α → β → Prop} {f : α → β}
    (hR : ∀ value image, R value image → image = f value) {value : Option α} {image : Option β}
    (h : Option.Rel R value image) : image = value.map f := by
  cases h with
  | none => rfl
  | some hvalue => rw [Option.map_some, ← hR _ _ hvalue]

/-- Only the causes of the scanner name places. -/
theorem Cause.shift_of_category {cause : Cause} (h : cause.category ≠ .lexical) (amount : Nat) :
    cause.shift amount = cause := by
  cases cause with
  | unterminatedString start => exact absurd rfl h
  | _ => rfl

/-- A text that stands in a longer one, with what the reader of the longer one has read and recorded
before it comes to the text, and the tokens it has left behind it. -/
structure Embedding where
  settings : Settings
  front : List Char
  text : List Char
  back : List Char
  before : List Token
  after : Option (List Token)
  earlier : List ParseError
  back_feed : back.head?.all (· = '\n')
  before_le : ∀ token ∈ before.head?, token.span.stop ≤ Text.byteLength front

namespace Embedding

variable (E : Embedding)

/-- The place of the text in the longer one. -/
def offset : Nat :=
  Text.byteLength E.front

/-- The reader of the text and the reader of the longer one. -/
def alignment : Alignment where
  token token other := other = token.shift E.offset ∧ token.span.Fits E.text
  span span other := other = span.shift E.offset ∧ span.Fits E.text
  expr expr other := other = expr.shift E.offset ∧ expr.span.Fits E.text
  stmt stmt other := other = stmt.shift E.offset
  cause cause other := other = cause ∧ cause.category ≠ .lexical
  context := Context.ofSettings E.settings E.text
  other := Context.ofSettings E.settings (E.front ++ (E.text ++ E.back))
  before := E.before
  after := E.after
  earlier := E.earlier

/-- A moved token is read as the token itself. -/
theorem lawfulTokens : E.alignment.LawfulTokens where
  grammar := rfl
  grammar_other := rfl
  limit := rfl
  kind := by
    rintro token _ ⟨rfl, -⟩
    rfl
  value := by
    rintro token _ ⟨rfl, -⟩ _ _
    rfl

/-- Moved spans are put together into moved spans. The end of a line is moved as well, since it is
inside the text. -/
theorem lawfulSpans : E.alignment.LawfulSpans where
  token_span := by
    rintro token _ ⟨rfl, hfits⟩
    exact ⟨rfl, hfits⟩
  hull := by
    rintro first second _ _ ⟨rfl, hfirst⟩ ⟨rfl, hsecond⟩
    refine ⟨?_, ?_⟩
    · simp [Span.hull, Span.shift, Nat.add_min_add_right, Nat.add_max_add_right]
    · exact ⟨Nat.le_trans (Nat.min_le_left _ _) hfirst.1, Nat.max_le.2 ⟨hfirst.2, hsecond.2⟩⟩
  join := by
    rintro first second _ _ ⟨rfl, hfirst⟩ ⟨rfl, hsecond⟩
    exact ⟨rfl, hfirst.1, hsecond.2⟩
  upTo := by
    rintro span _ stop stop' ⟨rfl, hspan⟩ hends
    obtain ⟨token, _, ⟨rfl, hfits⟩, rfl, rfl⟩ | ⟨rfl, rfl⟩ := hends
    · refine ⟨?_, hspan.1, Nat.max_le.2 ⟨hfits.2, hspan.1⟩⟩
      simp [Span.shift, Token.shift, Nat.add_max_add_right]
    · -- Nothing has been read yet, and what is in front of the text ends before it.
      have hbefore : (E.before.head?.map fun token => token.span.stop).getD 0 ≤ E.offset := by
        cases hhead : E.before.head? with
        | none => exact Nat.zero_le _
        | some token => exact E.before_le token hhead
      refine ⟨?_, hspan.1, Nat.max_le.2 ⟨Nat.zero_le _, hspan.1⟩⟩
      show (⟨span.start + E.offset, _⟩ : Span) =
        ⟨span.start + E.offset, max 0 span.start + E.offset⟩
      rw [Nat.max_eq_right (Nat.zero_le _), Span.mk.injEq]
      exact ⟨rfl, Nat.max_eq_right (Nat.le_trans hbefore (Nat.le_add_left _ _))⟩
  lineEnd := by
    rintro span _ ⟨rfl, hspan⟩
    refine ⟨?_, hspan.2, Text.lineEnd_le _ _⟩
    exact congrArg (Span.mk _) (Text.lineEnd_inside E.front E.back_feed hspan.2)

/-- The texts of literals are found where the text stands. -/
theorem sourceText_shift {span : Span} (h : span.Fits E.text) :
    E.alignment.other.sourceText (span.shift E.offset) = E.alignment.context.sourceText span :=
  congrArg (fun slice : Option (List Char) => String.ofList (slice.getD []))
    (Text.slice?_inside E.front E.back h.2)

variable {E}

/-- Moving a token does not change the name that it has. -/
theorem value_eq {value other : String} (h : E.alignment.Value value other) : other = value := by
  obtain ⟨token, _, ⟨rfl, -⟩, rfl, rfl⟩ := h
  rfl

theorem optional_eq {expr other : Option Expr} (h : Option.Rel E.alignment.expr expr other) :
    other = expr.map (Expr.mapSpan (Span.shift E.offset)) :=
  eq_map_of_rel (fun _ _ hexpr => hexpr.1) h

theorem alternate_eq {stmt other : Option Stmt} (h : Option.Rel E.alignment.stmt stmt other) :
    other = Stmt.mapOption (Span.shift E.offset) stmt := by
  rw [Stmt.mapOption_eq_map]
  exact eq_map_of_rel (fun _ _ hstmt => hstmt) h

/-- What corresponds to a block is the block moved. -/
theorem block_eq {block other : Block Stmt} (h : E.alignment.Block block other) :
    other = Stmt.mapBlock (Span.shift E.offset) block := by
  obtain ⟨body, span⟩ := block
  obtain ⟨body', span'⟩ := other
  obtain ⟨hbody, hspan, -⟩ := h
  cases hspan
  cases eq_map_of_forall₂ (fun _ _ hstmt => hstmt) hbody
  rw [Stmt.mapBlock, Stmt.mapSpans_eq_map]
  rfl

/-- What corresponds to a handler is the handler moved. -/
theorem handler_eq {handler other : Option (CatchClause Stmt)}
    (h : Option.Rel E.alignment.Handler handler other) :
    other = Stmt.mapHandler (Span.shift E.offset) handler := by
  cases h with
  | none => rfl
  | @some handler other hhandler =>
      obtain ⟨parameter, body, span⟩ := handler
      obtain ⟨parameter', body', span'⟩ := other
      obtain ⟨hparameter, hbody, hspan, -⟩ := hhandler
      cases value_eq hparameter
      cases block_eq hbody
      cases hspan
      rfl

/-- What corresponds to a closing part is the closing part moved. -/
theorem finalizer_eq {finalizer other : Option (FinallyClause Stmt)}
    (h : Option.Rel E.alignment.Finalizer finalizer other) :
    other = Stmt.mapFinalizer (Span.shift E.offset) finalizer := by
  cases h with
  | none => rfl
  | @some finalizer other hfinalizer =>
      obtain ⟨body, span⟩ := finalizer
      obtain ⟨body', span'⟩ := other
      obtain ⟨hbody, hspan, -⟩ := hfinalizer
      cases block_eq hbody
      cases hspan
      rfl

/-- What corresponds to the arms of a `match` are the arms moved. -/
theorem cases_eq {cases others : List (MatchCase Stmt)}
    (h : List.Forall₂ E.alignment.Case cases others) :
    others = Stmt.mapCases (Span.shift E.offset) cases := by
  rw [Stmt.mapCases_eq_map]
  refine eq_map_of_forall₂ ?_ h
  rintro ⟨test, consequent, span⟩ ⟨test', consequent', span'⟩ ⟨⟨htest, -⟩, hconsequent, hspan, -⟩
  cases htest
  cases hconsequent
  cases hspan
  rfl

variable (E)

/-- Moved expressions are made of moved parts. The text of a literal is found again where it was
moved to. -/
theorem lawfulExprs : E.alignment.LawfulExprs where
  expr_span := by
    rintro expr _ ⟨rfl, hfits⟩
    exact ⟨Expr.span_mapSpan expr, hfits⟩
  assignable := by
    rintro expr _ ⟨rfl, -⟩
    exact (Expr.isAssignable_mapSpan expr).symm
  literal := by
    rintro token _ value ⟨rfl, hfits⟩ _
    exact ⟨congrArg (Expr.literal value · _) (E.sourceText_shift hfits), hfits⟩
  string := by
    rintro token _ ⟨rfl, hfits⟩ _
    exact ⟨congrArg (Expr.literal (.string token.value) · _) (E.sourceText_shift hfits), hfits⟩
  identifier := by
    rintro token _ ⟨rfl, hfits⟩ _
    exact ⟨rfl, hfits⟩
  unary := by
    rintro operator argument _ span _ ⟨rfl, -⟩ ⟨rfl, hspan⟩
    exact ⟨rfl, hspan⟩
  binary := by
    rintro operator left _ right _ span _ ⟨rfl, -⟩ ⟨rfl, -⟩ ⟨rfl, hspan⟩
    exact ⟨rfl, hspan⟩
  logical := by
    rintro operator left _ right _ span _ ⟨rfl, -⟩ ⟨rfl, -⟩ ⟨rfl, hspan⟩
    exact ⟨rfl, hspan⟩
  assignment := by
    rintro assignee _ value _ span _ ⟨rfl, -⟩ ⟨rfl, -⟩ ⟨rfl, hspan⟩
    exact ⟨rfl, hspan⟩
  call := by
    rintro callee _ arguments arguments' span _ ⟨rfl, -⟩ harguments ⟨rfl, hspan⟩
    refine ⟨?_, hspan⟩
    rw [eq_map_of_forall₂ (fun _ _ h => h.1) harguments, Expr.shift, Expr.mapSpan,
      Expr.mapSpans_eq_map]
  member := by
    rintro owner _ property _ span _ ⟨rfl, -⟩ ⟨rfl, -⟩ ⟨rfl, hspan⟩
    exact ⟨rfl, hspan⟩
  array := by
    rintro elements elements' span _ helements ⟨rfl, hspan⟩
    refine ⟨?_, hspan⟩
    rw [eq_map_of_forall₂ (fun _ _ h => h.1) helements, Expr.shift, Expr.mapSpan,
      Expr.mapSpans_eq_map]
  object := by
    rintro properties properties' span _ hproperties ⟨rfl, hspan⟩
    refine ⟨?_, hspan⟩
    have hproperty : ∀ property property', E.alignment.Property property property' →
        property' =
          ⟨property.key, property.value.shift E.offset, property.span.shift E.offset⟩ := by
      rintro ⟨key, value, span⟩ ⟨key', value', span'⟩ ⟨hkey, ⟨hvalue, -⟩, hspan, -⟩
      cases value_eq hkey
      cases hvalue
      cases hspan
      rfl
    rw [eq_map_of_forall₂ hproperty hproperties, Expr.shift, Expr.mapSpan,
      Expr.mapProperties_eq_map]

/-- Moved statements are made of moved parts. -/
theorem lawfulStmts : E.alignment.LawfulStmts where
  varDecl := by
    rintro ⟨name, isStatic, ty, value, span⟩ ⟨name', isStatic', ty', value', span'⟩
      ⟨hname, hstatic, hty, hvalue, hspan, -⟩
    cases value_eq hname
    cases hstatic
    cases hty
    cases optional_eq hvalue
    cases hspan
    rfl
  ifElse := by
    rintro test _ consequent _ alternate _ span _ ⟨rfl, -⟩ hconsequent halternate ⟨rfl, -⟩
    rw [block_eq hconsequent, alternate_eq halternate]
    rfl
  whileLoop := by
    rintro test _ body _ span _ ⟨rfl, -⟩ hbody ⟨rfl, -⟩
    rw [block_eq hbody]
    rfl
  doWhile := by
    rintro body _ test _ span _ hbody ⟨rfl, -⟩ ⟨rfl, -⟩
    rw [block_eq hbody]
    rfl
  forLoop := by
    rintro init _ test _ update _ body _ span _ hinit htest hupdate hbody ⟨rfl, -⟩
    rw [alternate_eq hinit, optional_eq htest, optional_eq hupdate, block_eq hbody]
    rfl
  functionDecl := by
    rintro name _ parameters _ body _ span _ hname hparameters hbody ⟨rfl, -⟩
    rw [value_eq hname, block_eq hbody,
      eq_map_of_forall₂ (f := id) (fun _ _ => value_eq) hparameters, List.map_id]
    rfl
  classDecl := by
    rintro name _ body _ span _ hname hbody ⟨rfl, -⟩
    rw [value_eq hname, block_eq hbody]
    rfl
  returnValue := by
    rintro value _ span _ hvalue ⟨rfl, -⟩
    rw [optional_eq hvalue]
    rfl
  throwValue := by
    rintro value _ span _ hvalue ⟨rfl, -⟩
    rw [optional_eq hvalue]
    rfl
  breakLoop := by
    rintro span _ ⟨rfl, -⟩
    rfl
  continueLoop := by
    rintro span _ ⟨rfl, -⟩
    rfl
  matchOn := by
    rintro discriminant _ cases _ fallback _ span _ ⟨rfl, -⟩ hcases hfallback ⟨rfl, -⟩
    rw [cases_eq hcases, alternate_eq hfallback]
    rfl
  tryCatch := by
    rintro body _ handler _ finalizer _ span _ hbody hhandler hfinalizer ⟨rfl, -⟩
    rw [block_eq hbody, handler_eq hhandler, finalizer_eq hfinalizer]
    rfl
  retry := by
    rintro count _ body _ handler _ span _ ⟨rfl, -⟩ hbody hhandler ⟨rfl, -⟩
    rw [block_eq hbody, handler_eq hhandler]
    rfl
  expression := by
    rintro value _ span _ ⟨rfl, -⟩ ⟨rfl, -⟩
    rfl
  block := by
    rintro content _ hcontent
    rw [block_eq hcontent]
    rfl

/-- A cause has no place and stays the same. -/
theorem lawfulCauses : E.alignment.LawfulCauses where
  refl _ hcategory := ⟨rfl, hcategory⟩
  category := by
    rintro cause _ ⟨rfl, -⟩
    rfl
  unexpected := by
    rintro token _ ⟨rfl, -⟩
    exact ⟨rfl, by simp [Cause.category]⟩
  detailed := by
    rintro token _ detail ⟨rfl, -⟩
    exact ⟨rfl, by simp [Cause.category]⟩
  expected := by
    rintro token _ text ⟨rfl, -⟩
    exact ⟨rfl, by simp [Cause.category]⟩

/-- What is moved is put together from what is moved. -/
theorem lawful : E.alignment.Lawful :=
  ⟨E.lawfulTokens, E.lawfulSpans, E.lawfulExprs, E.lawfulStmts, E.lawfulCauses⟩

variable {E}

/-! ## Runs -/

/-- What corresponds to an error is the error moved. -/
theorem failure_eq {error other : Error} (h : E.alignment.Failure error other) :
    other = error.shift E.offset := by
  obtain ⟨cause, span, fatal⟩ := error
  obtain ⟨cause', span', fatal'⟩ := other
  obtain ⟨⟨hcause, hcategory⟩, ⟨hspan, -⟩, hfatal⟩ := h
  cases hcause
  cases hspan
  cases hfatal
  rw [Error.shift, Cause.shift_of_category hcategory]
  rfl

/-- What corresponds to a report is the report moved. -/
theorem report_eq {report other : ParseError} (h : E.alignment.Report report other) :
    other = report.shift E.offset := by
  obtain ⟨message, span⟩ := report
  obtain ⟨message', span'⟩ := other
  obtain ⟨cause, _, ⟨rfl, -⟩, hmessage, hmessage', ⟨hspan, -⟩⟩ := h
  cases hmessage
  cases hmessage'
  cases hspan
  rfl

/-- The reader of the text at its start, and the reader of the longer one where the text begins. -/
theorem aligned_start {body : List Token} {mark : Token} {other : Reading}
    (hbody : ∀ token ∈ body, token.span.Fits E.text) (hkind : mark.kind = .eof)
    (hahead : other.ahead = body.map (·.shift E.offset) ++ E.alignment.rest)
    (hbehind : other.behind = E.before) (herrors : other.errors.toList = E.earlier)
    (hother : other.Marked)
    (hmark : E.after = none → other.mark = mark.shift E.offset ∧ mark.span.Fits E.text) :
    E.alignment.Aligned ⟨[], body, mark, #[]⟩ other where
  ahead := by
    refine ⟨body.map (·.shift E.offset), ?_, hahead⟩
    rw [List.forall₂_map_right_iff]
    exact List.forall₂_same.2 fun token htoken => ⟨rfl, hbody token htoken⟩
  behind := ⟨[], .nil, hbehind⟩
  mark := hmark
  marked := hkind
  marked_other := hother
  errors := ⟨[], .nil, by rw [List.append_nil]; exact herrors⟩

/-- Where nothing follows the text, reading the statements of the two ends in the same way. -/
theorem readStatements_ok (hafter : E.after = none) (levels : Nat) {reading other later : Reading}
    {stmts : List Stmt} (haligned : E.alignment.Aligned reading other)
    (hrun : Program.readStatements (.ofSettings E.settings E.text) levels reading =
      .ok stmts later) :
    ∃ later', Program.readStatements (.ofSettings E.settings (E.front ++ (E.text ++ E.back))) levels
        other = .ok (stmts.map (·.shift E.offset)) later' ∧
      later'.errors.toList = E.earlier ++ later.errors.toList.map (·.shift E.offset) := by
  obtain ⟨stmts', later', hrun', hstmts, hlater⟩ :=
    (E.lawful.sim_statements levels false).of_ok haligned trivial hrun (.inl hafter)
  obtain ⟨reports, hreports, herrors⟩ := hlater.errors
  refine ⟨later', ?_, ?_⟩
  · rw [← eq_map_of_forall₂ (fun _ _ hstmt => hstmt) hstmts]
    exact hrun'
  · rw [herrors, eq_map_of_forall₂ (fun report report' hreport => report_eq hreport) hreports]
    rfl

/-- If the text alone ends the reading with an error and nothing follows, then so does the longer
text, at the place moved. -/
theorem readStatements_error (hafter : E.after = none) (levels : Nat)
    {reading other later : Reading} {error : Error}
    (haligned : E.alignment.Aligned reading other)
    (hrun : Program.readStatements (.ofSettings E.settings E.text) levels reading =
      .error error later) :
    ∃ later', Program.readStatements (.ofSettings E.settings (E.front ++ (E.text ++ E.back))) levels
        other = .error (error.shift E.offset) later' := by
  obtain ⟨error', later', hrun', herror, -⟩ :=
    (E.lawful.sim_statements levels false).of_error haligned trivial hrun (.inl hafter)
  rw [← failure_eq herror]
  exact ⟨later', hrun'⟩

end Embedding

end ScriptLint
