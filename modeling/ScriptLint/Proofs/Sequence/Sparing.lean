import ScriptLint.Proofs.Reasoning.Needs
import ScriptLint.Proofs.Sentence.Grammar

/-!
# Statements that leave their semicolon

Ahead of an unfinished reading are the tokens of one statement without braces, up to its semicolon.
An expression never reads over that semicolon, and a statement does so only where it can no longer
fail, or where its error is fatal. So a statement that cannot be read leaves the semicolon ahead,
and records nothing on the way.
-/

namespace ScriptLint

/-- A token has one spelling. -/
theorem Token.is_eq_false_of_ne {token : Token} {text other : String} (h : token.is text = true)
    (hne : text ≠ other) : token.is other = false := by
  obtain ⟨-, hvalue⟩ := Token.is_iff.1 h
  simp [Token.is, hvalue, hne]

/-- The semicolon has no form, so no phrase begins or goes on there. -/
def Grammar.StopsAtSemicolon (grammar : Grammar) : Prop :=
  ∀ token : Token, token.is ";" = true →
    grammar.lead? token = none ∧ grammar.tail? token = none ∧ grammar.statement? token = none

/-- The standard grammar has no form for the semicolon. -/
theorem Grammar.standard_stopsAtSemicolon : Grammar.standard.StopsAtSemicolon :=
  fun _ htoken =>
    ⟨Grammar.leadOf?_of_is htoken, Grammar.tailOf?_of_is htoken, Grammar.statementOf?_of_is htoken⟩

/-- A token with a form is not the semicolon, if that has none. -/
theorem Token.not_semicolon_of_form {α : Type} {token : Token} {found : Option α} {form : α}
    (hnone : token.is ";" = true → found = none) (hform : found = some form) :
    token.is ";" = false := by
  refine Bool.eq_false_iff.2 fun hsemicolon => ?_
  rw [hnone hsemicolon] at hform
  cases hform

namespace Reading

/-- Nothing was recorded, and a semicolon is ahead, last and behind tokens that are neither
semicolons nor braces. It is a symbol, not a keyword of that spelling. -/
structure Unfinished (reading : Reading) : Prop where
  clean : reading.Clean
  ahead : ∃ front last, reading.ahead = front ++ [last] ∧ last.is ";" = true ∧
    last.kind ≠ .keyword ∧ ∀ token ∈ front, token.isAny [";", "\x7b", "\x7d"] = false

variable {reading : Reading}

/-- An unfinished reading has its semicolon ahead. -/
theorem Unfinished.ahead_ne_nil (h : reading.Unfinished) : reading.ahead ≠ [] := by
  obtain ⟨front, last, hahead, -⟩ := h.ahead
  simp [hahead]

/-- The semicolon is the current token, or else there is more to be read in front of it. -/
theorem Unfinished.current_cases (h : reading.Unfinished) :
    (reading.current.is ";" = true ∧ reading.current.kind ≠ .keyword ∧ reading.next.ahead = []) ∨
      (reading.current.isAny [";", "\x7b", "\x7d"] = false ∧ reading.next.Unfinished) := by
  obtain ⟨front, last, hahead, hlast, hkind, hfront⟩ := h.ahead
  cases front with
  | nil =>
      have hcurrent : reading.current = last := by simp [current, hahead]
      exact .inl ⟨hcurrent ▸ hlast, hcurrent ▸ hkind, by simp [next, hahead]⟩
  | cons token tokens =>
      have hcurrent : reading.current = token := by simp [current, hahead]
      have hclean : reading.next.Clean :=
        ⟨(congrArg Token.kind reading.next_mark).trans h.clean.1,
          reading.next_errors.trans h.clean.2⟩
      refine .inr ⟨hcurrent ▸ hfront token List.mem_cons_self, hclean, tokens, last, ?_, hlast,
        hkind, ?_⟩
      · simp [next, hahead]
      · exact fun other hother => hfront other (List.mem_cons_of_mem token hother)

/-- Taking a token that is not the semicolon leaves the reading unfinished. -/
theorem Unfinished.next (h : reading.Unfinished)
    (hcurrent : reading.current.is ";" = false ∨ reading.current.kind = .keyword) :
    reading.next.Unfinished := by
  obtain ⟨hsemicolon, hkind, -⟩ | ⟨-, hnext⟩ := h.current_cases
  · rcases hcurrent with hother | hkeyword
    · rw [hother] at hsemicolon
      cases hsemicolon
    · exact absurd hkeyword hkind
  · exact hnext

/-- An unfinished reading is never at a brace. -/
theorem Unfinished.is_brace (h : reading.Unfinished) : reading.current.is "\x7b" = false := by
  obtain ⟨hsemicolon, -⟩ | ⟨hnone, -⟩ := h.current_cases
  · exact Token.is_eq_false_of_ne hsemicolon (by decide)
  · rw [Token.isAny, List.any_eq_false] at hnone
    exact Bool.eq_false_iff.2 (hnone "\x7b" (by simp))

end Reading

namespace Read

variable {α β : Type} {p p' : Token → Prop} {Q R : Reading → Prop} {step : Read α}
  {rest : α → Read β}

/-- On unfinished readings whose current token has the property `p`, the step succeeds only in
readings with the property `Q`, and fails in unfinished ones, unless its error is fatal. -/
structure SparesAt (p : Token → Prop) (Q : Reading → Prop) (step : Read α) : Prop where
  of_ok : ∀ {reading later : Reading} {value : α}, reading.Unfinished → p reading.current →
    step reading = .ok value later → Q later
  of_error : ∀ {reading later : Reading} {error : Error}, reading.Unfinished → p reading.current →
    step reading = .error error later → error.fatal = false → later.Unfinished

/-- The step never reads over the semicolon. -/
abbrev Spares (step : Read α) : Prop :=
  SparesAt (fun _ => True) Reading.Unfinished step

/-- The step does not succeed in front of the semicolon. -/
abbrev Stalls (step : Read α) : Prop :=
  SparesAt (fun _ => True) (fun _ => False) step

/-- The step may read over the semicolon, but not if it fails. -/
abbrev Falters (step : Read α) : Prop :=
  SparesAt (fun _ => True) (fun _ => True) step

/-- The step never fails. -/
def Total (step : Read α) : Prop :=
  ∀ reading, ∃ value later, step reading = .ok value later

/-- Steps that cannot fail, one behind the other. -/
theorem Total.bind (hfirst : Total step) (hrest : ∀ value, Total (rest value)) :
    Total (step >>= rest) := by
  intro reading
  obtain ⟨value, middle, hstep⟩ := hfirst reading
  obtain ⟨result, last, hlast⟩ := hrest value middle
  exact ⟨result, last, by rw [bind_of_ok hstep, hlast]⟩

/-- Taking a text if it is there cannot fail. -/
theorem total_accept (text : String) : Total (accept text) :=
  fun _ => ⟨_, _, accept_ok_iff.2 ⟨rfl, rfl⟩⟩

/-- Putting a span on what was read cannot fail. -/
theorem total_spanFrom {f : Span → α} (start : Nat) :
    Total (spanFrom start >>= fun span => pure (f span)) :=
  fun _ => ⟨_, _, rfl⟩

namespace SparesAt

/-! ## Rules -/

/-- More may be asked of the current token. -/
theorem narrow (h : SparesAt p Q step) (hp : ∀ token, p' token → p token) : SparesAt p' Q step :=
  ⟨fun hstart hcurrent => h.of_ok hstart (hp _ hcurrent),
    fun hstart hcurrent => h.of_error hstart (hp _ hcurrent)⟩

/-- What holds wherever the reading is holds at some tokens. -/
theorem restrict (h : SparesAt (fun _ => True) Q step) : SparesAt p Q step :=
  h.narrow fun _ _ => trivial

/-- What holds at some tokens holds at one of them. -/
theorem at_token {token : Token} (h : SparesAt p Q step) (htoken : p token) :
    SparesAt (· = token) Q step :=
  h.narrow fun _ hsame => hsame ▸ htoken

/-- A look changes nothing. -/
theorem look (view : Reading → α) : Spares (look view) where
  of_ok hstart _ hrun := by
    cases hrun
    exact hstart
  of_error _ _ hrun := by cases hrun

/-- A value that is given outright. -/
theorem give (value : α) : Spares (pure value : Read α) :=
  look fun _ => value

/-- A failure leaves everything where it is. -/
theorem fail (error : Reading → Error) : SparesAt p Q (Read.fail error : Read α) where
  of_ok _ _ hrun := by cases hrun
  of_error hstart _ hrun _ := by
    cases hrun
    exact hstart

/-- Taking a token spares the semicolon if the token is another one. -/
theorem advance :
    SparesAt (fun token => token.is ";" = false ∨ token.kind = .keyword) Reading.Unfinished
      advance where
  of_ok hstart hcurrent hrun := by
    cases hrun
    exact hstart.next hcurrent
  of_error _ _ hrun := by cases hrun

/-- Taking a token that is not the semicolon. -/
theorem advance_past : SparesAt (·.is ";" = false) Reading.Unfinished Read.advance :=
  advance.narrow fun _ => .inl

/-- A name is not the semicolon, even if it is a keyword. -/
theorem advance_name {token : Token} (h : token.isSpelled = false ∨ token.kind = .keyword) :
    SparesAt (· = token) Reading.Unfinished Read.advance := by
  refine advance.at_token (h.imp_left fun hspelled => ?_)
  simp [Token.is, hspelled]

/-- The second step is run where the first one has succeeded. -/
theorem bind_of (hfirst : SparesAt p R step)
    (hok : ∀ {value : α} {middle last : Reading} {result : β}, R middle →
      rest value middle = .ok result last → Q last)
    (herror : ∀ {value : α} {middle last : Reading} {error : Error}, R middle →
      rest value middle = .error error last → error.fatal = false → last.Unfinished) :
    SparesAt p Q (step >>= rest) where
  of_ok hstart hcurrent hrun := by
    obtain ⟨value, middle, hstep, hnext⟩ := bind_ok_iff.1 hrun
    exact hok (hfirst.of_ok hstart hcurrent hstep) hnext
  of_error hstart hcurrent hrun hfatal := by
    rcases bind_error_cases hrun with hstep | ⟨value, middle, hstep, hnext⟩
    · exact hfirst.of_error hstart hcurrent hstep hfatal
    · exact herror (hfirst.of_ok hstart hcurrent hstep) hnext hfatal

/-- A step that spares the semicolon in front of one that may read over it. -/
theorem bind (hfirst : SparesAt p Reading.Unfinished step)
    (hrest : ∀ value, SparesAt (fun _ => True) Q (rest value)) : SparesAt p Q (step >>= rest) :=
  hfirst.bind_of (fun hmiddle hnext => (hrest _).of_ok hmiddle trivial hnext)
    fun hmiddle hnext hfatal => (hrest _).of_error hmiddle trivial hnext hfatal

/-- What stands behind a step that stalls is not run. -/
theorem bind_of_stalls (hfirst : SparesAt p (fun _ => False) step) :
    SparesAt p Q (step >>= rest) :=
  hfirst.bind_of (fun hmiddle _ => hmiddle.elim) fun hmiddle _ _ => hmiddle.elim

/-- What cannot fail may stand behind the semicolon. -/
theorem bind_of_total (hfirst : SparesAt p Q step) (htotal : ∀ value, Total (rest value)) :
    SparesAt p (fun _ => True) (step >>= rest) := by
  refine hfirst.bind_of (fun _ _ => trivial) fun {value middle last error} _ hnext _ => ?_
  obtain ⟨result, after, hafter⟩ := htotal value middle
  cases hafter.symm.trans hnext

/-- A step that cannot fail may read over the semicolon. -/
theorem of_total (htotal : Total step) : SparesAt p (fun _ => True) step where
  of_ok _ _ _ := trivial
  of_error {reading later error} _ _ hrun := by
    obtain ⟨value, last, hlast⟩ := htotal reading
    cases hlast.symm.trans hrun

/-- A value that is made from the one of a step. -/
theorem map {f : α → β} (h : SparesAt p Reading.Unfinished step) :
    SparesAt p Reading.Unfinished (f <$> step) := by
  rw [map_eq_bind]
  exact h.bind fun _ => give _

/-- A step that depends on the current token. -/
theorem current_bind {rest : Token → Read β} (h : ∀ token, SparesAt (· = token) Q (rest token)) :
    SparesAt (fun _ => True) Q (current >>= rest) where
  of_ok hstart _ hrun := (h _).of_ok hstart rfl hrun
  of_error hstart _ hrun := (h _).of_error hstart rfl hrun

/-- Of a step whose errors are fatal it matters only where it succeeds. -/
theorem fatally (h : ∀ {reading later : Reading} {value : α}, reading.Unfinished →
    p reading.current → step reading = .ok value later → Q later) :
    SparesAt p Q (fatally step) where
  of_ok hstart hcurrent hrun := h hstart hcurrent (fatally_ok_iff.1 hrun)
  of_error {reading later error} _ _ hrun hfatal := by
    unfold Read.fatally at hrun
    cases hstep : step reading with
    | ok value middle => simp [hstep] at hrun
    | error failure middle =>
        rw [hstep] at hrun
        cases hrun
        cases hfatal

/-- A step that is bounded by the tokens ahead. -/
theorem bounded {step : Nat → Read α} (h : ∀ bound, SparesAt p Q (step bound)) :
    SparesAt p Q (bounded step) where
  of_ok hstart hcurrent hrun := (h _).of_ok hstart hcurrent hrun
  of_error hstart hcurrent hrun := (h _).of_error hstart hcurrent hrun

/-- A failure at the current token. -/
theorem unexpected : SparesAt p Q (unexpected : Read α) :=
  fail _

/-- A failure at the current token with a detail. -/
theorem unexpectedDetailed (detail : String) : SparesAt p Q (unexpectedDetailed detail : Read α) :=
  fail _

/-- A failure for want of levels. -/
theorem tooDeep (context : Context) : SparesAt p Q (tooDeep context : Read α) :=
  fail _

/-- A token that has to follow is read, or nothing is. -/
theorem expect_of_next (text : String) (h : ∀ {reading : Reading}, reading.Unfinished →
    reading.current.is text = true → Q reading.next) :
    SparesAt (fun _ => True) Q (expect text) where
  of_ok hstart _ hrun := by
    obtain ⟨hseen, -, rfl⟩ := expect_ok_iff.1 hrun
    exact h hstart hseen
  of_error {reading later error} hstart _ hrun _ := by
    rw [expect_eq, bind_of_ok (show Read.look _ reading = .ok (reading.current.is text) reading
      from rfl)] at hrun
    split at hrun
    · cases hrun
    · cases hrun
      exact hstart

/-- Any text but the semicolon may be asked for. -/
theorem expect {text : String} (htext : text ≠ ";") : Spares (expect text) :=
  expect_of_next text fun hstart hseen => hstart.next (.inl (Token.is_eq_false_of_ne hseen htext))

/-- If the semicolon is not there, it is still ahead. -/
theorem expect_semicolon : Falters (Read.expect ";") :=
  expect_of_next ";" fun _ _ => trivial

/-- There are no braces ahead. -/
theorem expect_brace : Stalls (Read.expect "\x7b") :=
  expect_of_next "\x7b" fun hstart hseen => by
    rw [hstart.is_brace] at hseen
    cases hseen

/-- A name is not the semicolon. -/
theorem expectIdentifier (detail : String) : Spares (expectIdentifier detail) := by
  refine current_bind fun token => ?_
  split
  next hkind => exact advance_name (.inl (by simp [Token.isSpelled, hkind]))
  next => exact unexpectedDetailed detail

/-- Any text but the semicolon may be taken if it is there. -/
theorem accept {text : String} (htext : text ≠ ";") : Spares (accept text) where
  of_ok {reading later seen} hstart _ hrun := by
    obtain ⟨hseen, rfl⟩ := accept_ok_iff.1 hrun
    cases seen with
    | false => exact hstart
    | true => exact hstart.next (.inl (Token.is_eq_false_of_ne hseen.symm htext))
  of_error {reading later error} _ _ hrun := by
    rw [accept_eq, bind_of_ok (show Read.look _ reading = .ok (reading.current.is text) reading
      from rfl)] at hrun
    split at hrun <;> cases hrun

/-- Items with commas between them. -/
theorem separated {stop : Read Bool} {item : Read α} (hstop : Spares stop) (hitem : Spares item) :
    Spares (separated stop item) := by
  refine bounded fun bound => ?_
  induction bound with
  | zero => exact give []
  | succ bound ih =>
      refine hstop.bind fun stopped => ?_
      split
      · exact give []
      · refine hitem.bind fun found => ?_
        refine (accept (by decide)).bind fun comma => ?_
        split
        · exact ih.bind fun later => give _
        · exact give _

/-! ## Expressions -/

section Phrases

variable {inner : Power → Read Expr}

/-- Every literal and name is one token, a name or a keyword. -/
theorem readPrimary (context : Context) : Spares (Expr.readPrimary context) := by
  refine current_bind fun token => ?_
  have hone : ∀ {result : Expr}, token.isSpelled = false ∨ token.kind = .keyword →
      SparesAt (· = token) Reading.Unfinished (Read.advance >>= fun _ => pure result) :=
    fun hname => (advance_name hname).bind fun _ => give _
  split
  next hkind => exact hone (.inl (by simp [Token.isSpelled, hkind]))
  next hkind =>
      split
      · exact hone (.inl (by simp [Token.isSpelled, hkind]))
      · exact unexpectedDetailed _
  next hkind => exact hone (.inl (by simp [Token.isSpelled, hkind]))
  next hkind =>
      split
      · exact hone (.inr hkind)
      split
      · exact hone (.inr hkind)
      split
      · exact hone (.inr hkind)
      · exact unexpected
  all_goals exact unexpected

variable (hinner : ∀ power, Spares (inner power))

include hinner

/-- A property of an object. -/
theorem readProperty : Spares (Expr.readProperty inner) := by
  refine current_bind fun token => ?_
  split
  next hkind =>
      have hname : token.isSpelled = false := by
        rcases hkind with hkind | hkind <;> simp [Token.isSpelled, hkind]
      refine (advance_name (.inl hname)).bind fun key => ?_
      refine (expect (by decide)).bind fun _ => ?_
      exact (hinner .default).bind fun value => give _
  next => exact unexpectedDetailed _

/-- Every form that begins an expression. -/
theorem readLead (context : Context) (form : LeadForm) :
    SparesAt (·.is ";" = false) Reading.Unfinished (Expr.readLead context inner form) := by
  cases form with
  | primary => exact (readPrimary context).restrict
  | unary =>
      refine advance_past.bind fun operator => ?_
      exact (hinner .unary).bind fun argument => give _
  | grouping =>
      refine advance_past.bind fun _ => ?_
      refine (hinner .default).bind fun content => ?_
      exact (expect (by decide)).bind fun _ => give content
  | array =>
      refine advance_past.bind fun opening => ?_
      refine (separated (look _) (hinner .default)).bind fun elements => ?_
      refine (expect (by decide)).bind fun _ => ?_
      exact (look _).bind fun span => give _
  | object =>
      refine advance_past.bind fun opening => ?_
      refine (separated (look _) (readProperty hinner)).bind fun properties => ?_
      refine (expect (by decide)).bind fun _ => ?_
      exact (look _).bind fun span => give _

/-- Every form that goes on with an expression. -/
theorem readTail (left : Expr) (power : Power) (form : TailForm) :
    SparesAt (·.is ";" = false) Reading.Unfinished (Expr.readTail inner left power form) := by
  cases form with
  | assignment =>
      show SparesAt _ _ (Expr.readAssignment inner left)
      unfold Expr.readAssignment
      split
      · refine advance_past.bind fun _ => ?_
        exact (hinner .default).bind fun value => give _
      · exact fail _
  | logical | binary =>
      refine advance_past.bind fun operator => ?_
      exact (hinner power).bind fun right => give _
  | call =>
      refine advance_past.bind fun _ => ?_
      refine (separated (look _) (hinner .default)).bind fun arguments => ?_
      refine (expect (by decide)).bind fun _ => ?_
      exact (look _).bind fun span => give _
  | member =>
      refine advance_past.bind fun _ => current_bind fun token => ?_
      split
      next hkind =>
          have hname : token.isSpelled = false ∨ token.kind = .keyword :=
            hkind.imp_left fun hidentifier => by simp [Token.isSpelled, hidentifier]
          exact (advance_name hname).bind fun property => give _
      next => exact unexpectedDetailed _

end Phrases

end SparesAt

section Grammar

variable {context : Context} (hgrammar : context.grammar.StopsAtSemicolon)

include hgrammar

mutual

/-- No expression reads over the semicolon. -/
theorem spares_expr (levels : Nat) (power : Power) : Spares (Expr.read context levels power) := by
  cases levels with
  | zero =>
      rw [Expr.read]
      exact .tooDeep context
  | succ levels =>
      rw [Expr.read]
      refine .current_bind fun token => ?_
      cases hform : context.grammar.lead? token with
      | none => exact .unexpected
      | some form =>
          have htoken : token.is ";" = false :=
            Token.not_semicolon_of_form (fun h => (hgrammar token h).1) hform
          have hlead := SparesAt.readLead (spares_expr levels) context form
          exact (hlead.at_token htoken).bind (spares_chain levels power)

/-- The same for what goes on with an expression that was read. -/
theorem spares_chain (levels : Nat) (power : Power) (left : Expr) :
    Spares (Expr.readChain context levels power left) := by
  rw [Expr.readChain.eq_def]
  refine .current_bind fun token => ?_
  cases hform : Expr.tighterTail? context power token with
  | none => exact (SparesAt.give left).restrict
  | some entry =>
      have htoken : token.is ";" = false :=
        Token.not_semicolon_of_form
          (fun h => by rw [Expr.tighterTail?, (hgrammar token h).2.1]; rfl) hform
      cases levels with
      | zero => exact .tooDeep context
      | succ levels =>
          have htail := SparesAt.readTail (spares_expr levels) left entry.1 entry.2
          exact (htail.at_token htoken).bind (spares_chain levels power)

end

end Grammar

namespace SparesAt

/-! ## Statements -/

section Sentences

variable {expr : Read Expr} {stmt : Read (Option Stmt)}

/-- The name of a type. -/
theorem tyRead : Spares Ty.read := by
  refine current_bind fun token => ?_
  split
  next hty =>
      have hkeyword : token.kind = .keyword := by
        split at hty
        next hword => exact (by simpa [Token.isTypeKeyword] using hword : _ ∧ _).1
        next => cases hty
      exact (advance_name (.inr hkeyword)).bind fun _ => give _
  next => exact unexpectedDetailed _

/-- There is no block ahead. -/
theorem blockRead (fatal : Bool) : Stalls (Block.read fatal stmt) := by
  cases fatal with
  | true => exact bind_of_stalls (fatally expect_brace.of_ok)
  | false => exact bind_of_stalls expect_brace

/-- The name and the parameters of a function. -/
theorem readFunctionHeader : Spares Stmt.readFunctionHeader := by
  refine (expectIdentifier _).bind fun name => ?_
  refine (expect (by decide)).bind fun _ => ?_
  refine (separated (look _) (expectIdentifier _).map).bind fun parameters => ?_
  exact (expect (by decide)).bind fun _ => give _

variable (hexpr : Spares expr)

include hexpr

/-- A declaration without its semicolon. -/
theorem varDeclRead :
    SparesAt (·.is ";" = false) Reading.Unfinished (VarDecl.read expr) := by
  refine SparesAt.bind ?_ fun opening => ?_
  · refine advance_past.bind fun opening => ?_
    split
    · exact (expect (by decide)).bind fun _ => give opening
    · exact give opening
  have htype : Spares VarDecl.readType := by
    refine (look _).bind fun token => ?_
    split
    · exact tyRead.map
    · exact give none
  have hvalue : Spares (VarDecl.readInitializer expr) := by
    refine (accept (by decide)).bind fun seen => ?_
    split
    · exact hexpr.map
    · exact give none
  refine htype.bind fun declaredType => ?_
  refine (expectIdentifier _).bind fun name => ?_
  refine hvalue.bind fun initializer => ?_
  exact (look _).bind fun span => give _

/-- A condition between its parentheses. -/
theorem readCondition : Spares (Stmt.readCondition expr) := by
  refine (expect (by decide)).bind fun _ => ?_
  refine hexpr.bind fun test => ?_
  exact (expect (by decide)).bind fun _ => give test

/-- What a `for` loop begins with, which leaves the semicolon behind it. -/
theorem readForInit : Spares (Stmt.readForInit expr) := by
  refine current_bind fun token => ?_
  split
  next => exact (give none).restrict
  next hsemicolon =>
      split
      next =>
          have htoken : token.is ";" = false := Bool.eq_false_iff.2 hsemicolon
          exact ((varDeclRead hexpr).at_token htoken).bind fun decl => give _
      next =>
          refine SparesAt.restrict ?_
          exact hexpr.bind fun value => (look _).bind fun span => give _

/-- The header of a `for` loop has two semicolons, and only one is ahead. -/
theorem readForHeader [Forward expr] : Stalls (Read.fatally (Stmt.readForHeader expr)) := by
  refine fatally fun {reading last header} hstart _ hrun => ?_
  obtain ⟨_, first, hopening, hrun⟩ := bind_ok_iff.1 hrun
  obtain ⟨init, second, hinit, hrun⟩ := bind_ok_iff.1 hrun
  obtain ⟨_, third, hsemicolon, hrun⟩ := bind_ok_iff.1 hrun
  obtain ⟨test, fourth, htest, hrun⟩ := bind_ok_iff.1 hrun
  obtain ⟨_, fifth, hagain, -⟩ := bind_ok_iff.1 hrun
  have hfirst := (expect (by decide)).of_ok hstart trivial hopening
  have hsecond := (readForInit hexpr).of_ok hfirst trivial hinit
  obtain ⟨hseen, -, rfl⟩ := expect_ok_iff.1 hsemicolon
  obtain ⟨-, -, hend⟩ | ⟨hnone, -⟩ := hsecond.current_cases
  · -- Behind the only semicolon no token is left for the second one.
    have hreaches := ((inferInstance : Forward (Stmt.readUnless ";" expr)).moves.of_ok htest).2
    have hahead : fourth.ahead = [] := by
      have hle := hreaches.length_le
      rwa [hend, List.length_nil, Nat.le_zero, List.length_eq_zero_iff] at hle
    have hmark : fourth.Marked := by
      refine hreaches.marked ?_
      rw [Reading.Marked, Reading.next_mark]
      exact hsecond.clean.1
    obtain ⟨hother, -⟩ := expect_ok_iff.1 hagain
    rw [is_eq_false_at_end hmark hahead] at hother
    cases hother
  · rw [Token.isAny, List.any_eq_false] at hnone
    exact hnone ";" (by simp) hseen

/-- The value of a `return` or `throw` statement. -/
theorem readResult : Spares (Stmt.readResult expr) := by
  refine (look _).bind fun ends => ?_
  refine (look _).bind fun closes => ?_
  split
  · exact give none
  · exact hexpr.map

/-- An expression statement reads over its semicolon last of all. -/
theorem readExpression : Falters (Stmt.readExpression expr) := by
  refine current_bind fun token => ?_
  split
  · refine SparesAt.restrict ?_
    exact hexpr.bind fun value => expect_semicolon.bind_of_total fun _ => total_spanFrom _
  · exact unexpected

/-- Where a statement of some form fails, it has not read its semicolon. -/
theorem readForm [Forward expr] (context : Context) (stmt : Context → Read Stmt)
    (elseIf : Read Stmt) (form : StmtForm) :
    SparesAt (·.is ";" = false) (fun _ => True)
      (Stmt.readForm context ⟨expr, stmt, elseIf⟩ form) := by
  cases form with
  | block => exact (bind_of_stalls (blockRead false)).restrict
  | varDecl =>
      refine (varDeclRead hexpr).bind fun decl => of_total ((total_accept ";").bind fun seen => ?_)
      cases seen with
      | true => exact total_spanFrom _
      | false => exact fun _ => ⟨_, _, rfl⟩
  | ifElse | whileLoop | retry =>
      refine advance_past.bind fun opening => ?_
      exact (readCondition hexpr).bind fun test => bind_of_stalls (blockRead false)
  | doWhile | tryCatch => exact advance_past.bind fun opening => bind_of_stalls (blockRead false)
  | forLoop => exact advance_past.bind fun opening => bind_of_stalls (readForHeader hexpr)
  | functionDecl =>
      refine advance_past.bind fun opening => ?_
      refine SparesAt.bind (fatally readFunctionHeader.of_ok) fun header => ?_
      exact bind_of_stalls (blockRead true)
  | classDecl =>
      refine advance_past.bind fun opening => ?_
      refine SparesAt.bind (fatally (expectIdentifier _).of_ok) fun name => ?_
      exact bind_of_stalls (blockRead true)
  | returnValue | throwValue =>
      refine advance_past.bind fun opening => ?_
      refine (readResult hexpr).bind fun value => ?_
      exact expect_semicolon.bind_of_total fun _ => total_spanFrom _
  | breakLoop | continueLoop =>
      exact advance_past.bind fun opening =>
        expect_semicolon.bind_of_total fun _ => total_spanFrom _
  | matchOn =>
      refine advance_past.bind fun opening => ?_
      exact (readCondition hexpr).bind fun discriminant => bind_of_stalls expect_brace

end Sentences

end SparesAt

/-- A statement that fails, but not for good, leaves its semicolon ahead. -/
theorem falters_stmt {context : Context} (hgrammar : context.grammar.StopsAtSemicolon)
    (levels : Nat) : Falters (Stmt.read levels context) := by
  cases levels with
  | zero =>
      rw [Stmt.read]
      exact .tooDeep context
  | succ levels =>
      rw [Stmt.read]
      have hexpr := spares_expr hgrammar levels .default
      refine .current_bind fun token => ?_
      cases hform : context.grammar.statement? token with
      | none => exact (SparesAt.readExpression hexpr).restrict
      | some form =>
          have htoken : token.is ";" = false :=
            Token.not_semicolon_of_form (fun h => (hgrammar token h).2.2) hform
          exact (SparesAt.readForm hexpr context _ _ form).at_token htoken

end Read

end ScriptLint
