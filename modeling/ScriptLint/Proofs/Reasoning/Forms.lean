import ScriptLint.Grammar.Program
import ScriptLint.Proofs.Reasoning.Logic
import ScriptLint.Proofs.Tree.Parts

/-!
# The forms in a logic of steps

Every form of the grammar is built from primitive steps and from the steps that read the phrases
inside it. So two forms are related, in any `StepLogic`, as soon as those inner steps are. A form
begins with a token of its own, and is related where a token is ahead.

What a form gives has a property that follows from one of the phrases inside it. For the expression
forms it follows from the expressions directly inside, and for the statement forms from a property
of expressions and one of statements that fit together in the sense of `Stmt.Closed`.
-/

namespace ScriptLint

/-- A property of statements that follows from a property of the expressions in them. -/
structure Stmt.Closed (E : Expr → Prop) (S : Stmt → Prop) : Prop where
  varDecl : ∀ {decl : VarDecl}, (∀ value ∈ decl.initializer, E value) → S (.varDecl decl)
  ifElse : ∀ {test consequent alternate span}, E test → (∀ stmt ∈ consequent.body, S stmt) →
    (∀ stmt ∈ alternate, S stmt) → S (.ifElse test consequent alternate span)
  whileLoop : ∀ {test body span}, E test → (∀ stmt ∈ body.body, S stmt) →
    S (.whileLoop test body span)
  doWhile : ∀ {body test span}, (∀ stmt ∈ body.body, S stmt) → E test →
    S (.doWhile body test span)
  forLoop : ∀ {init test update body span}, (∀ stmt ∈ init, S stmt) → (∀ value ∈ test, E value) →
    (∀ value ∈ update, E value) → (∀ stmt ∈ body.body, S stmt) →
    S (.forLoop init test update body span)
  functionDecl : ∀ {name parameters body span}, (∀ stmt ∈ body.body, S stmt) →
    S (.functionDecl name parameters body span)
  classDecl : ∀ {name body span}, (∀ stmt ∈ body.body, S stmt) → S (.classDecl name body span)
  returnValue : ∀ {value span}, (∀ result ∈ value, E result) → S (.returnValue value span)
  throwValue : ∀ {value span}, (∀ result ∈ value, E result) → S (.throwValue value span)
  breakLoop : ∀ {span}, S (.breakLoop span)
  continueLoop : ∀ {span}, S (.continueLoop span)
  matchOn : ∀ {discriminant cases fallback span}, E discriminant →
    (∀ arm ∈ cases, E arm.test ∧ S arm.consequent) → (∀ stmt ∈ fallback, S stmt) →
    S (.matchOn discriminant cases fallback span)
  tryCatch : ∀ {body handler finalizer span}, (∀ stmt ∈ body.body, S stmt) →
    (∀ clause ∈ handler, ∀ stmt ∈ clause.body.body, S stmt) →
    (∀ clause ∈ finalizer, ∀ stmt ∈ clause.body.body, S stmt) →
    S (.tryCatch body handler finalizer span)
  retry : ∀ {count body handler span}, E count → (∀ stmt ∈ body.body, S stmt) →
    (∀ clause ∈ handler, ∀ stmt ∈ clause.body.body, S stmt) → S (.retry count body handler span)
  expression : ∀ {value span}, E value → S (.expression value span)
  block : ∀ {content}, (∀ stmt ∈ content.body, S stmt) → S (.block content)

/-- It is enough that a statement has the property if what is directly inside it has. -/
theorem Stmt.closed_of_children {E : Expr → Prop} {S : Stmt → Prop}
    (h : ∀ stmt : Stmt, (∀ expr ∈ stmt.exprs, E expr) → (∀ child ∈ stmt.children, S child) →
      S stmt) : Stmt.Closed E S where
  varDecl hvalue := h _ (by simpa [exprs] using hvalue) (by simp [children])
  ifElse htest hbody halternate := h _ (by simpa [exprs] using htest)
    (List.forall_mem_append.2 ⟨hbody, by simpa using halternate⟩)
  whileLoop htest hbody := h _ (by simpa [exprs] using htest) hbody
  doWhile hbody htest := h _ (by simpa [exprs] using htest) hbody
  forLoop hinit htest hupdate hbody := h _
    (List.forall_mem_append.2 ⟨by simpa using htest, by simpa using hupdate⟩)
    (List.forall_mem_append.2 ⟨by simpa using hinit, hbody⟩)
  functionDecl hbody := h _ (by simp [exprs]) hbody
  classDecl hbody := h _ (by simp [exprs]) hbody
  returnValue hvalue := h _ (by simpa [exprs] using hvalue) (by simp [children])
  throwValue hvalue := h _ (by simpa [exprs] using hvalue) (by simp [children])
  breakLoop := h _ (by simp [exprs]) (by simp [children])
  continueLoop := h _ (by simp [exprs]) (by simp [children])
  matchOn hdiscriminant hcases hfallback := h _
    (List.forall_mem_cons.2 ⟨hdiscriminant,
      List.forall_mem_map.2 fun arm harm => (hcases arm harm).1⟩)
    (List.forall_mem_append.2 ⟨List.forall_mem_map.2 fun arm harm => (hcases arm harm).2,
      by simpa using hfallback⟩)
  tryCatch hbody hhandler hfinalizer := h _ (by simp [exprs])
    (List.forall_mem_append.2
      ⟨List.forall_mem_append.2 ⟨hbody, List.forall_mem_flatMap.2 (by simpa using hhandler)⟩,
        List.forall_mem_flatMap.2 (by simpa using hfinalizer)⟩)
  retry hcount hbody hhandler := h _ (by simpa [exprs] using hcount)
    (List.forall_mem_append.2 ⟨hbody, List.forall_mem_flatMap.2 (by simpa using hhandler)⟩)
  expression hvalue := h _ (by simpa [exprs] using hvalue) (by simp [children])
  block hbody := h _ (by simp [exprs]) hbody

namespace StepLogic

variable (logic : StepLogic)

/-! ## Expressions -/

section Expression

variable {inner others : Power → Read Expr} {I L : Expr → Prop}

/-- A literal or a name, which has no expression inside. -/
theorem read_primary (context : Context) (hleaf : ∀ expr : Expr, expr.children = [] → L expr) :
    logic.Ahead L (Expr.readPrimary context) (Expr.readPrimary context) := by
  have hliteral : ∀ (token : Token) (value : Literal), logic.Ahead L
      (Read.advance >>= fun _ =>
        pure (Expr.literal value (context.sourceText token.span) token.span))
      (Read.advance >>= fun _ =>
        pure (Expr.literal value (context.sourceText token.span) token.span)) := by
    intro token value
    exact logic.aheadAndThen logic.aheadAdvance fun _ _ => logic.give (hleaf _ rfl)
  refine logic.aheadLook Reading.current fun token => ?_
  cases token.kind with
  | identifier => exact logic.aheadAndThen logic.aheadAdvance fun _ _ => logic.give (hleaf _ rfl)
  | number =>
      cases Numeral.toDouble? token.value.toList with
      | some value => exact hliteral token (.number value)
      | none => exact logic.aheadFail fun _ _ => by simp [Error.ofCause]
  | string => exact hliteral token (.string token.value)
  | keyword =>
      show logic.Ahead _ (ite _ _ _) (ite _ _ _)
      split
      · exact hliteral token (.bool true)
      split
      · exact hliteral token (.bool false)
      split
      · exact hliteral token .nil
      · exact logic.ahead_unexpected
  | eof => exact logic.ahead_unexpected
  | operator => exact logic.ahead_unexpected
  | symbol => exact logic.ahead_unexpected

/-- Every way an expression may begin is related if the expressions inside it are. What it gives is
made of them, or is one of them in parentheses. -/
theorem read_lead (context : Context)
    (hmade : ∀ expr : Expr, (∀ child ∈ expr.children, I child) → L expr)
    (hgroup : ∀ expr, I expr → L expr)
    (hinner : ∀ power, logic.Always I (inner power) (others power)) (form : LeadForm) :
    logic.Ahead L (Expr.readLead context inner form) (Expr.readLead context others form) := by
  cases form with
  | primary => exact logic.read_primary context fun expr hnone => hmade expr (by simp [hnone])
  | unary =>
      refine logic.aheadAndThen logic.aheadAdvance fun operator _ => ?_
      refine logic.andThen (hinner .unary) fun argument hargument => logic.give (hmade _ ?_)
      simpa [Expr.children] using hargument
  | grouping =>
      refine logic.aheadAndThen logic.aheadAdvance fun _ _ => ?_
      refine logic.andThen (hinner .default) fun content hcontent => ?_
      exact logic.andThen (logic.expect ")") fun _ _ => logic.give (hgroup content hcontent)
  | array =>
      refine logic.aheadAndThen logic.aheadAdvance fun opening _ => ?_
      refine logic.andThen (logic.separated (logic.at_close "]") (hinner .default))
        fun elements helements => ?_
      refine logic.andThen (logic.expect "]") fun _ _ => ?_
      exact logic.andThen (logic.span_from _) fun _ _ => logic.give (hmade _ helements)
  | object =>
      have hproperty : logic.Always (fun property => I property.value) (Expr.readProperty inner)
          (Expr.readProperty others) := by
        refine logic.andThen logic.current fun token _ => ?_
        split
        · refine logic.andThen logic.advance fun key _ => ?_
          refine logic.andThen (logic.expect ":") fun _ _ => ?_
          exact logic.andThen (hinner .default) fun value hvalue => logic.give hvalue
        · exact logic.unexpected_detailed _
      refine logic.aheadAndThen logic.aheadAdvance fun opening _ => ?_
      refine logic.andThen (logic.separated (logic.at_close "\x7d") hproperty)
        fun properties hproperties => ?_
      refine logic.andThen (logic.expect "\x7d") fun _ _ => ?_
      refine logic.andThen (logic.span_from _) fun _ _ => logic.give (hmade _ ?_)
      simpa [Expr.children] using hproperties

/-- Every way an expression may go on is related if the expressions inside it are. What it gives is
made of them and of the expression it goes on with. -/
theorem read_tail {left : Expr}
    (hjoin : ∀ expr : Expr, (∀ child ∈ expr.children, child = left ∨ I child) → L expr)
    (hinner : ∀ power, logic.Always I (inner power) (others power)) (power : Power)
    (form : TailForm) :
    logic.Ahead L (Expr.readTail inner left power form) (Expr.readTail others left power form) := by
  cases form with
  | assignment =>
      show logic.Ahead _ (ite _ _ _) (ite _ _ _)
      split
      · refine logic.aheadAndThen logic.aheadAdvance fun _ _ => ?_
        refine logic.andThen (hinner .default) fun value hvalue => logic.give (hjoin _ ?_)
        simp [Expr.children, hvalue]
      · exact logic.aheadFail fun _ _ => by simp [Error.ofCause]
  | logical =>
      refine logic.aheadAndThen logic.aheadAdvance fun operator _ => ?_
      refine logic.andThen (hinner power) fun right hright => logic.give (hjoin _ ?_)
      simp [Expr.children, hright]
  | binary =>
      refine logic.aheadAndThen logic.aheadAdvance fun operator _ => ?_
      refine logic.andThen (hinner power) fun right hright => logic.give (hjoin _ ?_)
      simp [Expr.children, hright]
  | call =>
      refine logic.aheadAndThen logic.aheadAdvance fun _ _ => ?_
      refine logic.andThen (logic.separated (logic.at_close ")") (hinner .default))
        fun arguments harguments => ?_
      refine logic.andThen (logic.expect ")") fun _ _ => ?_
      refine logic.andThen (logic.span_from _) fun _ _ => logic.give (hjoin _ ?_)
      exact List.forall_mem_cons.2 ⟨.inl rfl, fun child hchild => .inr (harguments child hchild)⟩
  | member =>
      refine logic.aheadAndThen logic.aheadAdvance fun _ _ => ?_
      refine logic.andThen logic.current fun token _ => ?_
      split
      · exact logic.andThen logic.advance fun _ _ => logic.give (hjoin _ (by simp [Expr.children]))
      · exact logic.unexpected_detailed _

end Expression

/-! ## Statements -/

section Statement

variable {E : Expr → Prop} {S : Stmt → Prop} {expr exprs : Read Expr}
  {stmt stmts : Read (Option Stmt)} {elseIf elseIfs : Read Stmt}

/-- An opening brace, whether or not an error is fatal there. -/
theorem brace (fatal : Bool) (text : String) :
    logic.Ahead (fun _ => True) ((if fatal then Read.fatally else id) (Read.expect text))
      ((if fatal then Read.fatally else id) (Read.expect text)) := by
  cases fatal with
  | false => exact logic.ahead_expect text
  | true => exact logic.aheadFatally (logic.ahead_expect text)

/-- A closing brace, wherever it is asked for. -/
theorem closing_brace (fatal : Bool) (text : String) :
    logic.Always (fun _ => True) ((if fatal then Read.fatally else id) (Read.expect text))
      ((if fatal then Read.fatally else id) (Read.expect text)) := by
  cases fatal with
  | false => exact logic.expect text
  | true => exact logic.fatally (logic.expect text)

/-- What follows the opening brace of a block. -/
theorem read_block_rest (hstmt : logic.Always (∀ value ∈ ·, S value) stmt stmts) (fatal : Bool)
    (start : Nat) :
    logic.Always (fun block => ∀ value ∈ block.body, S value)
      (Read.collect (Read.atClose "\x7d") stmt >>= fun body =>
        (if fatal then Read.fatally else id) (Read.expect "\x7d") >>= fun _ =>
          Read.spanFrom start >>= fun span => pure (Block.mk body span))
      (Read.collect (Read.atClose "\x7d") stmts >>= fun body =>
        (if fatal then Read.fatally else id) (Read.expect "\x7d") >>= fun _ =>
          Read.spanFrom start >>= fun span => pure (Block.mk body span)) := by
  refine logic.andThen (logic.collect (logic.at_close "\x7d") hstmt) fun body hbody => ?_
  refine logic.andThen (logic.closing_brace fatal "\x7d") fun _ _ => ?_
  exact logic.andThen (logic.span_from start) fun _ _ => logic.give hbody

/-- The statements of a block have the property. -/
theorem read_block (hstmt : logic.Always (∀ value ∈ ·, S value) stmt stmts) (fatal : Bool) :
    logic.Always (fun block => ∀ value ∈ block.body, S value) (Block.read fatal stmt)
      (Block.read fatal stmts) :=
  logic.andThen (logic.closing_brace fatal "\x7b") fun opening _ =>
    logic.read_block_rest hstmt fatal opening.span.start

/-- The same where a token is ahead, which is the opening brace or an error. -/
theorem ahead_read_block (hstmt : logic.Always (∀ value ∈ ·, S value) stmt stmts) (fatal : Bool) :
    logic.Ahead (fun block => ∀ value ∈ block.body, S value) (Block.read fatal stmt)
      (Block.read fatal stmts) :=
  logic.aheadAndThen (logic.brace fatal "\x7b") fun opening _ =>
    logic.read_block_rest hstmt fatal opening.span.start

/-- The name of a type. -/
theorem read_type : logic.Always (fun _ => True) Ty.read Ty.read := by
  refine logic.andThen logic.current fun token _ => ?_
  split
  · exact logic.andThen logic.advance fun _ _ => logic.give trivial
  · exact logic.unexpected_detailed _

/-- What follows the keywords of a variable declaration. -/
theorem read_variable_rest (hexpr : logic.Always E expr exprs) (opening : Token) :
    logic.Always (fun decl => ∀ value ∈ decl.initializer, E value)
      (do let declaredType ← VarDecl.readType
          let name ← Read.expectIdentifier "expected identifier during variable declaration"
          let initializer ← VarDecl.readInitializer expr
          let span ← Read.spanFrom opening.span.start
          return VarDecl.mk name.value (opening.is "static") declaredType initializer span)
      (do let declaredType ← VarDecl.readType
          let name ← Read.expectIdentifier "expected identifier during variable declaration"
          let initializer ← VarDecl.readInitializer exprs
          let span ← Read.spanFrom opening.span.start
          return VarDecl.mk name.value (opening.is "static") declaredType initializer span) := by
  have htype : logic.Always (fun _ => True) VarDecl.readType VarDecl.readType := by
    refine logic.andThen logic.current fun token _ => ?_
    split
    · exact logic.map logic.read_type fun _ _ => trivial
    · exact logic.give trivial
  have hinitializer : logic.Always (∀ value ∈ ·, E value) (VarDecl.readInitializer expr)
      (VarDecl.readInitializer exprs) := by
    refine logic.andThen (logic.accept "=") fun seen _ => ?_
    split
    · exact logic.map hexpr fun value hvalue => by simpa using hvalue
    · exact logic.give (by simp)
  refine logic.andThen htype fun declaredType _ => ?_
  refine logic.andThen (logic.expect_identifier _) fun name _ => ?_
  refine logic.andThen hinitializer fun initializer hvalue => ?_
  exact logic.andThen (logic.span_from _) fun _ _ => logic.give hvalue

/-- The first value of a declaration has the property, if there is one. -/
theorem read_variable (hexpr : logic.Always E expr exprs) :
    logic.Always (fun decl => ∀ value ∈ decl.initializer, E value) (VarDecl.read expr)
      (VarDecl.read exprs) := by
  refine logic.andThen (P := fun _ => True) (logic.andThen logic.advance fun opening _ => ?_)
    fun opening _ => logic.read_variable_rest hexpr opening
  split
  · exact logic.andThen (logic.expect "var") fun _ _ => logic.give trivial
  · exact logic.give trivial

/-- The same where a token is ahead. -/
theorem ahead_read_variable (hexpr : logic.Always E expr exprs) :
    logic.Ahead (fun decl => ∀ value ∈ decl.initializer, E value) (VarDecl.read expr)
      (VarDecl.read exprs) := by
  refine logic.aheadAndThen (P := fun _ => True)
    (logic.aheadAndThen logic.aheadAdvance fun opening _ => ?_)
    fun opening _ => logic.read_variable_rest hexpr opening
  split
  · exact logic.andThen (logic.expect "var") fun _ _ => logic.give trivial
  · exact logic.give trivial

/-- The expression of a condition has the property. -/
theorem read_condition (hexpr : logic.Always E expr exprs) :
    logic.Always E (Stmt.readCondition expr) (Stmt.readCondition exprs) := by
  refine logic.andThen (logic.expect "(") fun _ _ => ?_
  refine logic.andThen hexpr fun test htest => ?_
  exact logic.andThen (logic.expect ")") fun _ _ => logic.give htest

/-- An expression that may be left out has the property if it is there. -/
theorem read_unless (close : String) (hexpr : logic.Always E expr exprs) :
    logic.Always (∀ value ∈ ·, E value) (Stmt.readUnless close expr)
      (Stmt.readUnless close exprs) := by
  refine logic.andThen (logic.sees close) fun seen _ => ?_
  split
  · exact logic.give (by simp)
  · exact logic.map hexpr fun value hvalue => by simpa using hvalue

/-- The value of a `return` or `throw` statement has the property if it is there. -/
theorem read_result (hexpr : logic.Always E expr exprs) :
    logic.Always (∀ value ∈ ·, E value) (Stmt.readResult expr) (Stmt.readResult exprs) := by
  refine logic.andThen (logic.sees ";") fun semicolon _ => ?_
  refine logic.andThen (logic.at_close "\x7d") fun closed _ => ?_
  split
  · exact logic.give (by simp)
  · exact logic.map hexpr fun value hvalue => by simpa using hvalue

/-- The name and the parameters of a function. -/
theorem read_function_header :
    logic.Always (fun _ => True) Stmt.readFunctionHeader Stmt.readFunctionHeader := by
  refine logic.andThen (logic.expect_identifier _) fun name _ => ?_
  refine logic.andThen (logic.expect "(") fun _ _ => ?_
  have hname : logic.Always (fun _ => True)
      (Token.value <$> Read.expectIdentifier "expected parameter name")
      (Token.value <$> Read.expectIdentifier "expected parameter name") :=
    logic.map (logic.expect_identifier _) fun _ _ => trivial
  refine logic.andThen (logic.separated (logic.sees ")") hname) fun _ _ => ?_
  exact logic.andThen (logic.expect ")") fun _ _ => logic.give trivial

/-- The statements of a handler have the property. -/
theorem read_catch (hstmt : logic.Always (∀ value ∈ ·, S value) stmt stmts) :
    logic.Always (fun clause => ∀ value ∈ clause.body.body, S value) (CatchClause.read stmt)
      (CatchClause.read stmts) := by
  refine logic.andThen logic.advance fun opening _ => ?_
  refine logic.andThen (logic.expect "(") fun _ _ => ?_
  refine logic.andThen (logic.expect_identifier _) fun parameter _ => ?_
  refine logic.andThen (logic.expect ")") fun _ _ => ?_
  refine logic.andThen (logic.read_block hstmt false) fun body hbody => ?_
  exact logic.andThen (logic.span_from _) fun _ _ => logic.give hbody

/-- The statements of a handler have the property if there is one. -/
theorem read_handler (hstmt : logic.Always (∀ value ∈ ·, S value) stmt stmts) :
    logic.Always (∀ clause ∈ ·, ∀ value ∈ clause.body.body, S value) (Stmt.readHandler stmt)
      (Stmt.readHandler stmts) := by
  refine logic.andThen (logic.sees "catch") fun seen _ => ?_
  split
  · exact logic.map (logic.read_catch hstmt) fun clause hclause => by simpa using hclause
  · exact logic.give (by simp)

/-- The statements of a closing part have the property if there is one. -/
theorem read_finalizer (hstmt : logic.Always (∀ value ∈ ·, S value) stmt stmts) :
    logic.Always (∀ clause ∈ ·, ∀ value ∈ clause.body.body, S value) (Stmt.readFinalizer stmt)
      (Stmt.readFinalizer stmts) := by
  have hclause : logic.Always (fun clause => ∀ value ∈ clause.body.body, S value)
      (FinallyClause.read stmt) (FinallyClause.read stmts) := by
    refine logic.andThen logic.advance fun opening _ => ?_
    refine logic.andThen (logic.read_block hstmt false) fun body hbody => ?_
    exact logic.andThen (logic.span_from _) fun _ _ => logic.give hbody
  refine logic.andThen (logic.sees "finally") fun seen _ => ?_
  split
  · exact logic.map hclause fun clause hbody => by simpa using hbody
  · exact logic.give (by simp)

/-- The alternate of a conditional has the property if there is one. -/
theorem read_alternate (closed : Stmt.Closed E S)
    (hstmt : logic.Always (∀ value ∈ ·, S value) stmt stmts)
    (helse : logic.Always S elseIf elseIfs) :
    logic.Always (∀ value ∈ ·, S value) (Stmt.readAlternate stmt elseIf)
      (Stmt.readAlternate stmts elseIfs) := by
  have helseIf : logic.Always (∀ value ∈ ·, S value) (some <$> elseIf) (some <$> elseIfs) :=
    logic.map helse fun value hvalue => by simpa using hvalue
  refine logic.andThen (logic.accept "else") fun seen _ => ?_
  split
  · refine logic.andThen (logic.sees "if") fun seen _ => ?_
    split
    · exact helseIf
    · refine logic.map (logic.map (logic.read_block hstmt false) fun body hbody => ?_)
        fun value (hvalue : S value) => by simpa using hvalue
      exact closed.block hbody
  · refine logic.andThen (logic.sees "elif") fun seen _ => ?_
    split
    · exact helseIf
    · exact logic.give (by simp)

/-- A conditional, from its expression and the statements inside it. -/
theorem read_if_else (closed : Stmt.Closed E S) (hexpr : logic.Always E expr exprs)
    (hstmt : logic.Always (∀ value ∈ ·, S value) stmt stmts)
    (helse : logic.Always S elseIf elseIfs) :
    logic.Ahead S (Stmt.readIfElse expr stmt elseIf) (Stmt.readIfElse exprs stmts elseIfs) := by
  refine logic.aheadAndThen logic.aheadAdvance fun opening _ => ?_
  refine logic.andThen (logic.read_condition hexpr) fun test htest => ?_
  refine logic.andThen (logic.read_block hstmt false) fun consequent hconsequent => ?_
  refine logic.andThen (logic.read_alternate closed hstmt helse) fun alternate halternate => ?_
  exact logic.andThen (logic.span_from _) fun _ _ =>
    logic.give (closed.ifElse htest hconsequent halternate)

/-- The three parts of the header of a `for` loop have their properties. -/
theorem read_for_header (closed : Stmt.Closed E S) (hexpr : logic.Always E expr exprs) :
    logic.Always (fun header => (∀ value ∈ header.1, S value) ∧ (∀ value ∈ header.2.1, E value) ∧
      ∀ value ∈ header.2.2, E value) (Stmt.readForHeader expr) (Stmt.readForHeader exprs) := by
  have hinit : logic.Always (∀ value ∈ ·, S value) (Stmt.readForInit expr)
      (Stmt.readForInit exprs) := by
    refine logic.andThen logic.current fun token _ => ?_
    split
    · exact logic.give (by simp)
    split
    · refine logic.andThen (logic.read_variable hexpr) fun decl hdecl => logic.give ?_
      simpa using closed.varDecl hdecl
    · refine logic.andThen hexpr fun value hvalue => ?_
      refine logic.andThen (logic.span_from _) fun span _ => logic.give ?_
      simpa using closed.expression hvalue
  refine logic.andThen (logic.expect "(") fun _ _ => ?_
  refine logic.andThen hinit fun init hinit => ?_
  refine logic.andThen (logic.expect ";") fun _ _ => ?_
  refine logic.andThen (logic.read_unless ";" hexpr) fun test htest => ?_
  refine logic.andThen (logic.expect ";") fun _ _ => ?_
  refine logic.andThen (logic.read_unless ")" hexpr) fun update hupdate => ?_
  exact logic.andThen (logic.expect ")") fun _ _ => logic.give ⟨hinit, htest, hupdate⟩

/-- What an arm of a `match` statement gives. -/
def ArmHas (E : Expr → Prop) (S : Stmt → Prop) : MatchArm → Prop
  | .test content => E content.test ∧ S content.consequent
  | .otherwise body _ => S body

/-- The expression and the statement of an arm have their properties. -/
theorem read_arm {single singles : Read Stmt} (closed : Stmt.Closed E S)
    (hexpr : logic.Always E expr exprs) (hsingle : logic.Always S single singles)
    (hstmt : logic.Always (∀ value ∈ ·, S value) stmt stmts) :
    logic.Always (ArmHas E S) (MatchArm.read expr single stmt)
      (MatchArm.read exprs singles stmts) := by
  have hbody : logic.Always S (MatchArm.readBody single stmt)
      (MatchArm.readBody singles stmts) := by
    refine logic.andThen (logic.sees "\x7b") fun seen _ => ?_
    split
    · exact logic.map (logic.read_block hstmt false) fun body hbody => closed.block hbody
    · exact hsingle
  refine logic.andThen (logic.sees "case") fun seen _ => ?_
  split
  · refine logic.andThen logic.advance fun opening _ => ?_
    refine logic.andThen hexpr fun test htest => ?_
    refine logic.andThen (logic.expect "=>") fun _ _ => ?_
    refine logic.andThen hbody fun consequent hconsequent => ?_
    exact logic.andThen (logic.span_from _) fun _ _ => logic.give ⟨htest, hconsequent⟩
  refine logic.andThen (logic.sees "default") fun seen _ => ?_
  split
  · refine logic.andThen logic.advance fun opening _ => ?_
    refine logic.andThen (logic.expect "=>") fun _ _ => ?_
    exact logic.andThen hbody fun body hbody => logic.give hbody
  · exact logic.unexpected_detailed _

/-- All arms have the property, by induction on the bound of the loop. -/
theorem collect_arms {arm arms : Read (Option MatchArm)}
    (harm : logic.Always (∀ value ∈ ·, ArmHas E S value) arm arms) (seen : Bool) (bound : Nat) :
    logic.Always (fun found => (∀ case ∈ found.1, E case.test ∧ S case.consequent) ∧
      ∀ value ∈ found.2, S value)
      (MatchArm.collectFrom arm seen bound) (MatchArm.collectFrom arms seen bound) := by
  induction bound generalizing seen with
  | zero => exact logic.give (by simp)
  | succ bound ih =>
      refine logic.andThen (logic.at_close "\x7d") fun stopped _ => ?_
      split
      · exact logic.give (by simp)
      refine logic.andThen harm fun found hfound => ?_
      rcases found with _ | ⟨content⟩ | ⟨body, keyword⟩
      · exact ih seen
      · refine logic.andThen (ih seen) fun later hlater => logic.give ⟨?_, hlater.2⟩
        exact List.forall_mem_cons.2 ⟨hfound _ rfl, hlater.1⟩
      · show logic.Always _ (ite _ _ _) (ite _ _ _)
        split
        · exact logic.andThen (logic.record _) fun _ _ => ih seen
        · refine logic.andThen (ih true) fun later hlater => logic.give ⟨hlater.1, ?_⟩
          intro value hvalue
          obtain rfl := Option.some.inj hvalue
          exact hfound _ rfl

/-- Every form of a statement is related if the phrases inside it are. -/
theorem read_form {inner others : Stmt.Inner} (closed : Stmt.Closed E S) (context : Context)
    (hexpr : logic.Always E inner.expr others.expr)
    (hstmt : ∀ inMatch, logic.Always S (inner.stmt { context with inMatch := inMatch })
      (others.stmt { context with inMatch := inMatch }))
    (helse : logic.Always S inner.elseIf others.elseIf) (form : StmtForm) :
    logic.Ahead S (Stmt.readForm context inner form) (Stmt.readForm context others form) := by
  have hrecovered := logic.recovering context (hstmt context.inMatch)
  have hblock := logic.read_block hrecovered false
  cases form with
  | block =>
      exact logic.ahead_map (logic.ahead_read_block hrecovered false)
        fun _ hbody => closed.block hbody
  | varDecl =>
      refine logic.aheadAndThen (logic.ahead_read_variable hexpr) fun decl hdecl => ?_
      refine logic.andThen (logic.accept ";") fun seen _ => ?_
      split
      · refine logic.andThen (logic.span_from _) fun span _ => logic.give ?_
        exact closed.varDecl hdecl
      · exact logic.andThen (logic.record _) fun _ _ => logic.give (closed.varDecl hdecl)
  | ifElse => exact logic.read_if_else closed hexpr hrecovered helse
  | whileLoop =>
      refine logic.aheadAndThen logic.aheadAdvance fun opening _ => ?_
      refine logic.andThen (logic.read_condition hexpr) fun test htest => ?_
      refine logic.andThen hblock fun body hbody => ?_
      exact logic.andThen (logic.span_from _) fun _ _ => logic.give (closed.whileLoop htest hbody)
  | doWhile =>
      refine logic.aheadAndThen logic.aheadAdvance fun opening _ => ?_
      refine logic.andThen hblock fun body hbody => ?_
      refine logic.andThen (logic.expect "while") fun _ _ => ?_
      refine logic.andThen (logic.read_condition hexpr) fun test htest => ?_
      refine logic.andThen (logic.accept ";") fun _ _ => ?_
      exact logic.andThen (logic.span_from _) fun _ _ => logic.give (closed.doWhile hbody htest)
  | forLoop =>
      refine logic.aheadAndThen logic.aheadAdvance fun opening _ => ?_
      have hheader := logic.fatally (logic.read_for_header closed hexpr)
      refine logic.andThen hheader fun header hheader => ?_
      refine logic.andThen hblock fun body hbody => ?_
      refine logic.andThen (logic.span_from _) fun _ _ => logic.give ?_
      exact closed.forLoop hheader.1 hheader.2.1 hheader.2.2 hbody
  | functionDecl =>
      refine logic.aheadAndThen logic.aheadAdvance fun opening _ => ?_
      refine logic.andThen (logic.fatally logic.read_function_header) fun header _ => ?_
      refine logic.andThen (logic.read_block hrecovered true) fun body hbody => ?_
      exact logic.andThen (logic.span_from _) fun _ _ => logic.give (closed.functionDecl hbody)
  | classDecl =>
      refine logic.aheadAndThen logic.aheadAdvance fun opening _ => ?_
      refine logic.andThen (logic.fatally (logic.expect_identifier _)) fun name _ => ?_
      refine logic.andThen (logic.read_block hrecovered true) fun body hbody => ?_
      exact logic.andThen (logic.span_from _) fun _ _ => logic.give (closed.classDecl hbody)
  | returnValue =>
      refine logic.aheadAndThen logic.aheadAdvance fun opening _ => ?_
      refine logic.andThen (logic.read_result hexpr) fun value hvalue => ?_
      refine logic.andThen (logic.expect ";") fun _ _ => ?_
      exact logic.andThen (logic.span_from _) fun _ _ => logic.give (closed.returnValue hvalue)
  | throwValue =>
      refine logic.aheadAndThen logic.aheadAdvance fun opening _ => ?_
      refine logic.andThen (logic.read_result hexpr) fun value hvalue => ?_
      refine logic.andThen (logic.expect ";") fun _ _ => ?_
      exact logic.andThen (logic.span_from _) fun _ _ => logic.give (closed.throwValue hvalue)
  | breakLoop =>
      refine logic.aheadAndThen logic.aheadAdvance fun opening _ => ?_
      refine logic.andThen (logic.expect ";") fun _ _ => ?_
      exact logic.andThen (logic.span_from _) fun _ _ => logic.give closed.breakLoop
  | continueLoop =>
      refine logic.aheadAndThen logic.aheadAdvance fun opening _ => ?_
      refine logic.andThen (logic.expect ";") fun _ _ => ?_
      exact logic.andThen (logic.span_from _) fun _ _ => logic.give closed.continueLoop
  | matchOn =>
      have harm := logic.recovering context.enterMatch (logic.read_arm closed hexpr
        (hstmt true) (logic.recovering context.enterMatch (hstmt true)))
      refine logic.aheadAndThen logic.aheadAdvance fun opening _ => ?_
      refine logic.andThen (logic.read_condition hexpr) fun discriminant htest => ?_
      refine logic.andThen (logic.expect "\x7b") fun _ _ => ?_
      refine logic.andThen (logic.bounded (logic.collect_arms harm false)) fun found hfound => ?_
      refine logic.andThen (logic.expect "\x7d") fun _ _ => ?_
      refine logic.andThen (logic.span_from _) fun _ _ => logic.give ?_
      exact closed.matchOn htest hfound.1 hfound.2
  | tryCatch =>
      refine logic.aheadAndThen logic.aheadAdvance fun opening _ => ?_
      refine logic.andThen hblock fun body hbody => ?_
      refine logic.andThen (logic.read_handler hrecovered) fun handler hhandler => ?_
      refine logic.andThen (logic.read_finalizer hrecovered) fun finalizer hfinal => ?_
      exact logic.andThen (logic.span_from _) fun _ _ =>
        logic.give (closed.tryCatch hbody hhandler hfinal)
  | retry =>
      refine logic.aheadAndThen logic.aheadAdvance fun opening _ => ?_
      refine logic.andThen (logic.read_condition hexpr) fun count hcount => ?_
      refine logic.andThen hblock fun body hbody => ?_
      refine logic.andThen (logic.read_handler hrecovered) fun handler hhandler => ?_
      exact logic.andThen (logic.span_from _) fun _ _ =>
        logic.give (closed.retry hcount hbody hhandler)

/-- A statement that is an expression is related if the expression is, where a token is ahead. -/
theorem read_expression (closed : Stmt.Closed E S) (hexpr : logic.Ahead E expr exprs) :
    logic.Ahead S (Stmt.readExpression expr) (Stmt.readExpression exprs) := by
  refine logic.aheadLook Reading.current fun token => ?_
  split
  · refine logic.aheadAndThen hexpr fun value hvalue => ?_
    refine logic.andThen (logic.expect ";") fun _ _ => ?_
    exact logic.andThen (logic.span_from _) fun _ _ => logic.give (closed.expression hvalue)
  · exact logic.ahead_unexpected

/-- Two programs are related if their statements are. -/
theorem read_statements {context other : Context} {levels more : Nat}
    (hstmt : logic.Always (∀ value ∈ ·, S value) (Stmt.readRecovering levels context)
      (Stmt.readRecovering more other)) :
    logic.Always (∀ value ∈ ·, S value) (Program.readStatements context levels)
      (Program.readStatements other more) := by
  refine logic.collect ?_ hstmt
  exact logic.map (logic.look fun reading => !reading.ahead.isEmpty) fun _ _ => trivial

end Statement

end StepLogic

end ScriptLint
