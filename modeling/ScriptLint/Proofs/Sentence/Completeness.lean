import ScriptLint.Proofs.Sentence.CompleteParts

/-!
# Sentences are read

Where the tokens of a sentence are ahead and the token behind them does not go on with it, a reader
with two levels more than there are tokens reads it. There is one lemma for each form of statement;
behind its first token a form has one token less ahead, and one level less to read what is inside.
-/

namespace ScriptLint

open Reading Read

variable {sourceText : Span → String} {expr : Read Expr} {stmt : Read (Option Stmt)}
  {elseIf : Read Stmt} {size : Nat} {reading later : Reading} {tokens : List Token} {result : Stmt}

/-! ## Statement forms -/

/-- The step reads every conditional behind which the statement does not go on. -/
def AcceptsConditional (sourceText : Span → String) (elseIf : Read Stmt) (size : Nat) : Prop :=
  Accepts elseIf size (fun tokens value => ∃ text, Conditional sourceText text tokens value)
    fun token => token.goesOn = false

/-- What stands behind the consequent of a conditional is read, or nothing. -/
theorem Stmt.readAlternate_accepts (hstmt : AcceptsSentence sourceText stmt size)
    (helse : AcceptsConditional sourceText elseIf size) :
    Accepts (Stmt.readAlternate stmt elseIf) size (Alternate sourceText)
      fun token => token.goesOn = false := by
  intro reading alternate later tokens hwithin hgood hpasses hfollow
  cases hgood with
  | none =>
      obtain rfl := passes_nil_iff.1 hpasses
      rw [Stmt.readAlternate,
        bind_of_ok (accept_of_not (Token.is_eq_false_of_goesOn hfollow (by simp))),
        if_neg (by simp), bind_of_ok (by rfl), Token.is_eq_false_of_goesOn hfollow (by simp)]
      rfl
  | block hkeyword hbraced =>
      obtain ⟨first, hfirst, hblock⟩ := passes_cons_split.1 hpasses
      have hrun := Block.read_accepts hstmt false _ _ _ _ (hfirst.within hwithin) hbraced hblock
        trivial
      -- Behind `else` a brace tells a block from a conditional.
      have hif : first.current.is "if" = false := by
        obtain ⟨hopening, _, _, rfl⟩ := hbraced
        obtain ⟨_, hvalue⟩ := Token.is_iff.1 hopening
        simp [hblock.current_eq, Token.is, hvalue]
      rw [Stmt.readAlternate, bind_of_ok (accept_of_passes hkeyword hfirst), if_pos rfl,
        bind_of_ok (by rfl), hif, if_neg (by simp)]
      exact map_ok_iff.2 ⟨_, map_ok_iff.2 ⟨_, hrun, rfl⟩, rfl⟩
  | elseIf hkeyword hconditional =>
      obtain ⟨first, hfirst, hrest⟩ := passes_cons_split.1 hpasses
      have hrun := helse _ _ _ _ (hfirst.within hwithin) ⟨_, hconditional⟩ hrest hfollow
      have hif : first.current.is "if" = true := by
        obtain ⟨his, _, _, _, rfl⟩ := hconditional
        rw [hrest.current_eq, his]
      rw [Stmt.readAlternate, bind_of_ok (accept_of_passes hkeyword hfirst), if_pos rfl,
        bind_of_ok (by rfl), hif, if_pos rfl]
      exact map_ok_iff.2 ⟨_, hrun, rfl⟩
  | elif hconditional =>
      have hrun := helse _ _ _ _ hwithin ⟨_, hconditional⟩ hpasses hfollow
      obtain ⟨hkeyword, _, _, _, rfl⟩ := hconditional
      obtain ⟨_, hvalue⟩ := Token.is_iff.1 hkeyword
      have helif : reading.current.is "elif" = true := by rw [hpasses.current_eq, hkeyword]
      have hnot : reading.current.is "else" = false := by
        simp [hpasses.current_eq, Token.is, hvalue]
      rw [Stmt.readAlternate, bind_of_ok (accept_of_not hnot), if_neg (by simp),
        bind_of_ok (by rfl), helif, if_pos rfl]
      exact map_ok_iff.2 ⟨_, hrun, rfl⟩

section Forms

variable (hexpr : Accepts expr size (Phrase sourceText .assign) Token.NoTail)
  (hstmt : AcceptsSentence sourceText stmt size) (hwithin : reading.Within (size + 1))
  (hpasses : reading.Passes tokens later)

include hwithin hpasses

include hexpr hstmt in
/-- A conditional is read, whichever keyword it begins with. -/
theorem Stmt.readIfElse_accepts (helse : AcceptsConditional sourceText elseIf size) {text : String}
    (hgood : Conditional sourceText text tokens result) (hfollow : later.current.goesOn = false) :
    Stmt.readIfElse expr stmt elseIf reading = .ok result later := by
  have hwhole := hpasses
  obtain ⟨hkeyword, hcondition, hbraced, halternate, rfl⟩ := hgood
  obtain ⟨first, hfirst, hpasses⟩ := passes_cons_split.1 hpasses
  obtain ⟨second, hinside, hpasses⟩ := passes_append_iff.1 hpasses
  obtain ⟨third, hblock, hbehind⟩ := passes_append_iff.1 hpasses
  have h1 := hfirst.within_of_succ hwithin
  have h2 := hinside.within h1
  rw [Stmt.readIfElse, bind_of_ok (advance_of_passes hfirst),
    bind_of_ok (Stmt.readCondition_accepts hexpr _ _ _ _ h1 hcondition hinside trivial),
    bind_of_ok (Block.read_accepts hstmt false _ _ _ _ h2 hbraced hblock trivial),
    bind_of_ok (Stmt.readAlternate_accepts hstmt helse _ _ _ _ (hblock.within h2) halternate
      hbehind hfollow)]
  exact spanned_ok_iff.2 ⟨by rw [hwhole.spanFrom], rfl⟩

/-- A declaration is read with its semicolon. -/
theorem Stmt.readVarDecl_accepts
    (hwide : Accepts expr (size + 1) (Phrase sourceText .assign) Token.NoTail) (context : Context)
    {front : List Token} {semicolon : Token} {decl : VarDecl}
    (hdeclaration : Declaration sourceText front decl) (hsemicolon : semicolon.is ";" = true)
    (htokens : tokens = front ++ [semicolon]) :
    Stmt.readVarDecl context expr reading =
      .ok (.varDecl { decl with span := Span.ofTokens tokens }) later := by
  subst htokens
  have hwhole := hpasses
  obtain ⟨first, hfront, hlast⟩ := passes_append_iff.1 hpasses
  have htail := Token.noTail_of_is (hlast.current_eq ▸ hsemicolon) rfl
  have hrun := VarDecl.read_accepts hwide _ _ _ _ hwithin hdeclaration hfront htail
  obtain ⟨opening, rest, rfl, _, hspan⟩ := hdeclaration.starts
  have hstart : decl.span.start = opening.span.start := by rw [hspan]; rfl
  rw [Stmt.readVarDecl, bind_of_ok hrun, bind_of_ok (accept_of_passes hsemicolon hlast),
    if_pos rfl, hstart]
  exact spanned_ok_iff.2 ⟨by rw [hwhole.spanFrom]; rfl, rfl⟩

/-- An expression statement is read. Its expression begins with the first token of the statement. -/
theorem Stmt.readExpression_accepts
    (hwide : Accepts expr (size + 1) (Phrase sourceText .assign) Token.NoTail)
    {name semicolon : Token} {rest : List Token} {value : Expr} (hkind : name.kind = .identifier)
    (hphrase : Phrase sourceText .assign (name :: rest) value)
    (hsemicolon : semicolon.is ";" = true) (htokens : tokens = name :: (rest ++ [semicolon])) :
    Stmt.readExpression expr reading = .ok (.expression value (Span.ofTokens tokens)) later := by
  subst htokens
  have hwhole := hpasses
  obtain ⟨first, hinside, hlast⟩ := passes_append_iff.1
    (show reading.Passes ((name :: rest) ++ [semicolon]) later from hpasses)
  have htail := Token.noTail_of_is (hlast.current_eq ▸ hsemicolon) rfl
  rw [Stmt.readExpression, bind_of_ok (by rfl), hpasses.current_eq, if_pos hkind,
    bind_of_ok (hwide _ _ _ _ hwithin hphrase hinside htail),
    bind_of_ok (expect_of_passes hsemicolon hlast)]
  exact spanned_ok_iff.2 ⟨by rw [hwhole.spanFrom], rfl⟩

include hexpr hstmt in
/-- A `while` loop is read. -/
theorem Stmt.readWhileLoop_accepts {keyword : Token} {condition block : List Token} {test : Expr}
    {body : Block Stmt} (hcondition : Condition sourceText condition test)
    (hbraced : Braced sourceText block body) (htokens : tokens = keyword :: (condition ++ block)) :
    Stmt.readWhileLoop expr stmt reading =
      .ok (.whileLoop test body (Span.ofTokens tokens)) later := by
  subst htokens
  have hwhole := hpasses
  obtain ⟨first, hfirst, hpasses⟩ := passes_cons_split.1 hpasses
  obtain ⟨second, hinside, hblock⟩ := passes_append_iff.1 hpasses
  have h1 := hfirst.within_of_succ hwithin
  rw [Stmt.readWhileLoop, bind_of_ok (advance_of_passes hfirst),
    bind_of_ok (Stmt.readCondition_accepts hexpr _ _ _ _ h1 hcondition hinside trivial),
    bind_of_ok (Block.read_accepts hstmt false _ _ _ _ (hinside.within h1) hbraced hblock trivial)]
  exact spanned_ok_iff.2 ⟨by rw [hwhole.spanFrom], rfl⟩

include hexpr hstmt in
/-- A `do` loop is read, with its semicolon if there is one. -/
theorem Stmt.readDoWhile_accepts {keyword middle : Token} {condition block ending : List Token}
    {test : Expr} {body : Block Stmt} (hbraced : Braced sourceText block body)
    (hmiddle : middle.is "while" = true) (hcondition : Condition sourceText condition test)
    (hending : ending = [] ∨ ∃ semicolon : Token, semicolon.is ";" = true ∧ ending = [semicolon])
    (htokens : tokens = keyword :: (block ++ middle :: (condition ++ ending)))
    (hfollow : later.current.goesOn = false) :
    Stmt.readDoWhile expr stmt reading =
      .ok (.doWhile body test (Span.ofTokens tokens)) later := by
  subst htokens
  have hwhole := hpasses
  obtain ⟨first, hfirst, hpasses⟩ := passes_cons_split.1 hpasses
  obtain ⟨second, hblock, hpasses⟩ := passes_append_iff.1 hpasses
  obtain ⟨third, hwhile, hpasses⟩ := passes_cons_split.1 hpasses
  obtain ⟨fourth, hinside, hlast⟩ := passes_append_iff.1 hpasses
  have h1 := hfirst.within_of_succ hwithin
  have h3 := hwhile.within (hblock.within h1)
  -- A semicolon that belongs to the loop is read, and no other one can be behind it.
  obtain ⟨seen, hseen⟩ : ∃ seen, accept ";" fourth = .ok seen later := by
    rcases hending with rfl | ⟨semicolon, hsemicolon, rfl⟩
    · obtain rfl := passes_nil_iff.1 hlast
      exact ⟨_, accept_of_not (Token.is_eq_false_of_goesOn hfollow (by simp))⟩
    · exact ⟨_, accept_of_passes hsemicolon hlast⟩
  rw [Stmt.readDoWhile, bind_of_ok (advance_of_passes hfirst),
    bind_of_ok (Block.read_accepts hstmt false _ _ _ _ h1 hbraced hblock trivial),
    bind_of_ok (expect_of_passes hmiddle hwhile),
    bind_of_ok (Stmt.readCondition_accepts hexpr _ _ _ _ h3 hcondition hinside trivial),
    bind_of_ok hseen]
  exact spanned_ok_iff.2 ⟨by rw [hwhole.spanFrom], rfl⟩

include hexpr hstmt in
/-- A `for` loop is read. -/
theorem Stmt.readForLoop_accepts {keyword : Token} {header block : List Token}
    {init : Option Stmt} {test update : Option Expr} {body : Block Stmt}
    (hheader : ForHeader sourceText header (init, test, update))
    (hbraced : Braced sourceText block body) (htokens : tokens = keyword :: (header ++ block)) :
    Stmt.readForLoop expr stmt reading =
      .ok (.forLoop init test update body (Span.ofTokens tokens)) later := by
  subst htokens
  have hwhole := hpasses
  obtain ⟨first, hfirst, hpasses⟩ := passes_cons_split.1 hpasses
  obtain ⟨second, hinside, hblock⟩ := passes_append_iff.1 hpasses
  have h1 := hfirst.within_of_succ hwithin
  have hrun := Stmt.readForHeader_accepts hexpr _ _ _ _ h1 hheader hinside trivial
  rw [Stmt.readForLoop, bind_of_ok (advance_of_passes hfirst), bind_of_ok (fatally_of_ok hrun)]
  show (Block.read false stmt >>= _ : Read Stmt) second = _
  rw [bind_of_ok (Block.read_accepts hstmt false _ _ _ _ (hinside.within h1) hbraced hblock
    trivial)]
  exact spanned_ok_iff.2 ⟨by rw [hwhole.spanFrom], rfl⟩

include hstmt in
/-- A function declaration is read. -/
theorem Stmt.readFunctionDecl_accepts {keyword : Token} {header block : List Token} {name : String}
    {parameters : List String} {body : Block Stmt}
    (hheader : FunctionHeader header (name, parameters)) (hbraced : Braced sourceText block body)
    (htokens : tokens = keyword :: (header ++ block)) :
    Stmt.readFunctionDecl stmt reading =
      .ok (.functionDecl name parameters body (Span.ofTokens tokens)) later := by
  subst htokens
  have hwhole := hpasses
  obtain ⟨first, hfirst, hpasses⟩ := passes_cons_split.1 hpasses
  obtain ⟨second, hinside, hblock⟩ := passes_append_iff.1 hpasses
  have h1 := hfirst.within_of_succ hwithin
  have hrun := Stmt.readFunctionHeader_accepts _ _ _ _ h1 hheader hinside trivial
  rw [Stmt.readFunctionDecl, bind_of_ok (advance_of_passes hfirst), bind_of_ok (fatally_of_ok hrun)]
  show (Block.read true stmt >>= _ : Read Stmt) second = _
  rw [bind_of_ok (Block.read_accepts hstmt true _ _ _ _ (hinside.within h1) hbraced hblock trivial)]
  exact spanned_ok_iff.2 ⟨by rw [hwhole.spanFrom], rfl⟩

include hstmt in
/-- A class declaration is read. -/
theorem Stmt.readClassDecl_accepts {keyword name : Token} {block : List Token} {body : Block Stmt}
    (hkind : name.kind = .identifier) (hbraced : Braced sourceText block body)
    (htokens : tokens = keyword :: name :: block) :
    Stmt.readClassDecl stmt reading =
      .ok (.classDecl name.value body (Span.ofTokens tokens)) later := by
  subst htokens
  have hwhole := hpasses
  obtain ⟨first, hfirst, hpasses⟩ := passes_cons_split.1 hpasses
  obtain ⟨second, hname, hblock⟩ := passes_cons_split.1 hpasses
  have h2 := hname.within (hfirst.within_of_succ hwithin)
  rw [Stmt.readClassDecl, bind_of_ok (advance_of_passes hfirst),
    bind_of_ok (fatally_of_ok (expectIdentifier_of_passes hkind hname)),
    bind_of_ok (Block.read_accepts hstmt true _ _ _ _ h2 hbraced hblock trivial)]
  exact spanned_ok_iff.2 ⟨by rw [hwhole.spanFrom], rfl⟩

include hexpr in
/-- `return` and `throw` differ in what they make of the value. -/
theorem Stmt.readJump_accepts {make : Option Expr → Span → Stmt} {keyword semicolon : Token}
    {inside : List Token} {value : Option Expr} (hvalue : OptionalPhrase sourceText inside value)
    (hsemicolon : semicolon.is ";" = true) (htokens : tokens = keyword :: (inside ++ [semicolon])) :
    (do
      let opening ← Read.advance
      let value ← Stmt.readResult expr
      let _ ← Read.expect ";"
      return make value (← Read.spanFrom opening.span.start) : Read Stmt) reading =
      .ok (make value (Span.ofTokens tokens)) later := by
  subst htokens
  have hwhole := hpasses
  obtain ⟨first, hfirst, hpasses⟩ := passes_cons_split.1 hpasses
  obtain ⟨second, hinside, hlast⟩ := passes_append_iff.1 hpasses
  have h1 := hfirst.within_of_succ hwithin
  have hrun := Stmt.readResult_accepts hexpr _ _ _ _ h1 hvalue hinside
    (hlast.current_eq ▸ hsemicolon)
  rw [bind_of_ok (advance_of_passes hfirst), bind_of_ok hrun,
    bind_of_ok (expect_of_passes hsemicolon hlast)]
  exact spanned_ok_iff.2 ⟨by rw [hwhole.spanFrom], rfl⟩

omit hwithin in
/-- `break` and `continue` differ in the statement they make. -/
theorem Stmt.readWord_accepts {make : Span → Stmt} {keyword semicolon : Token}
    (hsemicolon : semicolon.is ";" = true) (htokens : tokens = [keyword, semicolon]) :
    (do
      let opening ← Read.advance
      let _ ← Read.expect ";"
      return make (← Read.spanFrom opening.span.start) : Read Stmt) reading =
      .ok (make (Span.ofTokens tokens)) later := by
  subst htokens
  obtain ⟨first, hfirst, hlast⟩ := passes_cons_split.1 hpasses
  rw [bind_of_ok (advance_of_passes hfirst), bind_of_ok (expect_of_passes hsemicolon hlast)]
  exact spanned_ok_iff.2 ⟨by rw [hpasses.spanFrom], rfl⟩

include hexpr in
/-- A `match` statement is read, if at most one of its arms is a default arm. -/
theorem Stmt.readMatch_accepts {arm : Read (Option MatchArm)}
    (harm : Accepts arm size (fun tokens found => ∃ value ∈ found, Arm sourceText tokens value)
      fun token => token.goesOn = false)
    {keyword opening closing : Token} {condition inside : List Token} {discriminant : Expr}
    {arms : List MatchArm} (hcondition : Condition sourceText condition discriminant)
    (hopening : opening.is "\x7b" = true) (harms : Arms sourceText inside arms)
    (hcount : (arms.filterMap MatchArm.fallback?).length ≤ 1)
    (hclosing : closing.is "\x7d" = true)
    (htokens : tokens = keyword :: (condition ++ opening :: (inside ++ [closing]))) :
    Stmt.readMatch expr arm reading =
      .ok (.matchOn discriminant (arms.filterMap MatchArm.case?)
        (arms.filterMap MatchArm.fallback?).head? (Span.ofTokens tokens)) later := by
  subst htokens
  have hwhole := hpasses
  obtain ⟨first, hfirst, hpasses⟩ := passes_cons_split.1 hpasses
  obtain ⟨second, hpassed, hpasses⟩ := passes_append_iff.1 hpasses
  obtain ⟨third, hopen, hpasses⟩ := passes_cons_split.1 hpasses
  obtain ⟨fourth, hinside, hlast⟩ := passes_append_iff.1 hpasses
  have h1 := hfirst.within_of_succ hwithin
  have h3 := hopen.within (hpassed.within h1)
  have hrun : Read.bounded (MatchArm.collectFrom arm false) third =
      .ok (arms.filterMap MatchArm.case?, (arms.filterMap MatchArm.fallback?).head?) fourth := by
    have hbound := harms.length_le
    have hlength := congrArg List.length hinside.ahead
    rw [List.length_append] at hlength
    show MatchArm.collectFrom arm false (third.ahead.length + 1) third = _
    exact MatchArm.collectFrom_accepts harm harms (by simpa using hcount) (by omega) h3 hinside
      (hlast.current_eq ▸ hclosing)
  rw [Stmt.readMatch, bind_of_ok (advance_of_passes hfirst),
    bind_of_ok (Stmt.readCondition_accepts hexpr _ _ _ _ h1 hcondition hpassed trivial),
    bind_of_ok (expect_of_passes hopening hopen), bind_of_ok hrun]
  show (Read.expect "\x7d" >>= _ : Read Stmt) fourth = _
  rw [bind_of_ok (expect_of_passes hclosing hlast)]
  exact spanned_ok_iff.2 ⟨by rw [hwhole.spanFrom], rfl⟩

include hstmt in
/-- A `try` statement is read with the parts that it has. -/
theorem Stmt.readTry_accepts {keyword : Token} {block behind last : List Token}
    {body : Block Stmt} {handler : Option (CatchClause Stmt)}
    {finalizer : Option (FinallyClause Stmt)} (hbraced : Braced sourceText block body)
    (hhandler : Handler sourceText behind handler)
    (hfinalizer : Finalizer sourceText last finalizer)
    (htokens : tokens = keyword :: (block ++ (behind ++ last)))
    (hfollow : later.current.goesOn = false) :
    Stmt.readTry stmt reading =
      .ok (.tryCatch body handler finalizer (Span.ofTokens tokens)) later := by
  subst htokens
  have hwhole := hpasses
  obtain ⟨first, hfirst, hpasses⟩ := passes_cons_split.1 hpasses
  obtain ⟨second, hblock, hpasses⟩ := passes_append_iff.1 hpasses
  obtain ⟨third, hbehind, hlast⟩ := passes_append_iff.1 hpasses
  have h1 := hfirst.within_of_succ hwithin
  have h2 := hblock.within h1
  -- Behind the handler is `finally`, or what is behind the statement.
  have hnext : third.current.is "catch" = false := by
    cases hfinalizer with
    | none =>
        obtain rfl := passes_nil_iff.1 hlast
        exact Token.is_eq_false_of_goesOn hfollow (by simp)
    | some hkeyword _ htokens =>
        subst htokens
        obtain ⟨_, hvalue⟩ := Token.is_iff.1 hkeyword
        simp [hlast.current_eq, Token.is, hvalue]
  rw [Stmt.readTry, bind_of_ok (advance_of_passes hfirst),
    bind_of_ok (Block.read_accepts hstmt false _ _ _ _ h1 hbraced hblock trivial),
    bind_of_ok (Stmt.readHandler_accepts hstmt _ _ _ _ h2 hhandler hbehind hnext),
    bind_of_ok (Stmt.readFinalizer_accepts hstmt _ _ _ _ (hbehind.within h2) hfinalizer hlast
      (Token.is_eq_false_of_goesOn hfollow (by simp)))]
  exact spanned_ok_iff.2 ⟨by rw [hwhole.spanFrom], rfl⟩

include hexpr hstmt in
/-- A `retry` statement is read with the handler that it may have. -/
theorem Stmt.readRetry_accepts {keyword : Token} {condition block behind : List Token}
    {count : Expr} {body : Block Stmt} {handler : Option (CatchClause Stmt)}
    (hcondition : Condition sourceText condition count) (hbraced : Braced sourceText block body)
    (hhandler : Handler sourceText behind handler)
    (htokens : tokens = keyword :: (condition ++ (block ++ behind)))
    (hfollow : later.current.goesOn = false) :
    Stmt.readRetry expr stmt reading =
      .ok (.retry count body handler (Span.ofTokens tokens)) later := by
  subst htokens
  have hwhole := hpasses
  obtain ⟨first, hfirst, hpasses⟩ := passes_cons_split.1 hpasses
  obtain ⟨second, hinside, hpasses⟩ := passes_append_iff.1 hpasses
  obtain ⟨third, hblock, hbehind⟩ := passes_append_iff.1 hpasses
  have h1 := hfirst.within_of_succ hwithin
  have h2 := hinside.within h1
  rw [Stmt.readRetry, bind_of_ok (advance_of_passes hfirst),
    bind_of_ok (Stmt.readCondition_accepts hexpr _ _ _ _ h1 hcondition hinside trivial),
    bind_of_ok (Block.read_accepts hstmt false _ _ _ _ h2 hbraced hblock trivial),
    bind_of_ok (Stmt.readHandler_accepts hstmt _ _ _ _ (hblock.within h2) hhandler hbehind
      (Token.is_eq_false_of_goesOn hfollow (by simp)))]
  exact spanned_ok_iff.2 ⟨by rw [hwhole.spanFrom], rfl⟩

end Forms

/-! ## Statements -/

/-- Every sentence is read by the form of its first token. -/
theorem Stmt.readBy_accepts {context : Context} {inner : Stmt.Inner}
    (hgrammar : context.grammar = .standard)
    (hexpr : Accepts inner.expr (size + 1) (Phrase sourceText .assign) Token.NoTail)
    (hstmt : ∀ inMatch, Accepts (inner.stmt { context with inMatch := inMatch }) size
      (Sentence sourceText) fun token => token.goesOn = false)
    (helse : AcceptsConditional sourceText inner.elseIf size) :
    Accepts (Stmt.readBy context inner) (size + 1) (Sentence sourceText)
      fun token => token.goesOn = false := by
  have hless := hexpr.mono (Nat.le_succ size)
  have hrecovered : AcceptsSentence sourceText (inner.recovered context) size :=
    (hstmt context.inMatch).recovering context
  intro reading result later tokens hwithin hgood hpasses hfollow
  -- The first token is known by its spelling, and selects the form.
  have hby : ∀ {keyword : Token} {rest : List Token} {text : String} {form : StmtForm},
      keyword.is text = true → tokens = keyword :: rest →
      Grammar.statementOfSpelling? text = some form →
      Stmt.readForm context inner form reading = .ok result later →
      Stmt.readBy context inner reading = .ok result later := by
    intro keyword rest text form his htokens hform hrun
    have hcurrent : reading.current = keyword := (htokens ▸ hpasses).current_eq
    rw [Stmt.readBy, bind_of_ok (by rfl), hgrammar, hcurrent]
    simp only [Grammar.standard, Grammar.statementOf?_of_is his, hform]
    exact hrun
  cases hgood with
  | block hbraced =>
      have hrun := Block.read_accepts_succ hrecovered false _ _ _ _ hwithin hbraced hpasses trivial
      obtain ⟨hopening, _, _, htokens⟩ := hbraced
      exact hby hopening htokens rfl (map_ok_iff.2 ⟨_, hrun, rfl⟩)
  | varDecl hdeclaration hsemicolon htokens =>
      have hrun := Stmt.readVarDecl_accepts hwithin hpasses hexpr context hdeclaration hsemicolon
        htokens
      obtain ⟨first, rest, rfl, hfirst, _⟩ := hdeclaration.starts
      simp only [Token.isAny, List.any_cons, List.any_nil, Bool.or_false, Bool.or_eq_true] at hfirst
      rcases hfirst with hfirst | hfirst <;> exact hby hfirst htokens rfl hrun
  | conditional hconditional =>
      have hrun := Stmt.readIfElse_accepts hless hrecovered hwithin hpasses helse hconditional
        hfollow
      obtain ⟨hkeyword, _, _, _, htokens⟩ := hconditional
      exact hby hkeyword htokens rfl hrun
  | whileLoop hkeyword hcondition hbraced htokens =>
      exact hby hkeyword htokens rfl (Stmt.readWhileLoop_accepts hless hrecovered hwithin hpasses
        hcondition hbraced htokens)
  | doWhile hkeyword hbraced hmiddle hcondition hending htokens =>
      exact hby hkeyword htokens rfl (Stmt.readDoWhile_accepts hless hrecovered hwithin hpasses
        hbraced hmiddle hcondition hending htokens hfollow)
  | forLoop hkeyword hheader hbraced htokens =>
      exact hby hkeyword htokens rfl (Stmt.readForLoop_accepts hless hrecovered hwithin hpasses
        hheader hbraced htokens)
  | functionDecl hkeyword hheader hbraced htokens =>
      exact hby hkeyword htokens rfl (Stmt.readFunctionDecl_accepts hrecovered hwithin hpasses
        hheader hbraced htokens)
  | classDecl hkeyword hkind hbraced htokens =>
      exact hby hkeyword htokens rfl (Stmt.readClassDecl_accepts hrecovered hwithin hpasses hkind
        hbraced htokens)
  | returnValue hkeyword hvalue hsemicolon htokens =>
      exact hby hkeyword htokens rfl (Stmt.readJump_accepts hless hwithin hpasses hvalue hsemicolon
        htokens)
  | throwValue hkeyword hvalue hsemicolon htokens =>
      exact hby hkeyword htokens rfl (Stmt.readJump_accepts hless hwithin hpasses hvalue hsemicolon
        htokens)
  | breakLoop hkeyword hsemicolon =>
      exact hby hkeyword rfl rfl (Stmt.readWord_accepts hpasses hsemicolon rfl)
  | continueLoop hkeyword hsemicolon =>
      exact hby hkeyword rfl rfl (Stmt.readWord_accepts hpasses hsemicolon rfl)
  | matchOn hkeyword hcondition hopening harms hcount hclosing htokens =>
      have hinner := (hstmt true).recovering context.enterMatch
      have harm := (MatchArm.read_accepts hless (hstmt true) hinner).recovering context.enterMatch
      exact hby hkeyword htokens rfl (Stmt.readMatch_accepts hless hwithin hpasses harm hcondition
        hopening harms hcount hclosing htokens)
  | tryCatch hkeyword hbraced hhandler hfinalizer htokens =>
      exact hby hkeyword htokens rfl (Stmt.readTry_accepts hrecovered hwithin hpasses hbraced
        hhandler hfinalizer htokens hfollow)
  | retry hkeyword hcondition hbraced hhandler htokens =>
      exact hby hkeyword htokens rfl (Stmt.readRetry_accepts hless hrecovered hwithin hpasses
        hcondition hbraced hhandler htokens hfollow)
  | expression hkind hphrase hsemicolon htokens =>
      -- A name has no statement form.
      have hcurrent := (htokens ▸ hpasses).current_eq
      have hform : Grammar.statementOf? reading.current = none := by
        simp [hcurrent, Grammar.statementOf?, Token.isSpelled, hkind]
      rw [Stmt.readBy, bind_of_ok (by rfl), hgrammar]
      simp only [Grammar.standard, hform]
      exact Stmt.readExpression_accepts hwithin hpasses hexpr hkind hphrase hsemicolon htokens

mutual

/-- With two levels more than there are tokens ahead, every statement is read. -/
theorem Stmt.read_accepts (levels : Nat) (context : Context)
    (hgrammar : context.grammar = .standard) {size : Nat} (hlevels : size + 2 ≤ levels) :
    Accepts (Stmt.read levels context) size (Sentence context.sourceText)
      fun token => token.goesOn = false := by
  intro reading result later tokens hwithin hgood hpasses hfollow
  obtain ⟨levels, rfl⟩ : ∃ n, levels = n + 1 := ⟨levels - 1, by omega⟩
  -- A sentence has a first token, so there is room for it.
  obtain ⟨size, rfl⟩ : ∃ smaller, size = smaller + 1 := by
    obtain ⟨first, rest, rfl, _⟩ := hgood.starts
    exact hpasses.exists_succ hwithin
  rw [Stmt.read]
  -- Inside, one token and one level less are left, and an expression needs one level only.
  refine Stmt.readBy_accepts hgrammar ?_ ?_ ?_ _ _ _ _ hwithin hgood hpasses hfollow
  · exact Expr.read_accepts hgrammar (by omega)
  · exact fun inMatch =>
      Stmt.read_accepts levels { context with inMatch := inMatch } hgrammar (by omega)
  · exact Stmt.readElseIf_accepts levels context hgrammar (by omega)

/-- The same for a conditional behind an `else`. -/
theorem Stmt.readElseIf_accepts (levels : Nat) (context : Context)
    (hgrammar : context.grammar = .standard) {size : Nat} (hlevels : size + 2 ≤ levels) :
    AcceptsConditional context.sourceText (Stmt.readElseIf levels context) size := by
  rintro reading result later tokens hwithin ⟨text, hgood⟩ hpasses hfollow
  obtain ⟨levels, rfl⟩ : ∃ n, levels = n + 1 := ⟨levels - 1, by omega⟩
  obtain ⟨size, rfl⟩ : ∃ smaller, size = smaller + 1 := by
    obtain ⟨_, _, _, _, rfl⟩ := id hgood
    exact hpasses.exists_succ hwithin
  have hstmt : AcceptsSentence context.sourceText
      (Read.recovering context (Stmt.read levels context)) size :=
    (Stmt.read_accepts levels context hgrammar (by omega)).recovering context
  rw [Stmt.readElseIf]
  exact Stmt.readIfElse_accepts (Expr.read_accepts hgrammar (by omega)) hstmt hwithin hpasses
    (Stmt.readElseIf_accepts levels context hgrammar (by omega)) hgood hfollow

end

/-- With two levels more than there are tokens, the sentences of a program are read to the end. -/
theorem Program.readStatements_accepts {levels : Nat} {context : Context}
    (hgrammar : context.grammar = .standard) (hmarked : reading.Marked)
    (hlevels : reading.ahead.length + 2 ≤ levels) {statements : List Stmt}
    (h : Sentences context.sourceText reading.ahead statements)
    (hpasses : reading.Passes reading.ahead later) :
    Program.readStatements context levels reading = .ok statements later := by
  have hstmt : AcceptsSentence context.sourceText (Stmt.readRecovering levels context)
      reading.ahead.length :=
    (Stmt.read_accepts levels context hgrammar hlevels).recovering context
  have hend : later.ahead = [] := List.append_right_eq_self.1 hpasses.ahead.symm
  have hmark : later.current.kind = .eof := by
    rw [current_of_ahead_nil hend]
    exact hpasses.marked hmarked
  have hbound := Nat.le_succ_of_le h.length_le
  show collectFrom (look fun reading => !!reading.ahead.isEmpty) _ _ reading = _
  refine collectFrom_accepts ?_ hstmt h hbound ⟨hmarked, Nat.le_refl _⟩ hpasses ?_ ?_
  · intro start hahead _
    simpa using hahead
  · simp [hend]
  · simp [Token.goesOn, Token.isAny, Token.is, Token.isSpelled, hmark]

end ScriptLint
