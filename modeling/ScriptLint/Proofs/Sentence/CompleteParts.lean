import ScriptLint.Proofs.Reading.Accepts
import ScriptLint.Proofs.Sentence.Grammar

/-!
# The parts of statements are read

Conditions, declarations, headers, blocks, clauses and arms. Where the tokens of one of them are
ahead it is read, if the token behind them does not go on with it.
-/

namespace ScriptLint

open Reading Read

variable {sourceText : Span → String} {expr : Read Expr} {stmt : Read (Option Stmt)}
  {size : Nat}

/-- No operator is at the token, so it ends every expression. -/
def Token.NoTail (token : Token) : Prop :=
  Grammar.tailOf? token = none

/-- A text without a form goes on with no expression. -/
theorem Token.noTail_of_is {token : Token} {text : String} (h : token.is text = true)
    (hnone : Grammar.tailOfSpelling? text = none) : token.NoTail :=
  (Grammar.tailOf?_of_is h).trans hnone

/-- A token that begins an expression is no token without a lead form. -/
theorem Token.is_eq_false_of_lead {token : Token} {text : String}
    (h : (Grammar.leadOf? token).isSome = true) (hnone : Grammar.leadOfSpelling? text = none) :
    token.is text = false := by
  cases his : token.is text with
  | false => rfl
  | true =>
      rw [Grammar.leadOf?_of_is his, hnone] at h
      cases h

/-- With levels enough, an expression is read up to a token that ends it. -/
theorem Expr.read_accepts {context : Context} (hgrammar : context.grammar = .standard)
    {levels : Nat} (hlevels : size < levels) :
    Accepts (Expr.read context levels .default) size (Phrase context.sourceText .assign)
      Token.NoTail := by
  intro reading value later tokens hwithin hphrase hpasses hfollow
  have hends := Token.ends_of_tailOf?_eq_none hfollow .assign
  exact (Expr.continues hgrammar hphrase).reads_default hgrammar hwithin.1 hpasses hends levels
    (Nat.lt_of_le_of_lt hwithin.2 hlevels)

/-! ## Parts without statements -/

section Parts

variable (hexpr : Accepts expr size (Phrase sourceText .assign) Token.NoTail)

include hexpr

/-- A condition is read, whatever follows it. -/
theorem Stmt.readCondition_accepts :
    Accepts (Stmt.readCondition expr) size (Condition sourceText) fun _ => True := by
  intro reading test later tokens hwithin hgood hpasses _
  obtain ⟨hopening, hphrase, hclosing⟩ := hgood
  obtain ⟨first, hfirst, hpasses⟩ := passes_cons_split.1 hpasses
  obtain ⟨second, hinside, hlast⟩ := passes_append_iff.1 hpasses
  have hend : second.current.NoTail := Token.noTail_of_is (hlast.current_eq ▸ hclosing) rfl
  rw [Stmt.readCondition, bind_of_ok (expect_of_passes hopening hfirst),
    bind_of_ok (hexpr _ _ _ _ (hfirst.within hwithin) hphrase hinside hend),
    bind_of_ok (expect_of_passes hclosing hlast)]
  rfl

/-- An expression that may be left out is read up to its closing text. -/
theorem Stmt.readUnless_accepts {close : String} (htail : Grammar.tailOfSpelling? close = none)
    (hlead : Grammar.leadOfSpelling? close = none) :
    Accepts (Stmt.readUnless close expr) size (OptionalPhrase sourceText)
      fun token => token.is close = true := by
  intro reading value later tokens hwithin hgood hpasses hfollow
  rw [Stmt.readUnless, bind_of_ok (by rfl)]
  cases hgood with
  | none =>
      obtain rfl := passes_nil_iff.1 hpasses
      rw [if_pos hfollow]
      rfl
  | some hphrase =>
      obtain ⟨first, rest, rfl, hfirst⟩ := hphrase.starts
      have hopen : reading.current.is close = false :=
        Token.is_eq_false_of_lead (hpasses.current_eq ▸ hfirst) hlead
      have hrun := hexpr _ _ _ _ hwithin hphrase hpasses (Token.noTail_of_is hfollow htail)
      rw [hopen, if_neg (by simp)]
      exact map_ok_iff.2 ⟨_, hrun, rfl⟩

/-- The value of a `return` or `throw` statement is read up to the semicolon. -/
theorem Stmt.readResult_accepts :
    Accepts (Stmt.readResult expr) size (OptionalPhrase sourceText)
      fun token => token.is ";" = true := by
  intro reading value later tokens hwithin hgood hpasses hfollow
  rw [Stmt.readResult, bind_of_ok (by rfl), bind_of_ok (by rfl)]
  cases hgood with
  | none =>
      obtain rfl := passes_nil_iff.1 hpasses
      rw [hfollow]
      rfl
  | some hphrase =>
      obtain ⟨first, rest, rfl, hfirst⟩ := hphrase.starts
      have hcurrent := hpasses.current_eq
      obtain ⟨hahead, _, _⟩ := passes_cons_iff.1 hpasses
      have hrun := hexpr _ _ _ _ hwithin hphrase hpasses (Token.noTail_of_is hfollow rfl)
      rw [Token.is_eq_false_of_lead (hcurrent ▸ hfirst) rfl,
        Expr.not_atClose rfl hahead (hcurrent ▸ hfirst), if_neg (by simp)]
      exact map_ok_iff.2 ⟨_, hrun, rfl⟩

/-- The first value of a declaration is read if there is one. -/
theorem VarDecl.readInitializer_accepts :
    Accepts (VarDecl.readInitializer expr) size (Initializer sourceText) Token.NoTail := by
  intro reading value later tokens hwithin hgood hpasses hfollow
  cases hgood with
  | none =>
      obtain rfl := passes_nil_iff.1 hpasses
      have hequals : later.current.is "=" = false := by
        cases his : later.current.is "=" with
        | false => rfl
        | true =>
            rw [Token.NoTail, Grammar.tailOf?_of_is his] at hfollow
            cases hfollow
      rw [VarDecl.readInitializer, bind_of_ok (accept_of_not hequals)]
      rfl
  | some hequals hphrase =>
      obtain ⟨first, hfirst, hpasses⟩ := passes_cons_split.1 hpasses
      have hrun := hexpr _ _ _ _ (hfirst.within hwithin) hphrase hpasses hfollow
      rw [VarDecl.readInitializer, bind_of_ok (accept_of_passes hequals hfirst), if_pos rfl]
      exact map_ok_iff.2 ⟨_, hrun, rfl⟩

omit hexpr in
/-- The keywords of a declaration are read, and the first one tells whether it is static. -/
theorem VarDecl.readKeyword_of_passes {keywords : List Token} {isStatic : Bool}
    {reading later : Reading} (hgood : DeclarationKeyword keywords isStatic)
    (hpasses : reading.Passes keywords later) :
    ∃ opening rest, keywords = opening :: rest ∧ opening.is "static" = isStatic ∧
      VarDecl.readKeyword reading = .ok opening later := by
  cases hgood with
  | @plain keyword hvar =>
      have hstatic : keyword.is "static" = false := by
        obtain ⟨_, hvalue⟩ := Token.is_iff.1 hvar
        simp [Token.is, hvalue]
      refine ⟨keyword, [], rfl, hstatic, ?_⟩
      rw [VarDecl.readKeyword, bind_of_ok (advance_of_passes hpasses), hstatic]
      rfl
  | @static modifier keyword hstatic hvar =>
      obtain ⟨middle, hfirst, hlast⟩ := passes_cons_split.1 hpasses
      refine ⟨modifier, [keyword], rfl, hstatic, ?_⟩
      rw [VarDecl.readKeyword, bind_of_ok (advance_of_passes hfirst), if_pos hstatic,
        bind_of_ok (expect_of_passes hvar hlast)]
      rfl

omit hexpr in
/-- The declared type is read if there is one. -/
theorem VarDecl.readType_accepts :
    Accepts VarDecl.readType size DeclaredType fun token => token.isTypeKeyword = false := by
  intro reading value later tokens _ hgood hpasses hfollow
  rw [VarDecl.readType, bind_of_ok (by rfl)]
  cases hgood with
  | none =>
      obtain rfl := passes_nil_iff.1 hpasses
      rw [hfollow]
      rfl
  | some htype hnames =>
      have hcurrent := hpasses.current_eq
      rw [hcurrent, if_pos htype]
      refine map_ok_iff.2 ⟨_, ?_, rfl⟩
      rw [Ty.read, bind_of_ok (by rfl), hcurrent, if_pos htype, hnames]
      show (advance >>= _ : Read Ty) reading = _
      rw [bind_of_ok (advance_of_passes hpasses)]
      rfl

/-- A declaration is read up to its semicolon. -/
theorem VarDecl.read_accepts :
    Accepts (VarDecl.read expr) size (Declaration sourceText) Token.NoTail := by
  intro reading decl later tokens hwithin hgood hpasses hfollow
  have hwhole := hpasses
  obtain ⟨hkeyword, hdeclared, hkind, hinitializer, rfl⟩ := hgood
  obtain ⟨first, hkeywords, hpasses⟩ := passes_append_iff.1 hpasses
  obtain ⟨second, htypes, hpasses⟩ := passes_append_iff.1 hpasses
  obtain ⟨third, hname, hvalue⟩ := passes_cons_split.1 hpasses
  obtain ⟨opening, rest, rfl, rfl, hrun⟩ := VarDecl.readKeyword_of_passes hkeyword hkeywords
  have hfirst := hkeywords.within hwithin
  have hsecond := htypes.within hfirst
  have htype : second.current.isTypeKeyword = false := by
    rw [hname.current_eq, Token.isTypeKeyword, hkind]
    rfl
  rw [VarDecl.read, bind_of_ok hrun,
    bind_of_ok (VarDecl.readType_accepts _ _ _ _ hfirst hdeclared htypes htype),
    bind_of_ok (expectIdentifier_of_passes hkind hname),
    bind_of_ok (VarDecl.readInitializer_accepts hexpr _ _ _ _ (hname.within hsecond) hinitializer
      hvalue hfollow)]
  exact spanned_ok_iff.2 ⟨by rw [hwhole.spanFrom]; rfl, rfl⟩

/-- What a `for` loop begins with is read up to its semicolon. -/
theorem Stmt.readForInit_accepts :
    Accepts (Stmt.readForInit expr) size (ForInit sourceText)
      fun token => token.is ";" = true := by
  intro reading init later tokens hwithin hgood hpasses hfollow
  rw [Stmt.readForInit, bind_of_ok (by rfl)]
  cases hgood with
  | none =>
      obtain rfl := passes_nil_iff.1 hpasses
      rw [if_pos hfollow]
      rfl
  | declaration hdeclaration =>
      obtain ⟨first, rest, rfl, hfirst, _⟩ := hdeclaration.starts
      have hcurrent := hpasses.current_eq
      have hopen : reading.current.is ";" = false := by
        obtain ⟨text, htext, his⟩ := List.any_eq_true.1 hfirst
        obtain ⟨_, rfl⟩ := Token.is_iff.1 his
        rw [hcurrent, Token.is]
        simp only [List.mem_cons, List.not_mem_nil, or_false] at htext
        rcases htext with htext | htext <;> simp [htext]
      have hrun := VarDecl.read_accepts hexpr _ _ _ _ hwithin hdeclaration hpasses
        (Token.noTail_of_is hfollow rfl)
      rw [hopen, if_neg (by simp), hcurrent, if_pos hfirst, bind_of_ok hrun]
      rfl
  | expression hphrase =>
      obtain ⟨first, rest, rfl, hfirst⟩ := hphrase.starts
      have hcurrent := hpasses.current_eq
      have hopen : ∀ text, Grammar.leadOfSpelling? text = none →
          reading.current.is text = false :=
        fun text => Token.is_eq_false_of_lead (hcurrent ▸ hfirst)
      have hkeyword : reading.current.isAny ["var", "static"] = false := by
        simp [Token.isAny, hopen "var" rfl, hopen "static" rfl]
      have hrun := hexpr _ _ _ _ hwithin hphrase hpasses (Token.noTail_of_is hfollow rfl)
      rw [hopen ";" rfl, hkeyword, if_neg (by simp), if_neg (by simp), bind_of_ok hrun, hcurrent]
      exact spanned_ok_iff.2 ⟨by rw [hpasses.spanFrom], rfl⟩

/-- The header of a `for` loop is read, whatever follows it. -/
theorem Stmt.readForHeader_accepts :
    Accepts (Stmt.readForHeader expr) size (ForHeader sourceText) fun _ => True := by
  intro reading header later tokens hwithin hgood hpasses _
  obtain ⟨hopening, hinit, hfirst, htest, hsecond, hupdate, hclosing⟩ := hgood
  obtain ⟨r1, hopen, hpasses⟩ := passes_cons_split.1 hpasses
  obtain ⟨r2, hbefore, hpasses⟩ := passes_append_iff.1 hpasses
  obtain ⟨r3, hleft, hpasses⟩ := passes_cons_split.1 hpasses
  obtain ⟨r4, hbetween, hpasses⟩ := passes_append_iff.1 hpasses
  obtain ⟨r5, hright, hpasses⟩ := passes_cons_split.1 hpasses
  obtain ⟨r6, hbehind, hlast⟩ := passes_append_iff.1 hpasses
  have h1 := hopen.within hwithin
  have h3 := hleft.within (hbefore.within h1)
  have h5 := hright.within (hbetween.within h3)
  rw [Stmt.readForHeader, bind_of_ok (expect_of_passes hopening hopen),
    bind_of_ok (Stmt.readForInit_accepts hexpr _ _ _ _ h1 hinit hbefore
      (hleft.current_eq ▸ hfirst)),
    bind_of_ok (expect_of_passes hfirst hleft),
    bind_of_ok (Stmt.readUnless_accepts hexpr rfl rfl _ _ _ _ h3 htest hbetween
      (hright.current_eq ▸ hsecond)),
    bind_of_ok (expect_of_passes hsecond hright),
    bind_of_ok (Stmt.readUnless_accepts hexpr rfl rfl _ _ _ _ h5 hupdate hbehind
      (hlast.current_eq ▸ hclosing)),
    bind_of_ok (expect_of_passes hclosing hlast)]
  rfl

omit hexpr in
/-- The name and the parameters of a function are read, whatever follows them. -/
theorem Stmt.readFunctionHeader_accepts :
    Accepts Stmt.readFunctionHeader size FunctionHeader fun _ => True := by
  intro reading header later tokens hwithin hgood hpasses _
  obtain ⟨hkind, hopening, hparameters, hseparated, hclosing⟩ := hgood
  obtain ⟨first, hname, hpasses⟩ := passes_cons_split.1 hpasses
  obtain ⟨second, hopen, hpasses⟩ := passes_cons_split.1 hpasses
  obtain ⟨third, hinside, hlast⟩ := passes_append_iff.1 hpasses
  have hsecond := hopen.within (hname.within hwithin)
  have hcurrent := hlast.current_eq
  rw [Stmt.readFunctionHeader, bind_of_ok (expectIdentifier_of_passes hkind hname),
    bind_of_ok (expect_of_passes hopening hopen), bind_of_ok, bind_of_ok
      (expect_of_passes hclosing hlast)]
  · rfl
  · refine Read.separated_complete hseparated ?_ hsecond.1 hinside ?_ ?_
    · intro parameter hparameter start stop hstart _ hitem _
      have hparameter := hparameters parameter hparameter
      constructor
      · simp [hitem.current_eq, Token.is, Token.isSpelled, hparameter]
      · exact map_ok_iff.2 ⟨_, expectIdentifier_of_passes hparameter hitem, rfl⟩
    · obtain ⟨_, hvalue⟩ := Token.is_iff.1 hclosing
      simp [hcurrent, Token.is, hvalue]
    · rw [hcurrent, hclosing]

end Parts

/-! ## Blocks and clauses -/

/-- Whether a token goes on with the statement in front of it. -/
def Token.goesOn (token : Token) : Bool :=
  token.isAny ["else", "elif", "catch", "finally", ";"]

/-- A token that does not go on with a statement is none of those that do. -/
theorem Token.is_eq_false_of_goesOn {token : Token} {text : String} (h : token.goesOn = false)
    (htext : text ∈ ["else", "elif", "catch", "finally", ";"]) : token.is text = false := by
  cases his : token.is text with
  | false => rfl
  | true =>
      have hgoes : token.goesOn = true := List.any_eq_true.2 ⟨text, htext, his⟩
      rw [hgoes] at h
      cases h

/-- A token that begins a statement is none without a statement form. -/
theorem Token.is_eq_false_of_starts {token : Token} {text : String}
    (h : (Grammar.statementOf? token).isSome = true ∨ token.kind = .identifier)
    (hnone : Grammar.statementOfSpelling? text = none) : token.is text = false := by
  cases his : token.is text with
  | false => rfl
  | true =>
      rcases h with h | h
      · rw [Grammar.statementOf?_of_is his, hnone] at h
        cases h
      · simp [Token.is, Token.isSpelled, h] at his

/-- A token that begins a statement does not go on with another one. -/
theorem Token.goesOn_eq_false_of_starts {token : Token}
    (h : (Grammar.statementOf? token).isSome = true ∨ token.kind = .identifier) :
    token.goesOn = false := by
  have hnot : ∀ text ∈ ["else", "elif", "catch", "finally", ";"], token.is text = false := by
    intro text htext
    refine Token.is_eq_false_of_starts h ?_
    revert text
    decide
  simpa [Token.goesOn, Token.isAny] using hnot

/-- Any other spelling does not go on with a statement. -/
theorem Token.goesOn_of_is {token : Token} {text : String} (h : token.is text = true)
    (htext : text ∉ ["else", "elif", "catch", "finally", ";"]) : token.goesOn = false := by
  cases hgoes : token.goesOn with
  | false => rfl
  | true =>
      obtain ⟨other, hother, his⟩ := List.any_eq_true.1 hgoes
      obtain ⟨_, rfl⟩ := Token.is_iff.1 h
      obtain ⟨_, rfl⟩ := Token.is_iff.1 his
      exact absurd hother htext

/-- The step reads every sentence behind which the statement does not go on. -/
def AcceptsSentence (sourceText : Span → String) (stmt : Read (Option Stmt)) (size : Nat) : Prop :=
  Accepts stmt size (fun tokens found => ∃ value ∈ found, Sentence sourceText tokens value)
    fun token => token.goesOn = false

/-- There are no more statements than tokens. -/
theorem Sentences.length_le {tokens : List Token} {stmts : List Stmt}
    (h : Sentences sourceText tokens stmts) : stmts.length ≤ tokens.length := by
  induction stmts generalizing tokens with
  | nil => exact Nat.zero_le _
  | cons stmt stmts ih =>
      cases h with
      | cons hfirst hrest =>
          obtain ⟨token, rest, rfl, _⟩ := hfirst.starts
          have hlength := ih hrest
          simp only [List.length_append, List.length_cons]
          omega

/-- A loop over statements reads sentences one behind the other. -/
theorem collectFrom_accepts {view : Reading → Bool}
    (hview : ∀ reading : Reading, reading.ahead ≠ [] →
      (Grammar.statementOf? reading.current).isSome = true ∨ reading.current.kind = .identifier →
      view reading = false)
    (hstmt : AcceptsSentence sourceText stmt size) {tokens : List Token} {stmts : List Stmt}
    (h : Sentences sourceText tokens stmts) {bound : Nat} (hbound : stmts.length ≤ bound)
    {reading later : Reading} (hwithin : reading.Within size)
    (hpasses : reading.Passes tokens later) (hlast : view later = true)
    (hfollow : later.current.goesOn = false) :
    collectFrom (look view) stmt bound reading = .ok stmts later := by
  induction stmts generalizing tokens bound reading with
  | nil =>
      cases h
      obtain rfl := passes_nil_iff.1 hpasses
      cases bound with
      | zero => rfl
      | succ bound => rw [collectFrom, bind_of_ok (by rfl), if_pos hlast]; rfl
  | cons value stmts ih =>
      obtain ⟨bound, rfl⟩ : ∃ n, bound = n + 1 := ⟨bound - 1, by simp at hbound; omega⟩
      cases h with
      | cons hfirst hrest =>
          obtain ⟨middle, hone, hothers⟩ := passes_append_iff.1 hpasses
          obtain ⟨token, rest, rfl, hstarts⟩ := hfirst.starts
          have hopen : view reading = false :=
            hview reading (passes_cons_iff.1 hone).1 (hone.current_eq ▸ hstarts)
          -- Behind the first sentence is the next one, or the end of them.
          have hnext : middle.current.goesOn = false := by
            cases hrest with
            | nil =>
                obtain rfl := passes_nil_iff.1 hothers
                exact hfollow
            | cons hsecond _ =>
                obtain ⟨token, rest, rfl, hstarts⟩ := hsecond.starts
                exact Token.goesOn_eq_false_of_starts (hothers.current_eq ▸ hstarts)
          rw [collectFrom, bind_of_ok (by rfl), hopen, if_neg (by simp),
            bind_of_ok (hstmt _ _ _ _ hwithin ⟨value, rfl, hfirst⟩ hone hnext),
            bind_of_ok (ih hrest (by simpa using hbound) (hone.within hwithin) hothers)]
          rfl

section Clauses

variable (hstmt : AcceptsSentence sourceText stmt size)

include hstmt

/-- The opening brace is one token more than the statements inside may have. -/
theorem Block.read_accepts_succ (fatal : Bool) :
    Accepts (Block.read fatal stmt) (size + 1) (Braced sourceText) fun _ => True := by
  have hbrace : ∀ {text : String} {token : Token} {reading later : Reading},
      token.is text = true → reading.Passes [token] later →
      (if fatal then Read.fatally else id) (expect text) reading = .ok token later := by
    intro text token reading later his hpasses
    cases fatal with
    | false => exact expect_of_passes his hpasses
    | true => exact fatally_of_ok (expect_of_passes his hpasses)
  intro reading block later tokens hwithin hgood hpasses _
  have hwhole := hpasses
  obtain @⟨_, inside, opening, closing, body, hopening, hsentences, hclosing, rfl⟩ := hgood
  obtain ⟨first, hopen, hpasses⟩ := passes_cons_split.1 hpasses
  obtain ⟨second, hinside, hlast⟩ := passes_append_iff.1 hpasses
  have hcurrent := hlast.current_eq
  have hbody : Read.collect (Read.atClose "\x7d") stmt first = .ok body second := by
    have hlength := congrArg List.length hinside.ahead
    rw [List.length_append] at hlength
    have hbound := hsentences.length_le
    refine collectFrom_accepts ?_ hstmt hsentences (by omega)
      (hopen.within_of_succ hwithin) hinside ?_ ?_
    · intro start hahead hstarts
      rw [Token.is_eq_false_of_starts hstarts rfl]
      simpa using hahead
    · simp [hcurrent, hclosing]
    · exact Token.goesOn_of_is (hcurrent ▸ hclosing) (by decide)
  rw [Block.read, Block.readWith, bind_of_ok (hbrace hopening hopen), bind_of_ok hbody,
    bind_of_ok (hbrace hclosing hlast)]
  exact spanned_ok_iff.2 ⟨by rw [hwhole.spanFrom], rfl⟩

/-- A block is read, whatever follows it. -/
theorem Block.read_accepts (fatal : Bool) :
    Accepts (Block.read fatal stmt) size (Braced sourceText) fun _ => True :=
  (Block.read_accepts_succ hstmt fatal).mono (Nat.le_succ size)

/-- A handler is read if there is one, and none is made up. -/
theorem Stmt.readHandler_accepts :
    Accepts (Stmt.readHandler stmt) size (Handler sourceText)
      fun token => token.is "catch" = false := by
  intro reading handler later tokens hwithin hgood hpasses hfollow
  rw [Stmt.readHandler, bind_of_ok (by rfl)]
  cases hgood with
  | none =>
      obtain rfl := passes_nil_iff.1 hpasses
      rw [hfollow]
      rfl
  | some hkeyword hopening hkind hclosing hbraced htokens =>
      subst htokens
      have hwhole := hpasses
      obtain ⟨first, hfirst, hpasses⟩ := passes_cons_split.1 hpasses
      obtain ⟨second, hopen, hpasses⟩ := passes_cons_split.1 hpasses
      obtain ⟨third, hname, hpasses⟩ := passes_cons_split.1 hpasses
      obtain ⟨fourth, hclose, hblock⟩ := passes_cons_split.1 hpasses
      have hfourth := hclose.within (hname.within (hopen.within (hfirst.within hwithin)))
      rw [hfirst.current_eq, if_pos hkeyword]
      refine map_ok_iff.2 ⟨_, ?_, rfl⟩
      rw [CatchClause.read, bind_of_ok (advance_of_passes hfirst),
        bind_of_ok (expect_of_passes hopening hopen),
        bind_of_ok (expectIdentifier_of_passes hkind hname),
        bind_of_ok (expect_of_passes hclosing hclose),
        bind_of_ok (Block.read_accepts hstmt false _ _ _ _ hfourth hbraced hblock trivial)]
      exact spanned_ok_iff.2 ⟨by rw [hwhole.spanFrom], rfl⟩

/-- A closing part is read if there is one, and none is made up. -/
theorem Stmt.readFinalizer_accepts :
    Accepts (Stmt.readFinalizer stmt) size (Finalizer sourceText)
      fun token => token.is "finally" = false := by
  intro reading finalizer later tokens hwithin hgood hpasses hfollow
  rw [Stmt.readFinalizer, bind_of_ok (by rfl)]
  cases hgood with
  | none =>
      obtain rfl := passes_nil_iff.1 hpasses
      rw [hfollow]
      rfl
  | some hkeyword hbraced htokens =>
      subst htokens
      have hwhole := hpasses
      obtain ⟨first, hfirst, hblock⟩ := passes_cons_split.1 hpasses
      rw [hfirst.current_eq, if_pos hkeyword]
      refine map_ok_iff.2 ⟨_, ?_, rfl⟩
      rw [FinallyClause.read, bind_of_ok (advance_of_passes hfirst),
        bind_of_ok (Block.read_accepts hstmt false _ _ _ _ (hfirst.within hwithin) hbraced hblock
          trivial)]
      exact spanned_ok_iff.2 ⟨by rw [hwhole.spanFrom], rfl⟩

end Clauses

/-! ## Arms -/

section Arms

variable {single : Read Stmt} {arm : Read (Option MatchArm)}

/-- A sentence that begins with a brace is a block. -/
theorem Sentence.exists_block {first : Token} {rest : List Token} {body : Stmt}
    (h : Sentence sourceText (first :: rest) body) (hfirst : first.is "\x7b" = true) :
    ∃ content, body = .block content ∧ Braced sourceText (first :: rest) content := by
  have hclash : ∀ {keyword : Token} {text : String} {others : List Token} {P : Prop},
      keyword.is text = true → first :: rest = keyword :: others → text ≠ "\x7b" → P := by
    intro keyword text others P his htokens hne
    obtain ⟨rfl, _⟩ := List.cons.inj htokens
    obtain ⟨_, hvalue⟩ := Token.is_iff.1 his
    exact absurd (hvalue.symm.trans (Token.is_iff.1 hfirst).2) hne
  cases h with
  | block hbraced => exact ⟨_, rfl, hbraced⟩
  | varDecl hdeclaration _ htokens =>
      obtain ⟨keyword, others, rfl, hkeyword, _⟩ := hdeclaration.starts
      obtain ⟨text, htext, his⟩ := List.any_eq_true.1 hkeyword
      refine hclash his htokens ?_
      rintro rfl
      simp at htext
  | conditional hconditional =>
      obtain ⟨hkeyword, _, _, _, htokens⟩ := hconditional
      exact hclash hkeyword htokens (by decide)
  | expression hkind _ _ htokens =>
      obtain ⟨rfl, _⟩ := List.cons.inj htokens
      simp [Token.is, Token.isSpelled, hkind] at hfirst
  | whileLoop hkeyword _ _ htokens => exact hclash hkeyword htokens (by decide)
  | doWhile hkeyword _ _ _ _ htokens => exact hclash hkeyword htokens (by decide)
  | forLoop hkeyword _ _ htokens => exact hclash hkeyword htokens (by decide)
  | functionDecl hkeyword _ _ htokens => exact hclash hkeyword htokens (by decide)
  | classDecl hkeyword _ _ htokens => exact hclash hkeyword htokens (by decide)
  | returnValue hkeyword _ _ htokens => exact hclash hkeyword htokens (by decide)
  | throwValue hkeyword _ _ htokens => exact hclash hkeyword htokens (by decide)
  | breakLoop hkeyword _ => exact hclash hkeyword rfl (by decide)
  | continueLoop hkeyword _ => exact hclash hkeyword rfl (by decide)
  | matchOn hkeyword _ _ _ _ _ htokens => exact hclash hkeyword htokens (by decide)
  | tryCatch hkeyword _ _ _ htokens => exact hclash hkeyword htokens (by decide)
  | retry hkeyword _ _ _ htokens => exact hclash hkeyword htokens (by decide)

/-- The body of an arm is read, in braces or not. -/
theorem MatchArm.readBody_accepts
    (hsingle : Accepts single size (Sentence sourceText) fun token => token.goesOn = false)
    (hstmt : AcceptsSentence sourceText stmt size) :
    Accepts (MatchArm.readBody single stmt) size (Sentence sourceText)
      fun token => token.goesOn = false := by
  intro reading body later tokens hwithin hgood hpasses hfollow
  rw [MatchArm.readBody, bind_of_ok (by rfl)]
  obtain ⟨first, rest, rfl, _⟩ := hgood.starts
  split
  next hbrace =>
      obtain ⟨content, rfl, hbraced⟩ := hgood.exists_block (hpasses.current_eq ▸ hbrace)
      exact map_ok_iff.2
        ⟨content, Block.read_accepts hstmt false _ _ _ _ hwithin hbraced hpasses trivial, rfl⟩
  next => exact hsingle _ _ _ _ hwithin hgood hpasses hfollow

/-- An arm is read if what follows does not go on with its statement. -/
theorem MatchArm.read_accepts (hexpr : Accepts expr size (Phrase sourceText .assign) Token.NoTail)
    (hsingle : Accepts single size (Sentence sourceText) fun token => token.goesOn = false)
    (hstmt : AcceptsSentence sourceText stmt size) :
    Accepts (MatchArm.read expr single stmt) size (Arm sourceText)
      fun token => token.goesOn = false := by
  have hbody := MatchArm.readBody_accepts hsingle hstmt
  intro reading value later tokens hwithin hgood hpasses hfollow
  rw [MatchArm.read, bind_of_ok (by rfl)]
  cases hgood with
  | test hkeyword hphrase harrow hsentence htokens =>
      subst htokens
      have hwhole := hpasses
      obtain ⟨first, hfirst, hpasses⟩ := passes_cons_split.1 hpasses
      obtain ⟨second, hinside, hpasses⟩ := passes_append_iff.1 hpasses
      obtain ⟨third, hmiddle, hbehind⟩ := passes_cons_split.1 hpasses
      have hsecond := hinside.within (hfirst.within hwithin)
      have htail := Token.noTail_of_is (hmiddle.current_eq ▸ harrow) rfl
      rw [hfirst.current_eq, if_pos hkeyword, bind_of_ok (advance_of_passes hfirst),
        bind_of_ok (hexpr _ _ _ _ (hfirst.within hwithin) hphrase hinside htail),
        bind_of_ok (expect_of_passes harrow hmiddle),
        bind_of_ok (hbody _ _ _ _ (hmiddle.within hsecond) hsentence hbehind hfollow)]
      exact spanned_ok_iff.2 ⟨by rw [hwhole.spanFrom], rfl⟩
  | @otherwise keyword arrow behind body hkeyword harrow hsentence =>
      obtain ⟨first, hfirst, hpasses⟩ := passes_cons_split.1 hpasses
      obtain ⟨second, hmiddle, hbehind⟩ := passes_cons_split.1 hpasses
      have hsecond := hmiddle.within (hfirst.within hwithin)
      have hcase : keyword.is "case" = false := by
        obtain ⟨_, hvalue⟩ := Token.is_iff.1 hkeyword
        simp [Token.is, hvalue]
      rw [hfirst.current_eq, hcase, if_neg (by simp), bind_of_ok (by rfl), hfirst.current_eq,
        if_pos hkeyword, bind_of_ok (advance_of_passes hfirst),
        bind_of_ok (expect_of_passes harrow hmiddle),
        bind_of_ok (hbody _ _ _ _ hsecond hsentence hbehind hfollow)]
      rfl

/-- An arm starts with one of two keywords. -/
theorem Arm.starts {tokens : List Token} {value : MatchArm} (h : Arm sourceText tokens value) :
    ∃ first rest, tokens = first :: rest ∧ first.isAny ["case", "default"] = true := by
  cases h with
  | test hkeyword _ _ _ htokens => exact ⟨_, _, htokens, by simp [Token.isAny, hkeyword]⟩
  | otherwise hkeyword _ _ => exact ⟨_, _, rfl, by simp [Token.isAny, hkeyword]⟩

/-- There are no more arms than tokens. -/
theorem Arms.length_le {tokens : List Token} {arms : List MatchArm}
    (h : Arms sourceText tokens arms) : arms.length ≤ tokens.length := by
  induction arms generalizing tokens with
  | nil => exact Nat.zero_le _
  | cons value arms ih =>
      cases h with
      | cons hfirst hrest =>
          obtain ⟨token, rest, rfl, _⟩ := hfirst.starts
          have hlength := ih hrest
          simp only [List.length_append, List.length_cons]
          omega

/-- A token that begins an arm is none of the other spellings. -/
theorem Token.is_eq_false_of_arm {token : Token} {text : String}
    (h : token.isAny ["case", "default"] = true) (htext : text ∉ ["case", "default"]) :
    token.is text = false := by
  obtain ⟨other, hother, his⟩ := List.any_eq_true.1 h
  obtain ⟨_, rfl⟩ := Token.is_iff.1 his
  cases hsame : token.is text with
  | false => rfl
  | true =>
      obtain ⟨_, rfl⟩ := Token.is_iff.1 hsame
      exact absurd hother htext

/-- A loop over arms reads arms one behind the other up to the closing brace, if no default arm is
behind another one. -/
theorem MatchArm.collectFrom_accepts
    (harm : Accepts arm size (fun tokens found => ∃ value ∈ found, Arm sourceText tokens value)
      fun token => token.goesOn = false)
    {tokens : List Token} {arms : List MatchArm} (h : Arms sourceText tokens arms) {seen : Bool}
    (hcount : (arms.filterMap MatchArm.fallback?).length ≤ if seen then 0 else 1) {bound : Nat}
    (hbound : arms.length ≤ bound) {reading later : Reading} (hwithin : reading.Within size)
    (hpasses : reading.Passes tokens later) (hlast : later.current.is "\x7d" = true) :
    MatchArm.collectFrom arm seen bound reading =
      .ok (arms.filterMap MatchArm.case?, (arms.filterMap MatchArm.fallback?).head?) later := by
  induction arms generalizing tokens seen bound reading with
  | nil =>
      cases h
      obtain rfl := passes_nil_iff.1 hpasses
      cases bound with
      | zero => rfl
      | succ bound => rw [MatchArm.collectFrom, bind_of_ok (by rfl), hlast]; rfl
  | cons value arms ih =>
      obtain ⟨bound, rfl⟩ : ∃ n, bound = n + 1 := ⟨bound - 1, by simp at hbound; omega⟩
      have hfewer : arms.length ≤ bound := by simpa using hbound
      cases h with
      | cons hfirst hrest =>
          obtain ⟨middle, hone, hothers⟩ := passes_append_iff.1 hpasses
          obtain ⟨token, rest, rfl, hstarts⟩ := hfirst.starts
          have hopen : (reading.current.is "\x7d" || reading.ahead.isEmpty) = false := by
            rw [hone.current_eq, Token.is_eq_false_of_arm hstarts (by decide)]
            simpa using (passes_cons_iff.1 hone).1
          -- Behind the first arm is the next one, or the closing brace.
          have hnext : middle.current.goesOn = false := by
            cases hrest with
            | nil =>
                obtain rfl := passes_nil_iff.1 hothers
                exact Token.goesOn_of_is hlast (by decide)
            | cons hsecond _ =>
                obtain ⟨token, rest, rfl, hstarts⟩ := hsecond.starts
                obtain ⟨text, htext, his⟩ := List.any_eq_true.1 hstarts
                have hnot : ∀ text ∈ ["case", "default"],
                    text ∉ ["else", "elif", "catch", "finally", ";"] := by decide
                exact Token.goesOn_of_is (hothers.current_eq ▸ his) (hnot text htext)
          have hrun := harm _ _ _ _ hwithin ⟨value, rfl, hfirst⟩ hone hnext
          rw [MatchArm.collectFrom, bind_of_ok (by rfl), hopen, if_neg (by simp), bind_of_ok hrun]
          cases value with
          | test content =>
              show (MatchArm.collectFrom arm seen bound >>= _ : Read _) middle = _
              rw [bind_of_ok (ih hrest hcount hfewer (hone.within hwithin) hothers)]
              rfl
          | otherwise body keyword =>
              cases seen with
              | true => simp [MatchArm.fallback?] at hcount
              | false =>
                  have hnone : (arms.filterMap MatchArm.fallback?).length ≤
                      if true then 0 else 1 := by
                    simpa [MatchArm.fallback?] using hcount
                  show (MatchArm.collectFrom arm true bound >>= _ : Read _) middle = _
                  rw [bind_of_ok (ih hrest hnone hfewer (hone.within hwithin) hothers)]
                  rfl

end Arms

end ScriptLint
