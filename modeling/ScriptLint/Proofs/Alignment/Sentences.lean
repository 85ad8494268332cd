import ScriptLint.Proofs.Alignment.Phrases

/-!
# Aligned statements

Corresponding statements are read from corresponding tokens, with corresponding errors recorded on
the way. As for expressions, there is one lemma for each form and an induction on the levels.
-/

namespace ScriptLint

namespace Alignment

variable {A : Alignment}

/-- Arms of corresponding parts. -/
def Arm (A : Alignment) : MatchArm → MatchArm → Prop
  | .test content, .test content' => A.Case content content'
  | .otherwise body keyword, .otherwise body' keyword' =>
      A.stmt body body' ∧ A.span keyword keyword'
  | _, _ => False

namespace SimAt

section Forms

variable (hA : A.Lawful) {expr expr' : Read Expr} [Read.Forward expr]
  {stmt stmt' : Read (Option Stmt)} [Read.Progress stmt] [Read.Progress stmt']
  {elseIf elseIf' single single' : Read Stmt} [Read.Forward elseIf] [Read.Forward single]
  (hexpr : A.Sim A.expr expr expr') (hstmt : A.Sim (Option.Rel A.stmt) stmt stmt')
  (helseIf : A.Sim A.stmt elseIf elseIf') (hsingle : A.Sim A.stmt single single')

/-! ## Declarations -/

section Blocks

include hA hstmt

/-- A block whose braces are read in some way that keeps the readers aligned. -/
theorem readWith {brace : Read Token → Read Token} [∀ text, Read.Forward (brace (Read.expect text))]
    (hbrace : ∀ text, A.Sim A.token (brace (Read.expect text)) (brace (Read.expect text))) :
    A.Sim A.Block (Block.readWith brace stmt) (Block.readWith brace stmt') := by
  refine (hbrace "\x7b").bind fun opening opening' hopening => ?_
  refine (collect (atClose hA "\x7d") (Read.halts_atClose _) (Read.halts_atClose _) hstmt).bind
    fun body body' hbody => ?_
  refine (hbrace "\x7d").bind fun _ _ _ => ?_
  exact (spanFrom hA (hA.token_span hopening)).bind fun span span' hspan => give ⟨hbody, hspan⟩

/-- A block, whether or not an error at one of its braces is fatal. -/
theorem blockRead (fatal : Bool) :
    A.Sim A.Block (Block.read fatal stmt) (Block.read fatal stmt') := by
  unfold Block.read
  cases fatal with
  | true =>
      rw [if_pos rfl]
      exact readWith hA hstmt fun text => (expect hA text).fatally
  | false =>
      rw [if_neg Bool.false_ne_true]
      exact readWith hA hstmt fun text => expect hA text

/-- A block that stands as a statement. -/
theorem readBlock : A.Sim A.stmt (Stmt.readBlock stmt) (Stmt.readBlock stmt') :=
  (blockRead hA hstmt false).map fun _ _ hbody => hA.block hbody

end Blocks

section Declarations

include hA

/-- The name of a type is the same for both readers. -/
theorem tyRead : A.Sim Eq Ty.read Ty.read := by
  refine current_bind (inferInstanceAs (Read.Forward Ty.read)) fun token other htoken => ?_
  have htype : (if token.isTypeKeyword then Ty.ofAnnotation? token.value else none) =
      if other.isTypeKeyword then Ty.ofAnnotation? other.value else none := by
    rw [← hA.isTypeKeyword_eq htoken]
    split
    next hkeyword =>
        have hkind : token.kind = .keyword := by
          simp only [Token.isTypeKeyword, Bool.and_eq_true, beq_iff_eq] at hkeyword
          exact hkeyword.1
        rw [hA.value htoken (by simp [hkind]) (by simp [hkind])]
    next => rfl
  rw [← htype]
  split
  · exact advance.bind fun _ _ _ => give rfl
  · exact (unexpectedDetailed hA _).restrict

/-- So is the type of a declaration, which may be absent. -/
theorem readType : A.Sim Eq VarDecl.readType VarDecl.readType := by
  refine current_bind inferInstance fun token other htoken => ?_
  rw [← hA.isTypeKeyword_eq htoken]
  split
  · exact ((tyRead hA).map fun _ _ hty => congrArg some hty).restrict
  · exact (give rfl).restrict

/-- The keyword of a declaration. -/
theorem readKeyword : A.Sim A.token VarDecl.readKeyword VarDecl.readKeyword := by
  refine advance.bind fun opening opening' ⟨hopening, _⟩ => ?_
  rw [← hA.is_eq hopening]
  split
  · exact (expect hA "var").bind fun _ _ _ => give hopening
  · exact give hopening

/-- The name and the parameters of a function, one name for another. -/
theorem readFunctionHeader :
    A.Sim (fun header header' => A.Value header.1 header'.1 ∧
      List.Forall₂ A.Value header.2 header'.2) Stmt.readFunctionHeader Stmt.readFunctionHeader := by
  have hvalue {token other : Token} (htoken : A.token token other) :
      A.Value token.value other.value := ⟨token, other, htoken, rfl, rfl⟩
  refine (expectIdentifier hA _).bind fun name name' hname => ?_
  refine (expect hA "(").bind fun _ _ _ => ?_
  refine (separated hA (sees hA ")") ((expectIdentifier hA _).map fun _ _ => hvalue)).bind
    fun parameters parameters' hparameters => ?_
  exact (expect hA ")").bind fun _ _ _ => give ⟨hvalue hname, hparameters⟩

include hexpr

/-- The first value of a declaration, which both readers find or neither. -/
theorem readInitializer :
    A.Sim (Option.Rel A.expr) (VarDecl.readInitializer expr) (VarDecl.readInitializer expr') := by
  refine (accept hA "=").bind fun seen seen' hseen => ?_
  subst hseen
  cases seen with
  | true => exact hexpr.map fun _ _ hvalue => .some hvalue
  | false => exact give .none

/-- A declaration without its semicolon. -/
theorem varDeclRead : A.Sim A.Decl (VarDecl.read expr) (VarDecl.read expr') := by
  refine (readKeyword hA).bind fun opening opening' hopening => ?_
  refine (readType hA).bind fun ty ty' hty => ?_
  refine (expectIdentifier hA _).bind fun name name' hname => ?_
  refine (readInitializer hA hexpr).bind fun value value' hvalue => ?_
  refine (spanFrom hA (hA.token_span hopening)).bind fun span span' hspan => give ?_
  exact ⟨⟨name, name', hname, rfl, rfl⟩, hA.is_eq hopening _, hty, hvalue, hspan⟩

/-- A declaration with its semicolon. If it is missing, both readers record that and go on. -/
theorem readVarDecl (inMatch : Bool) : A.Sim A.stmt (Stmt.readVarDecl (A.here inMatch) expr)
    (Stmt.readVarDecl (A.there inMatch) expr') := by
  refine (varDeclRead hA hexpr).bind fun decl decl' hdecl => ?_
  obtain ⟨hname, hstatic, hty, hvalue, hspan⟩ := hdecl
  refine (accept hA ";").bind fun seen seen' hseen => ?_
  subst hseen
  cases seen with
  | true =>
      refine (spanFrom hA hspan).bind fun span span' hwhole => give ?_
      exact hA.varDecl ⟨hname, hstatic, hty, hvalue, hwhole⟩
  | false =>
      have hreport : A.Report
          ⟨Cause.missingSemicolon.message, ⟨decl.span.stop, A.context.lineEnd decl.span.stop⟩⟩
          ⟨Cause.missingSemicolon.message, ⟨decl'.span.stop, A.other.lineEnd decl'.span.stop⟩⟩ :=
        ⟨.missingSemicolon, .missingSemicolon, hA.refl _ (by decide), rfl, rfl, hA.lineEnd hspan⟩
      exact (record hreport).bind fun _ _ _ =>
        give (hA.varDecl ⟨hname, hstatic, hty, hvalue, hspan⟩)

end Declarations

section Bodies

include hA hstmt

/-- A function. Errors in its header and at its braces are fatal for both readers. -/
theorem readFunctionDecl :
    A.Sim A.stmt (Stmt.readFunctionDecl stmt) (Stmt.readFunctionDecl stmt') := by
  refine advance.bind fun opening opening' hopening => ?_
  refine (readFunctionHeader hA).fatally.bind fun header header' hheader => ?_
  refine (blockRead hA hstmt true).bind fun body body' hbody => ?_
  exact (spanFrom hA (hA.token_span hopening.1)).bind fun span span' hspan =>
    give (hA.functionDecl hheader.1 hheader.2 hbody hspan)

/-- A class. Errors at its name and at its braces are fatal for both readers. -/
theorem readClassDecl : A.Sim A.stmt (Stmt.readClassDecl stmt) (Stmt.readClassDecl stmt') := by
  refine advance.bind fun opening opening' hopening => ?_
  refine (expectIdentifier hA _).fatally.bind fun name name' hname => ?_
  refine (blockRead hA hstmt true).bind fun body body' hbody => ?_
  exact (spanFrom hA (hA.token_span hopening.1)).bind fun span span' hspan =>
    give (hA.classDecl ⟨name, name', hname, rfl, rfl⟩ hbody hspan)

end Bodies

/-! ## Control statements -/

section Conditions

include hA hexpr

/-- The expression between the parentheses of a condition. -/
theorem readCondition :
    A.Sim A.expr (Stmt.readCondition expr) (Stmt.readCondition expr') := by
  refine (expect hA "(").bind fun _ _ _ => ?_
  refine hexpr.bind fun test test' htest => ?_
  exact (expect hA ")").bind fun _ _ _ => give htest

/-- An expression that is left out if its closing text is there at once. -/
theorem readUnless (close : String) :
    A.Sim (Option.Rel A.expr) (Stmt.readUnless close expr) (Stmt.readUnless close expr') := by
  refine (sees hA close).bind fun seen seen' hseen => ?_
  subst hseen
  cases seen with
  | true => exact give .none
  | false => exact hexpr.map fun _ _ hvalue => .some hvalue

/-- What a `for` loop begins with. -/
theorem readForInit :
    A.Sim (Option.Rel A.stmt) (Stmt.readForInit expr) (Stmt.readForInit expr') := by
  refine current_bind inferInstance fun token other htoken => restrict ?_
  rw [← hA.is_eq htoken, ← hA.isAny_eq htoken]
  split
  · exact give .none
  split
  · exact (varDeclRead hA hexpr).bind fun decl decl' hdecl => give (.some (hA.varDecl hdecl))
  · refine hexpr.bind fun value value' hvalue => ?_
    exact (spanFrom hA (hA.token_span htoken)).bind fun span span' hspan =>
      give (.some (hA.expression hvalue hspan))

/-- The three parts between the parentheses of a `for` loop. -/
theorem readForHeader :
    A.Sim (fun header header' => Option.Rel A.stmt header.1 header'.1 ∧
        Option.Rel A.expr header.2.1 header'.2.1 ∧ Option.Rel A.expr header.2.2 header'.2.2)
      (Stmt.readForHeader expr) (Stmt.readForHeader expr') := by
  refine (expect hA "(").bind fun _ _ _ => ?_
  refine (readForInit hA hexpr).bind fun init init' hinit => ?_
  refine (expect hA ";").bind fun _ _ _ => ?_
  refine (readUnless hA hexpr ";").bind fun test test' htest => ?_
  refine (expect hA ";").bind fun _ _ _ => ?_
  refine (readUnless hA hexpr ")").bind fun update update' hupdate => ?_
  exact (expect hA ")").bind fun _ _ _ => give ⟨hinit, htest, hupdate⟩

/-- The value of a `return` or `throw` statement, which both readers find or neither. -/
theorem readResult :
    A.Sim (Option.Rel A.expr) (Stmt.readResult expr) (Stmt.readResult expr') := by
  refine (sees hA ";").bind fun seen seen' hseen => ?_
  refine (atClose hA "\x7d").bind fun closed closed' hclosed => ?_
  subst hseen hclosed
  split
  · exact give .none
  · exact hexpr.map fun _ _ hvalue => .some hvalue

/-- A `return` statement with its semicolon. -/
theorem readReturn : A.Sim A.stmt (Stmt.readReturn expr) (Stmt.readReturn expr') := by
  refine advance.bind fun opening opening' hopening => ?_
  refine (readResult hA hexpr).bind fun value value' hvalue => ?_
  refine (expect hA ";").bind fun _ _ _ => ?_
  exact (spanFrom hA (hA.token_span hopening.1)).bind fun span span' hspan =>
    give (hA.returnValue hvalue hspan)

/-- A `throw` statement with its semicolon. -/
theorem readThrow : A.Sim A.stmt (Stmt.readThrow expr) (Stmt.readThrow expr') := by
  refine advance.bind fun opening opening' hopening => ?_
  refine (readResult hA hexpr).bind fun value value' hvalue => ?_
  refine (expect hA ";").bind fun _ _ _ => ?_
  exact (spanFrom hA (hA.token_span hopening.1)).bind fun span span' hspan =>
    give (hA.throwValue hvalue hspan)

/-- An expression statement, which begins with a name for both readers or fails for both. -/
theorem readExpression : A.Sim A.stmt (Stmt.readExpression expr) (Stmt.readExpression expr') := by
  refine current_bind inferInstance fun token other htoken => restrict ?_
  rw [← hA.kind htoken]
  split
  · refine hexpr.bind fun value value' hvalue => ?_
    refine (expect hA ";").bind fun _ _ _ => ?_
    exact (spanFrom hA (hA.token_span htoken)).bind fun span span' hspan =>
      give (hA.expression hvalue hspan)
  · exact unexpected hA

end Conditions

section Jumps

include hA

/-- A `break` statement with its semicolon. -/
theorem readBreak : A.Sim A.stmt Stmt.readBreak Stmt.readBreak := by
  refine advance.bind fun opening opening' hopening => ?_
  refine (expect hA ";").bind fun _ _ _ => ?_
  exact (spanFrom hA (hA.token_span hopening.1)).bind fun span span' hspan =>
    give (hA.breakLoop hspan)

/-- A `continue` statement with its semicolon. -/
theorem readContinue : A.Sim A.stmt Stmt.readContinue Stmt.readContinue := by
  refine advance.bind fun opening opening' hopening => ?_
  refine (expect hA ";").bind fun _ _ _ => ?_
  exact (spanFrom hA (hA.token_span hopening.1)).bind fun span span' hspan =>
    give (hA.continueLoop hspan)

end Jumps

section Alternates

include hA hstmt helseIf

/-- What stands behind the consequent of a conditional. -/
theorem readAlternate :
    A.Sim (Option.Rel A.stmt) (Stmt.readAlternate stmt elseIf)
      (Stmt.readAlternate stmt' elseIf') := by
  have hother : A.Sim (Option.Rel A.stmt) (some <$> elseIf) (some <$> elseIf') :=
    helseIf.map fun _ _ halternate => .some halternate
  refine (accept hA "else").bind fun seen seen' hseen => ?_
  subst hseen
  cases seen with
  | true =>
      refine (sees hA "if").bind fun again again' hagain => ?_
      subst hagain
      cases again with
      | true => exact hother
      | false => exact (readBlock hA hstmt).map fun _ _ hblock => .some hblock
  | false =>
      refine (sees hA "elif").bind fun again again' hagain => ?_
      subst hagain
      cases again with
      | true => exact hother
      | false => exact give .none

include hexpr in
/-- A conditional, if the conditionals inside it are read alike. -/
theorem readIfElse : A.Sim A.stmt (Stmt.readIfElse expr stmt elseIf)
    (Stmt.readIfElse expr' stmt' elseIf') := by
  refine advance.bind fun opening opening' hopening => ?_
  refine (readCondition hA hexpr).bind fun test test' htest => ?_
  refine (blockRead hA hstmt false).bind fun consequent consequent' hconsequent => ?_
  refine (readAlternate hA hstmt helseIf).bind fun alternate alternate' halternate => ?_
  exact (spanFrom hA (hA.token_span hopening.1)).bind fun span span' hspan =>
    give (hA.ifElse htest hconsequent halternate hspan)

end Alternates

section Loops

include hA hexpr hstmt

/-- A `while` loop, from its condition and its block. -/
theorem readWhileLoop :
    A.Sim A.stmt (Stmt.readWhileLoop expr stmt) (Stmt.readWhileLoop expr' stmt') := by
  refine advance.bind fun opening opening' hopening => ?_
  refine (readCondition hA hexpr).bind fun test test' htest => ?_
  refine (blockRead hA hstmt false).bind fun body body' hbody => ?_
  exact (spanFrom hA (hA.token_span hopening.1)).bind fun span span' hspan =>
    give (hA.whileLoop htest hbody hspan)

/-- A `do` loop. Both readers take the semicolon behind it, or neither does. -/
theorem readDoWhile :
    A.Sim A.stmt (Stmt.readDoWhile expr stmt) (Stmt.readDoWhile expr' stmt') := by
  refine advance.bind fun opening opening' hopening => ?_
  refine (blockRead hA hstmt false).bind fun body body' hbody => ?_
  refine (expect hA "while").bind fun _ _ _ => ?_
  refine (readCondition hA hexpr).bind fun test test' htest => ?_
  refine (accept hA ";").bind fun _ _ _ => ?_
  exact (spanFrom hA (hA.token_span hopening.1)).bind fun span span' hspan =>
    give (hA.doWhile hbody htest hspan)

/-- A `for` loop. Errors in its header are fatal for both readers. -/
theorem readForLoop :
    A.Sim A.stmt (Stmt.readForLoop expr stmt) (Stmt.readForLoop expr' stmt') := by
  refine advance.bind fun opening opening' hopening => ?_
  refine (readForHeader hA hexpr).fatally.bind fun header header' hheader => ?_
  obtain ⟨hinit, htest, hupdate⟩ := hheader
  refine (blockRead hA hstmt false).bind fun body body' hbody => ?_
  exact (spanFrom hA (hA.token_span hopening.1)).bind fun span span' hspan =>
    give (hA.forLoop hinit htest hupdate hbody hspan)

end Loops

/-! ## Handling -/

section Handlers

include hA hstmt

/-- A handler, which both readers find or neither. -/
theorem readHandler :
    A.Sim (Option.Rel A.Handler) (Stmt.readHandler stmt) (Stmt.readHandler stmt') := by
  refine (sees hA "catch").bind fun seen seen' hseen => ?_
  subst hseen
  cases seen with
  | false => exact give .none
  | true =>
      refine SimAt.map (R := A.Handler) ?_ fun _ _ hhandler => .some hhandler
      refine advance.bind fun opening opening' hopening => ?_
      refine (expect hA "(").bind fun _ _ _ => ?_
      refine (expectIdentifier hA _).bind fun parameter parameter' hparameter => ?_
      refine (expect hA ")").bind fun _ _ _ => ?_
      refine (blockRead hA hstmt false).bind fun body body' hbody => ?_
      exact (spanFrom hA (hA.token_span hopening.1)).bind fun span span' hspan =>
        give ⟨⟨parameter, parameter', hparameter, rfl, rfl⟩, hbody, hspan⟩

/-- A closing part, which both readers find or neither. -/
theorem readFinalizer :
    A.Sim (Option.Rel A.Finalizer) (Stmt.readFinalizer stmt) (Stmt.readFinalizer stmt') := by
  refine (sees hA "finally").bind fun seen seen' hseen => ?_
  subst hseen
  cases seen with
  | false => exact give .none
  | true =>
      refine SimAt.map (R := A.Finalizer) ?_ fun _ _ hfinalizer => .some hfinalizer
      refine advance.bind fun opening opening' hopening => ?_
      refine (blockRead hA hstmt false).bind fun body body' hbody => ?_
      exact (spanFrom hA (hA.token_span hopening.1)).bind fun span span' hspan =>
        give ⟨hbody, hspan⟩

/-- A `try` statement, with the parts that both readers find behind its block. -/
theorem readTry : A.Sim A.stmt (Stmt.readTry stmt) (Stmt.readTry stmt') := by
  refine advance.bind fun opening opening' hopening => ?_
  refine (blockRead hA hstmt false).bind fun body body' hbody => ?_
  refine (readHandler hA hstmt).bind fun handler handler' hhandler => ?_
  refine (readFinalizer hA hstmt).bind fun finalizer finalizer' hfinalizer => ?_
  exact (spanFrom hA (hA.token_span hopening.1)).bind fun span span' hspan =>
    give (hA.tryCatch hbody hhandler hfinalizer hspan)

include hexpr in
/-- A `retry` statement, with the handler that both readers find behind its block. -/
theorem readRetry : A.Sim A.stmt (Stmt.readRetry expr stmt) (Stmt.readRetry expr' stmt') := by
  refine advance.bind fun opening opening' hopening => ?_
  refine (readCondition hA hexpr).bind fun count count' hcount => ?_
  refine (blockRead hA hstmt false).bind fun body body' hbody => ?_
  refine (readHandler hA hstmt).bind fun handler handler' hhandler => ?_
  exact (spanFrom hA (hA.token_span hopening.1)).bind fun span span' hspan =>
    give (hA.retry hcount hbody hhandler hspan)

include hsingle in
/-- The body of an arm, in braces or a statement of its own. -/
theorem readBody :
    A.Sim A.stmt (MatchArm.readBody single stmt) (MatchArm.readBody single' stmt') := by
  refine (sees hA "\x7b").bind fun seen seen' hseen => ?_
  subst hseen
  cases seen with
  | true => exact readBlock hA hstmt
  | false => exact hsingle

include hexpr hsingle in
/-- An arm of a `match`, of the same sort for both readers. -/
theorem readArm : A.Sim A.Arm (MatchArm.read expr single stmt)
    (MatchArm.read expr' single' stmt') := by
  refine look_bind (sees hA "case") (inferInstanceAs (Read.Forward (MatchArm.read _ _ _)))
    fun tested tested' htested => ?_
  subst htested
  cases tested with
  | true =>
      refine advance.bind fun opening opening' hopening => ?_
      refine hexpr.bind fun test test' htest => ?_
      refine (expect hA "=>").bind fun _ _ _ => ?_
      refine (readBody hA hstmt hsingle).bind fun consequent consequent' hconsequent => ?_
      exact (spanFrom hA (hA.token_span hopening.1)).bind fun span span' hspan =>
        give ⟨htest, hconsequent, hspan⟩
  | false =>
      refine (sees hA "default").bind fun fallback fallback' hfallback => ?_
      subst hfallback
      cases fallback with
      | true =>
          refine advance.bind fun opening opening' hopening => ?_
          refine (expect hA "=>").bind fun _ _ _ => ?_
          exact (readBody hA hstmt hsingle).bind fun body body' hbody =>
            give ⟨hbody, hA.token_span hopening.1⟩
      | false => exact unexpectedDetailed hA _

end Handlers

section Arms

variable {arm arm' : Read (Option MatchArm)} [Read.Progress arm]
  (harm : A.Sim (Option.Rel A.Arm) arm arm')

include hA harm

/-- The arms of a `match`, by induction on the bound of the loop. A second default arm is recorded
by both readers at the same place. -/
theorem collectArms (seen : Bool) (bound : Nat) :
    A.Sim (fun found found' => List.Forall₂ A.Case found.1 found'.1 ∧
        Option.Rel A.stmt found.2 found'.2)
      (MatchArm.collectFrom arm seen bound) (MatchArm.collectFrom arm' seen bound) := by
  induction bound generalizing seen with
  | zero => exact give ⟨.nil, .none⟩
  | succ bound ih =>
      refine look_bind (atClose hA "\x7d")
        (inferInstanceAs (Read.Forward (MatchArm.collectFrom arm seen (bound + 1))))
        fun closed closed' hclosed => ?_
      subst hclosed
      cases closed with
      | true => exact give ⟨.nil, .none⟩
      | false =>
          refine harm.bind_of_forward (fun found => ?_) fun found found' hfound => ?_
          · rcases found with _ | ⟨content⟩ | ⟨body, keyword⟩ <;> infer_instance
          match found, found', hfound with
          | none, none, _ => exact ih seen
          | some (.test content), some (.test content'), .some hcase =>
              exact (ih seen).bind fun later later' hlater =>
                give ⟨.cons hcase hlater.1, hlater.2⟩
          | some (.otherwise body keyword), some (.otherwise body' keyword'), .some hbody =>
              have hreport := (hA.failure (hA.refl .duplicateDefault (by decide)) hbody.2).report
              cases seen with
              | true => exact (record hreport).bind fun _ _ _ => ih true
              | false =>
                  exact (ih true).bind fun later later' hlater => give ⟨hlater.1, .some hbody.1⟩

include hexpr in
/-- A `match` statement. -/
theorem readMatch [Read.Progress arm'] :
    A.Sim A.stmt (Stmt.readMatch expr arm) (Stmt.readMatch expr' arm') := by
  refine advance.bind fun opening opening' hopening => ?_
  refine (readCondition hA hexpr).bind fun discriminant discriminant' hdiscriminant => ?_
  refine (expect hA "\x7b").bind fun _ _ _ => ?_
  refine (bounded (Read.steady_arms false) (Read.steady_arms false)
    (collectArms hA harm false)).bind fun found found' hfound => ?_
  refine (expect hA "\x7d").bind fun _ _ _ => ?_
  exact (spanFrom hA (hA.token_span hopening.1)).bind fun span span' hspan =>
    give (hA.matchOn hdiscriminant hfound.1 hfound.2 hspan)

end Arms

end Forms

/-- Every form of a statement. -/
theorem readForm (hA : A.Lawful) {inner inner' : Stmt.Inner} [Read.Forward inner.expr]
    [Read.Forward inner'.expr] [∀ context, Read.Progress (inner.stmt context)]
    [∀ context, Read.Progress (inner'.stmt context)] [Read.Forward inner.elseIf]
    (hexpr : A.Sim A.expr inner.expr inner'.expr)
    (hstmt : ∀ inMatch, A.Sim A.stmt (inner.stmt (A.here inMatch)) (inner'.stmt (A.there inMatch)))
    (helseIf : A.Sim A.stmt inner.elseIf inner'.elseIf) (inMatch : Bool) (form : StmtForm) :
    A.Sim A.stmt (Stmt.readForm (A.here inMatch) inner form)
      (Stmt.readForm (A.there inMatch) inner' form) := by
  have hrecovered := recovering hA inMatch (hstmt inMatch)
  cases form with
  | block => exact readBlock hA hrecovered
  | varDecl => exact readVarDecl hA hexpr inMatch
  | ifElse => exact readIfElse hA hexpr hrecovered helseIf
  | whileLoop => exact readWhileLoop hA hexpr hrecovered
  | doWhile => exact readDoWhile hA hexpr hrecovered
  | forLoop => exact readForLoop hA hexpr hrecovered
  | functionDecl => exact readFunctionDecl hA hrecovered
  | classDecl => exact readClassDecl hA hrecovered
  | returnValue => exact readReturn hA hexpr
  | throwValue => exact readThrow hA hexpr
  | breakLoop => exact readBreak hA
  | continueLoop => exact readContinue hA
  | matchOn =>
      have harm := readArm hA hexpr (recovering hA true (hstmt true)) (hstmt true)
      exact readMatch hA hexpr (recovering hA true harm)
  | tryCatch => exact readTry hA hrecovered
  | retry => exact readRetry hA hexpr hrecovered

end SimAt

/-! ## Statements -/

mutual

/-- Corresponding tokens are read into corresponding statements. -/
theorem Lawful.sim_stmt (hA : A.Lawful) (levels : Nat) (inMatch : Bool) :
    A.Sim A.stmt (Stmt.read levels (A.here inMatch)) (Stmt.read levels (A.there inMatch)) := by
  cases levels with
  | zero =>
      rw [Stmt.read, Stmt.read]
      exact .tooDeep hA inMatch
  | succ levels =>
      have hforward : Read.Forward (Stmt.read (levels + 1) (A.here inMatch)) := inferInstance
      rw [Stmt.read] at hforward ⊢
      rw [Stmt.read]
      refine .current_bind hforward fun token other htoken => SimAt.restrict ?_
      have hgrammar : (A.here inMatch).grammar = .standard := hA.grammar
      have hgrammar' : (A.there inMatch).grammar = .standard := hA.grammar_other
      rw [hgrammar, hgrammar']
      simp only [Grammar.standard, ← hA.statement?_eq htoken]
      have hexpr := hA.sim_expr inMatch levels .default
      cases Grammar.statementOf? token with
      | none => exact .readExpression hA hexpr
      | some form =>
          have hstmt (inMatch : Bool) := hA.sim_stmt levels inMatch
          exact .readForm hA hexpr hstmt (hA.sim_elseIf levels inMatch) inMatch form

/-- The same for a conditional behind an `else`. -/
theorem Lawful.sim_elseIf (hA : A.Lawful) (levels : Nat) (inMatch : Bool) :
    A.Sim A.stmt (Stmt.readElseIf levels (A.here inMatch))
      (Stmt.readElseIf levels (A.there inMatch)) := by
  cases levels with
  | zero =>
      rw [Stmt.readElseIf, Stmt.readElseIf]
      exact .tooDeep hA inMatch
  | succ levels =>
      rw [Stmt.readElseIf, Stmt.readElseIf]
      exact .readIfElse hA (hA.sim_expr inMatch levels .default)
        (.recovering hA inMatch (hA.sim_stmt levels inMatch)) (hA.sim_elseIf levels inMatch)

end

/-- Corresponding tokens are read into corresponding programs. -/
theorem Lawful.sim_statements (hA : A.Lawful) (levels : Nat) (inMatch : Bool) :
    A.Sim (List.Forall₂ A.stmt) (Program.readStatements (A.here inMatch) levels)
      (Program.readStatements (A.there inMatch) levels) := by
  have hstop : A.Sim Eq (Bool.not <$> Read.hasTokens) (Bool.not <$> Read.hasTokens) :=
    SimAt.hasTokens.map fun _ _ hsame => congrArg Bool.not hsame
  exact .collect hstop Read.halts_not_hasTokens Read.halts_not_hasTokens
    (.recovering hA inMatch (hA.sim_stmt levels inMatch))

end Alignment

end ScriptLint
