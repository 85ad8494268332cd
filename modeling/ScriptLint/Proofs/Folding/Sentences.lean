import ScriptLint.Proofs.Folding.Phrases
import ScriptLint.Proofs.Sentence.Grammar

/-!
# Statements without folded signs

If tokens derive a statement, their split tokens derive the unfolded one. A split token begins and
ends where the token does, so the spans of statements are kept.
-/

namespace ScriptLint

/-- Unfolding keeps all spans. -/
@[simp] theorem Respelling.unfolded_span (span : Span) : unfolded.span span = span := rfl

/-- The tokens that a token is split into begin and end where it does. -/
theorem Token.split_ends (token : Token) :
    ∃ first last, token.split.head? = some first ∧ token.split.getLast? = some last ∧
      first.span.start = token.span.start ∧ last.span.stop = token.span.stop := by
  unfold split
  split <;> exact ⟨_, _, rfl, rfl, rfl, rfl⟩

/-- The span of tokens goes from the first one to the last one. -/
theorem Span.ofTokens_eq {tokens : List Token} {first last : Token}
    (hfirst : tokens.head? = some first) (hlast : tokens.getLast? = some last) :
    Span.ofTokens tokens = Span.upTo first.span.start last := by
  cases tokens with
  | nil => cases hfirst
  | cons token rest =>
      cases hfirst
      rw [List.getLast?_cons, ← List.getLastD_eq_getLast?] at hlast
      rw [Span.ofTokens, Option.some.inj hlast]

/-- Splitting tokens keeps the span of a phrase. -/
theorem Span.ofTokens_splitAll (tokens : List Token) :
    Span.ofTokens (Token.splitAll tokens) = Span.ofTokens tokens := by
  cases hfirst : tokens.head? with
  | none =>
      rw [List.head?_eq_none_iff.1 hfirst]
      rfl
  | some first =>
      cases hlast : tokens.getLast? with
      | none =>
          rw [List.getLast?_eq_none_iff.1 hlast]
          rfl
      | some last =>
          obtain ⟨opening, -, hopening, -, hstart, -⟩ := first.split_ends
          obtain ⟨-, closing, -, hclosing, -, hstop⟩ := last.split_ends
          have hhead : (Token.splitAll tokens).head? = some opening := by
            obtain ⟨rest, rfl⟩ := List.head?_eq_some_iff.1 hfirst
            rw [Token.splitAll, List.flatMap_cons, List.head?_append, hopening]
            rfl
          have hend : (Token.splitAll tokens).getLast? = some closing := by
            obtain ⟨front, rfl⟩ := List.getLast?_eq_some_iff.1 hlast
            rw [Token.splitAll_append, List.getLast?_append, Token.splitAll,
              List.flatMap_singleton, hclosing]
            rfl
          rw [Span.ofTokens_eq hhead hend, Span.ofTokens_eq hfirst hlast, Span.upTo, Span.upTo,
            hstart, hstop]

namespace Token

/-- A token that is known by its spelling is not split. -/
theorem splitAll_keyword {keyword : Token} {text : String} {tokens : List Token}
    (h : keyword.is text = true) : splitAll (keyword :: tokens) = keyword :: splitAll tokens :=
  splitAll_cons (isFolded_of_is h)

/-- A name is not split. -/
theorem splitAll_name {name : Token} {tokens : List Token} (h : name.kind = .identifier) :
    splitAll (name :: tokens) = name :: splitAll tokens :=
  splitAll_cons (isFolded_of_kind (by simp [h]))

/-- The semicolon that may end a `do` loop is not split. -/
theorem splitAll_ending {ending : List Token}
    (h : ending = [] ∨ ∃ semicolon : Token, semicolon.is ";" = true ∧ ending = [semicolon]) :
    splitAll ending = ending := by
  obtain rfl | ⟨semicolon, hsemicolon, rfl⟩ := h
  · rfl
  · exact splitAll_keyword hsemicolon

end Token

/-! ## Parts of statements -/

section Parts

variable {sourceText : Span → String} {tokens : List Token}

/-- Split tokens of a condition are those of the unfolded one. -/
theorem Condition.splitAll {test : Expr} (h : Condition sourceText tokens test)
    (hsplit : Splittable sourceText tokens) :
    Condition sourceText (Token.splitAll tokens) (test.respell .unfolded) := by
  obtain ⟨hopening, htest, hclosing⟩ := h
  rw [Token.splitAll_enclosed hopening hclosing]
  exact .mk hopening (htest.splitAll hsplit.tail.left).2 hclosing

/-- The same for an expression that may be absent. -/
theorem OptionalPhrase.splitAll {value : Option Expr} (h : OptionalPhrase sourceText tokens value)
    (hsplit : Splittable sourceText tokens) :
    OptionalPhrase sourceText (Token.splitAll tokens) (value.map (Expr.respell .unfolded)) := by
  cases h with
  | none => exact .none
  | some hvalue => exact .some (hvalue.splitAll hsplit).2

/-- The same for the first value of a declaration. -/
theorem Initializer.splitAll {value : Option Expr} (h : Initializer sourceText tokens value)
    (hsplit : Splittable sourceText tokens) :
    Initializer sourceText (Token.splitAll tokens) (value.map (Expr.respell .unfolded)) := by
  cases h with
  | none => exact .none
  | some hequals hvalue =>
      rw [Token.splitAll_keyword hequals]
      exact .some hequals (hvalue.splitAll hsplit.tail).2

/-- There is no number in the keyword of a declaration. -/
theorem DeclarationKeyword.splitAll {isStatic : Bool} (h : DeclarationKeyword tokens isStatic) :
    Token.splitAll tokens = tokens := by
  cases h with
  | plain hvar => exact Token.splitAll_keyword hvar
  | static hstatic hvar => rw [Token.splitAll_keyword hstatic, Token.splitAll_keyword hvar]; rfl

/-- There is no number in a declared type. -/
theorem DeclaredType.splitAll {ty : Option Ty} (h : DeclaredType tokens ty) :
    Token.splitAll tokens = tokens := by
  cases h with
  | none => rfl
  | @some token _ htoken _ =>
      have hkind : token.kind ≠ .number := by
        intro hkind
        simp [Token.isTypeKeyword, hkind] at htoken
      exact Token.splitAll_cons (Token.isFolded_of_kind hkind)

/-- Split tokens of a declaration are those of the unfolded one. -/
theorem Declaration.splitAll {decl : VarDecl} (h : Declaration sourceText tokens decl)
    (hsplit : Splittable sourceText tokens) :
    Declaration sourceText (Token.splitAll tokens) (decl.respell .unfolded) := by
  obtain ⟨hkeywords, htypes, hname, hvalue, rfl⟩ := h
  rw [VarDecl.respell]
  dsimp only
  rw [Respelling.unfolded_span, ← Span.ofTokens_splitAll]
  refine .mk hkeywords htypes hname (hvalue.splitAll hsplit.right.right.tail) ?_
  rw [Token.splitAll_append, Token.splitAll_append, Token.splitAll_name hname, hkeywords.splitAll,
    htypes.splitAll]

/-- The same for what a `for` loop begins with. -/
theorem ForInit.splitAll {init : Option Stmt} (h : ForInit sourceText tokens init)
    (hsplit : Splittable sourceText tokens) :
    ForInit sourceText (Token.splitAll tokens) (init.map (Stmt.respell .unfolded)) := by
  cases h with
  | none => exact .none
  | declaration hdecl => exact .declaration (hdecl.splitAll hsplit)
  | expression hvalue =>
      have hinit := ForInit.expression (hvalue.splitAll hsplit).2
      rwa [Span.ofTokens_splitAll] at hinit

/-- The same for the three parts in the header of a `for` loop. -/
theorem ForHeader.splitAll {init : Option Stmt} {test update : Option Expr}
    (h : ForHeader sourceText tokens (init, test, update))
    (hsplit : Splittable sourceText tokens) :
    ForHeader sourceText (Token.splitAll tokens) (init.map (Stmt.respell .unfolded),
      test.map (Expr.respell .unfolded), update.map (Expr.respell .unfolded)) := by
  obtain ⟨hopening, hinit, hfirst, htest, hsecond, hupdate, hclosing⟩ := h
  rw [Token.splitAll_keyword hopening, Token.splitAll_append, Token.splitAll_keyword hfirst,
    Token.splitAll_append, Token.splitAll_keyword hsecond, Token.splitAll_append,
    Token.splitAll_keyword hclosing]
  exact .mk hopening (hinit.splitAll hsplit.tail.left) hfirst
    (htest.splitAll hsplit.tail.right.tail.left) hsecond
    (hupdate.splitAll hsplit.tail.right.tail.right.tail.left) hclosing

/-- There is no number in the header of a function. -/
theorem FunctionHeader.splitAll {header : String × List String} (h : FunctionHeader tokens header) :
    FunctionHeader (Token.splitAll tokens) header := by
  obtain @⟨_, _, _, inside, parameters, hname, hopening, hparameters, hinside, hclosing⟩ := h
  have hlist : Separated (fun parameter => [parameter]) (parameters.map id)
      (Token.splitAll inside) := by
    refine Separated.splitAll (fun parameter hparameter => ?_) hinside
    rw [Token.splitAll_name (hparameters parameter hparameter), Token.splitAll_nil, id]
  rw [List.map_id] at hlist
  rw [Token.splitAll_name hname, Token.splitAll_enclosed hopening hclosing]
  exact .mk hname hopening hparameters hlist hclosing

end Parts

/-- The arm with its literals and its spans respelled. -/
def MatchArm.respell (r : Respelling) : MatchArm → MatchArm
  | .test content => .test (content.respell r)
  | .otherwise body span => .otherwise (body.respell r) (r.span span)

/-- The cases among respelled arms are the respelled cases. -/
theorem MatchArm.filterMap_case?_respell (r : Respelling) (arms : List MatchArm) :
    (arms.map (respell r)).filterMap case? = (arms.filterMap case?).map (MatchCase.respell r) := by
  rw [List.filterMap_map, List.map_filterMap]
  congr 1
  funext arm
  cases arm <;> rfl

/-- The default arms among respelled arms are the respelled default arms. -/
theorem MatchArm.filterMap_fallback?_respell (r : Respelling) (arms : List MatchArm) :
    (arms.map (respell r)).filterMap fallback? =
      (arms.filterMap fallback?).map (Stmt.respell r) := by
  rw [List.filterMap_map, List.map_filterMap]
  congr 1
  funext arm
  cases arm <;> rfl

/-! ## Statements -/

variable {sourceText : Span → String}

mutual

/-- The split tokens of a statement derive the unfolded statement. -/
theorem Sentence.splitAll : ∀ {tokens : List Token} {stmt : Stmt},
    Sentence sourceText tokens stmt → Splittable sourceText tokens →
      Sentence sourceText (Token.splitAll tokens) (stmt.respell .unfolded)
  | _, _, .block hbraced, hsplit => by
      simp only [Stmt.respell, Stmt.respellBlock_eq]
      exact .block (Braced.splitAll hbraced hsplit)
  | _, _, .varDecl hdecl hsemicolon htokens, hsplit => by
      subst htokens
      have hsentence := Sentence.varDecl (hdecl.splitAll hsplit.left) hsemicolon rfl
      rw [← Token.splitAll_nil, ← Token.splitAll_keyword hsemicolon, ← Token.splitAll_append,
        Span.ofTokens_splitAll] at hsentence
      exact hsentence
  | _, _, .conditional hconditional, hsplit =>
      .conditional (Conditional.splitAll hconditional hsplit)
  | _, _, .whileLoop hkeyword hcondition hbraced htokens, hsplit => by
      subst htokens
      simp only [Stmt.respell, Stmt.respellBlock_eq, Respelling.unfolded_span]
      rw [← Span.ofTokens_splitAll]
      refine .whileLoop hkeyword (hcondition.splitAll hsplit.tail.left)
        (Braced.splitAll hbraced hsplit.tail.right) ?_
      rw [Token.splitAll_keyword hkeyword, Token.splitAll_append]
  | _, _, .doWhile hkeyword hbraced hmiddle hcondition hending htokens, hsplit => by
      subst htokens
      simp only [Stmt.respell, Stmt.respellBlock_eq, Respelling.unfolded_span]
      rw [← Span.ofTokens_splitAll]
      refine .doWhile hkeyword (Braced.splitAll hbraced hsplit.tail.left) hmiddle
        (hcondition.splitAll hsplit.tail.right.tail.left) hending ?_
      rw [Token.splitAll_keyword hkeyword, Token.splitAll_append, Token.splitAll_keyword hmiddle,
        Token.splitAll_append, Token.splitAll_ending hending]
  | _, _, .forLoop hkeyword hheader hbraced htokens, hsplit => by
      subst htokens
      simp only [Stmt.respell, Stmt.respellBlock_eq, Stmt.respellOption_eq_map,
        Respelling.unfolded_span]
      rw [← Span.ofTokens_splitAll]
      refine .forLoop hkeyword (hheader.splitAll hsplit.tail.left)
        (Braced.splitAll hbraced hsplit.tail.right) ?_
      rw [Token.splitAll_keyword hkeyword, Token.splitAll_append]
  | _, _, .functionDecl hkeyword hheader hbraced htokens, hsplit => by
      subst htokens
      simp only [Stmt.respell, Stmt.respellBlock_eq, Respelling.unfolded_span]
      rw [← Span.ofTokens_splitAll]
      refine .functionDecl hkeyword hheader.splitAll
        (Braced.splitAll hbraced hsplit.tail.right) ?_
      rw [Token.splitAll_keyword hkeyword, Token.splitAll_append]
  | _, _, .classDecl hkeyword hname hbraced htokens, hsplit => by
      subst htokens
      simp only [Stmt.respell, Stmt.respellBlock_eq, Respelling.unfolded_span]
      rw [← Span.ofTokens_splitAll]
      refine .classDecl hkeyword hname (Braced.splitAll hbraced hsplit.tail.tail) ?_
      rw [Token.splitAll_keyword hkeyword, Token.splitAll_name hname]
  | _, _, .returnValue hkeyword hvalue hsemicolon htokens, hsplit => by
      subst htokens
      simp only [Stmt.respell, Respelling.unfolded_span]
      rw [← Span.ofTokens_splitAll]
      refine .returnValue hkeyword (hvalue.splitAll hsplit.tail.left) hsemicolon ?_
      rw [Token.splitAll_keyword hkeyword, Token.splitAll_append,
        Token.splitAll_keyword hsemicolon, Token.splitAll_nil]
  | _, _, .throwValue hkeyword hvalue hsemicolon htokens, hsplit => by
      subst htokens
      simp only [Stmt.respell, Respelling.unfolded_span]
      rw [← Span.ofTokens_splitAll]
      refine .throwValue hkeyword (hvalue.splitAll hsplit.tail.left) hsemicolon ?_
      rw [Token.splitAll_keyword hkeyword, Token.splitAll_append,
        Token.splitAll_keyword hsemicolon, Token.splitAll_nil]
  | _, _, .breakLoop hkeyword hsemicolon, _ => by
      rw [Token.splitAll_keyword hkeyword, Token.splitAll_keyword hsemicolon]
      exact .breakLoop hkeyword hsemicolon
  | _, _, .continueLoop hkeyword hsemicolon, _ => by
      rw [Token.splitAll_keyword hkeyword, Token.splitAll_keyword hsemicolon]
      exact .continueLoop hkeyword hsemicolon
  | _, _, .matchOn hkeyword hcondition hopening harms hsingle hclosing htokens, hsplit => by
      subst htokens
      simp only [Stmt.respell, Stmt.respellCases_eq_map, Stmt.respellOption_eq_map,
        Respelling.unfolded_span]
      rw [← Span.ofTokens_splitAll, ← MatchArm.filterMap_case?_respell, ← List.head?_map,
        ← MatchArm.filterMap_fallback?_respell]
      refine .matchOn hkeyword (hcondition.splitAll hsplit.tail.left) hopening
        (Arms.splitAll harms hsplit.tail.right.tail.left) ?_ hclosing ?_
      · rw [MatchArm.filterMap_fallback?_respell, List.length_map]
        exact hsingle
      · rw [Token.splitAll_keyword hkeyword, Token.splitAll_append,
          Token.splitAll_enclosed hopening hclosing]
  | _, _, .tryCatch hkeyword hbraced hhandler hfinalizer htokens, hsplit => by
      subst htokens
      simp only [Stmt.respell, Stmt.respellBlock_eq, Stmt.respellHandler_eq_map,
        Stmt.respellFinalizer_eq_map, Respelling.unfolded_span]
      rw [← Span.ofTokens_splitAll]
      refine .tryCatch hkeyword (Braced.splitAll hbraced hsplit.tail.left)
        (Handler.splitAll hhandler hsplit.tail.right.left)
        (Finalizer.splitAll hfinalizer hsplit.tail.right.right) ?_
      rw [Token.splitAll_keyword hkeyword, Token.splitAll_append, Token.splitAll_append]
  | _, _, .retry hkeyword hcondition hbraced hhandler htokens, hsplit => by
      subst htokens
      simp only [Stmt.respell, Stmt.respellBlock_eq, Stmt.respellHandler_eq_map,
        Respelling.unfolded_span]
      rw [← Span.ofTokens_splitAll]
      refine .retry hkeyword (hcondition.splitAll hsplit.tail.left)
        (Braced.splitAll hbraced hsplit.tail.right.left)
        (Handler.splitAll hhandler hsplit.tail.right.right) ?_
      rw [Token.splitAll_keyword hkeyword, Token.splitAll_append, Token.splitAll_append]
  | _, _, .expression hname hvalue hsemicolon htokens, hsplit => by
      subst htokens
      have hphrase := (hvalue.splitAll (@Splittable.left _ (_ :: _) _ hsplit)).2
      rw [Token.splitAll_name hname] at hphrase
      simp only [Stmt.respell, Respelling.unfolded_span]
      rw [← Span.ofTokens_splitAll]
      refine .expression hname hphrase hsemicolon ?_
      rw [Token.splitAll_name hname, Token.splitAll_append, Token.splitAll_keyword hsemicolon,
        Token.splitAll_nil]

/-- Split tokens of statements are those of the unfolded statements. -/
theorem Sentences.splitAll : ∀ {tokens : List Token} {stmts : List Stmt},
    Sentences sourceText tokens stmts → Splittable sourceText tokens →
      Sentences sourceText (Token.splitAll tokens) (stmts.map (Stmt.respell .unfolded))
  | _, _, .nil, _ => .nil
  | _, _, .cons hfirst hrest, hsplit => by
      rw [Token.splitAll_append]
      exact .cons (Sentence.splitAll hfirst hsplit.left) (Sentences.splitAll hrest hsplit.right)

/-- The same for a block, whose braces are not split. -/
theorem Braced.splitAll : ∀ {tokens : List Token} {content : Block Stmt},
    Braced sourceText tokens content → Splittable sourceText tokens →
      Braced sourceText (Token.splitAll tokens) (content.respell .unfolded)
  | _, _, .mk hopening hbody hclosing htokens, hsplit => by
      subst htokens
      simp only [Block.respell, Respelling.unfolded_span]
      rw [← Span.ofTokens_splitAll]
      refine .mk hopening (Sentences.splitAll hbody hsplit.tail.left) hclosing ?_
      rw [Token.splitAll_enclosed hopening hclosing]

/-- The same for a conditional with a given keyword. -/
theorem Conditional.splitAll : ∀ {text : String} {tokens : List Token} {stmt : Stmt},
    Conditional sourceText text tokens stmt → Splittable sourceText tokens →
      Conditional sourceText text (Token.splitAll tokens) (stmt.respell .unfolded)
  | _, _, _, .mk hkeyword hcondition hconsequent halternate htokens, hsplit => by
      subst htokens
      simp only [Stmt.respell, Stmt.respellBlock_eq, Stmt.respellOption_eq_map,
        Respelling.unfolded_span]
      rw [← Span.ofTokens_splitAll]
      refine .mk hkeyword (hcondition.splitAll hsplit.tail.left)
        (Braced.splitAll hconsequent hsplit.tail.right.left)
        (Alternate.splitAll halternate hsplit.tail.right.right) ?_
      rw [Token.splitAll_keyword hkeyword, Token.splitAll_append, Token.splitAll_append]

theorem Alternate.splitAll : ∀ {tokens : List Token} {alternate : Option Stmt},
    Alternate sourceText tokens alternate → Splittable sourceText tokens →
      Alternate sourceText (Token.splitAll tokens) (alternate.map (Stmt.respell .unfolded))
  | _, _, .none, _ => .none
  | _, _, .block hkeyword hbraced, hsplit => by
      rw [Token.splitAll_keyword hkeyword, Option.map_some, Stmt.respell, Stmt.respellBlock_eq]
      exact .block hkeyword (Braced.splitAll hbraced hsplit.tail)
  | _, _, .elseIf hkeyword hconditional, hsplit => by
      rw [Token.splitAll_keyword hkeyword]
      exact .elseIf hkeyword (Conditional.splitAll hconditional hsplit.tail)
  | _, _, .elif hconditional, hsplit => .elif (Conditional.splitAll hconditional hsplit)

theorem Handler.splitAll : ∀ {tokens : List Token} {handler : Option (CatchClause Stmt)},
    Handler sourceText tokens handler → Splittable sourceText tokens →
      Handler sourceText (Token.splitAll tokens) (handler.map (CatchClause.respell .unfolded))
  | _, _, .none, _ => .none
  | _, _, .some hkeyword hopening hname hclosing hbraced htokens, hsplit => by
      subst htokens
      simp only [Option.map_some, CatchClause.respell, Respelling.unfolded_span]
      rw [← Span.ofTokens_splitAll]
      refine .some hkeyword hopening hname hclosing
        (Braced.splitAll hbraced hsplit.tail.tail.tail.tail) ?_
      rw [Token.splitAll_keyword hkeyword, Token.splitAll_keyword hopening,
        Token.splitAll_name hname, Token.splitAll_keyword hclosing]

theorem Finalizer.splitAll : ∀ {tokens : List Token} {finalizer : Option (FinallyClause Stmt)},
    Finalizer sourceText tokens finalizer → Splittable sourceText tokens →
      Finalizer sourceText (Token.splitAll tokens)
        (finalizer.map (FinallyClause.respell .unfolded))
  | _, _, .none, _ => .none
  | _, _, .some hkeyword hbraced htokens, hsplit => by
      subst htokens
      simp only [Option.map_some, FinallyClause.respell, Respelling.unfolded_span]
      rw [← Span.ofTokens_splitAll]
      refine .some hkeyword (Braced.splitAll hbraced hsplit.tail) ?_
      rw [Token.splitAll_keyword hkeyword]

theorem Arm.splitAll : ∀ {tokens : List Token} {arm : MatchArm},
    Arm sourceText tokens arm → Splittable sourceText tokens →
      Arm sourceText (Token.splitAll tokens) (arm.respell .unfolded)
  | _, _, .test hkeyword htest harrow hconsequent htokens, hsplit => by
      subst htokens
      simp only [MatchArm.respell, MatchCase.respell, Respelling.unfolded_span]
      rw [← Span.ofTokens_splitAll]
      refine .test hkeyword (htest.splitAll hsplit.tail.left).2 harrow
        (Sentence.splitAll hconsequent hsplit.tail.right.tail) ?_
      rw [Token.splitAll_keyword hkeyword, Token.splitAll_append, Token.splitAll_keyword harrow]
  | _, _, .otherwise hkeyword harrow hbody, hsplit => by
      rw [Token.splitAll_keyword hkeyword, Token.splitAll_keyword harrow]
      exact .otherwise hkeyword harrow (Sentence.splitAll hbody hsplit.tail.tail)

theorem Arms.splitAll : ∀ {tokens : List Token} {arms : List MatchArm},
    Arms sourceText tokens arms → Splittable sourceText tokens →
      Arms sourceText (Token.splitAll tokens) (arms.map (MatchArm.respell .unfolded))
  | _, _, .nil, _ => .nil
  | _, _, .cons hfirst hrest, hsplit => by
      rw [Token.splitAll_append]
      exact .cons (Arm.splitAll hfirst hsplit.left) (Arms.splitAll hrest hsplit.right)

end

end ScriptLint
