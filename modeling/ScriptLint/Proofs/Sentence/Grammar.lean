import ScriptLint.Grammar.Program
import ScriptLint.Proofs.Phrase.Grammar

/-!
# The grammar of statements

The tokens that make a statement. `Sentence sourceText tokens stmt` says that `tokens` derive
`stmt`, with the spans of the tokens. The parts that hold no statement come first: conditions,
declarations and headers. Blocks, conditionals, clauses and arms are defined together with the
statements.
-/

namespace ScriptLint

section Parts

variable (sourceText : Span → String)

/-- An expression in parentheses. -/
inductive Condition : List Token → Expr → Prop where
  | mk {opening closing : Token} {inside : List Token} {test : Expr} :
      opening.is "(" = true → Phrase sourceText .assign inside test → closing.is ")" = true →
      Condition (opening :: (inside ++ [closing])) test

/-- An expression or nothing. -/
inductive OptionalPhrase : List Token → Option Expr → Prop where
  | none : OptionalPhrase [] none
  | some {tokens : List Token} {value : Expr} : Phrase sourceText .assign tokens value →
      OptionalPhrase tokens (some value)

/-- `var`, or `static` and `var`. -/
inductive DeclarationKeyword : List Token → Bool → Prop where
  | plain {keyword : Token} : keyword.is "var" = true → DeclarationKeyword [keyword] false
  | static {modifier keyword : Token} : modifier.is "static" = true → keyword.is "var" = true →
      DeclarationKeyword [modifier, keyword] true

/-- The name of a type or nothing. -/
inductive DeclaredType : List Token → Option Ty → Prop where
  | none : DeclaredType [] none
  | some {token : Token} {ty : Ty} : token.isTypeKeyword = true →
      Ty.ofAnnotation? token.value = some ty → DeclaredType [token] (some ty)

/-- `=` and an expression, or nothing. -/
inductive Initializer : List Token → Option Expr → Prop where
  | none : Initializer [] none
  | some {equals : Token} {tokens : List Token} {value : Expr} : equals.is "=" = true →
      Phrase sourceText .assign tokens value → Initializer (equals :: tokens) (some value)

/-- The declaration of a variable without its semicolon. -/
inductive Declaration : List Token → VarDecl → Prop where
  | mk {tokens keywords types value : List Token} {name : Token} {isStatic : Bool}
      {declaredType : Option Ty} {initializer : Option Expr} :
      DeclarationKeyword keywords isStatic → DeclaredType types declaredType →
      name.kind = .identifier → Initializer sourceText value initializer →
      tokens = keywords ++ (types ++ name :: value) →
      Declaration tokens ⟨name.value, isStatic, declaredType, initializer, Span.ofTokens tokens⟩

/-- The first part of the header of a `for` loop. -/
inductive ForInit : List Token → Option Stmt → Prop where
  | none : ForInit [] none
  | declaration {tokens : List Token} {decl : VarDecl} : Declaration sourceText tokens decl →
      ForInit tokens (some (.varDecl decl))
  | expression {tokens : List Token} {value : Expr} : Phrase sourceText .assign tokens value →
      ForInit tokens (some (.expression value (Span.ofTokens tokens)))

/-- The header of a `for` loop. -/
inductive ForHeader : List Token → Option Stmt × Option Expr × Option Expr → Prop where
  | mk {opening first second closing : Token} {before between behind : List Token}
      {init : Option Stmt} {test update : Option Expr} :
      opening.is "(" = true → ForInit sourceText before init → first.is ";" = true →
      OptionalPhrase sourceText between test → second.is ";" = true →
      OptionalPhrase sourceText behind update → closing.is ")" = true →
      ForHeader (opening :: (before ++ first :: (between ++ second :: (behind ++ [closing]))))
        (init, test, update)

/-- The name and the parameters of a function. A comma may stand behind the last parameter. -/
inductive FunctionHeader : List Token → String × List String → Prop where
  | mk {name opening closing : Token} {inside parameters : List Token} :
      name.kind = .identifier → opening.is "(" = true →
      (∀ parameter ∈ parameters, parameter.kind = .identifier) →
      Separated (fun parameter => [parameter]) parameters inside → closing.is ")" = true →
      FunctionHeader (name :: opening :: (inside ++ [closing]))
        (name.value, parameters.map Token.value)

end Parts

namespace MatchArm

/-- The content of a tested arm. -/
def case? : MatchArm → Option (MatchCase Stmt)
  | .test content => some content
  | .otherwise _ _ => none

/-- The body of a default arm. -/
def fallback? : MatchArm → Option Stmt
  | .test _ => none
  | .otherwise body _ => some body

end MatchArm

mutual

/-- `Sentence sourceText tokens stmt` says that the tokens derive the statement. -/
inductive Sentence (sourceText : Span → String) : List Token → Stmt → Prop where
  | block {tokens : List Token} {content : Block Stmt} : Braced sourceText tokens content →
      Sentence sourceText tokens (.block content)
  | varDecl {tokens front : List Token} {semicolon : Token} {decl : VarDecl} :
      Declaration sourceText front decl → semicolon.is ";" = true →
      tokens = front ++ [semicolon] →
      Sentence sourceText tokens (.varDecl { decl with span := Span.ofTokens tokens })
  | conditional {tokens : List Token} {stmt : Stmt} : Conditional sourceText "if" tokens stmt →
      Sentence sourceText tokens stmt
  | whileLoop {tokens condition block : List Token} {keyword : Token} {test : Expr}
      {body : Block Stmt} :
      keyword.is "while" = true → Condition sourceText condition test →
      Braced sourceText block body → tokens = keyword :: (condition ++ block) →
      Sentence sourceText tokens (.whileLoop test body (Span.ofTokens tokens))
  /-- A semicolon may stand behind the loop, and belongs to it. -/
  | doWhile {tokens block condition ending : List Token} {keyword middle : Token} {test : Expr}
      {body : Block Stmt} :
      keyword.is "do" = true → Braced sourceText block body → middle.is "while" = true →
      Condition sourceText condition test →
      ending = [] ∨ (∃ semicolon : Token, semicolon.is ";" = true ∧ ending = [semicolon]) →
      tokens = keyword :: (block ++ middle :: (condition ++ ending)) →
      Sentence sourceText tokens (.doWhile body test (Span.ofTokens tokens))
  | forLoop {tokens header block : List Token} {keyword : Token} {init : Option Stmt}
      {test update : Option Expr} {body : Block Stmt} :
      keyword.is "for" = true → ForHeader sourceText header (init, test, update) →
      Braced sourceText block body → tokens = keyword :: (header ++ block) →
      Sentence sourceText tokens (.forLoop init test update body (Span.ofTokens tokens))
  | functionDecl {tokens header block : List Token} {keyword : Token} {name : String}
      {parameters : List String} {body : Block Stmt} :
      keyword.is "function" = true → FunctionHeader header (name, parameters) →
      Braced sourceText block body → tokens = keyword :: (header ++ block) →
      Sentence sourceText tokens (.functionDecl name parameters body (Span.ofTokens tokens))
  | classDecl {tokens block : List Token} {keyword name : Token} {body : Block Stmt} :
      keyword.is "class" = true → name.kind = .identifier → Braced sourceText block body →
      tokens = keyword :: name :: block →
      Sentence sourceText tokens (.classDecl name.value body (Span.ofTokens tokens))
  | returnValue {tokens inside : List Token} {keyword semicolon : Token} {value : Option Expr} :
      keyword.is "return" = true → OptionalPhrase sourceText inside value →
      semicolon.is ";" = true → tokens = keyword :: (inside ++ [semicolon]) →
      Sentence sourceText tokens (.returnValue value (Span.ofTokens tokens))
  | throwValue {tokens inside : List Token} {keyword semicolon : Token} {value : Option Expr} :
      keyword.is "throw" = true → OptionalPhrase sourceText inside value →
      semicolon.is ";" = true → tokens = keyword :: (inside ++ [semicolon]) →
      Sentence sourceText tokens (.throwValue value (Span.ofTokens tokens))
  | breakLoop {keyword semicolon : Token} : keyword.is "break" = true → semicolon.is ";" = true →
      Sentence sourceText [keyword, semicolon] (.breakLoop (Span.ofTokens [keyword, semicolon]))
  | continueLoop {keyword semicolon : Token} :
      keyword.is "continue" = true → semicolon.is ";" = true →
      Sentence sourceText [keyword, semicolon] (.continueLoop (Span.ofTokens [keyword, semicolon]))
  /-- Of the arms, at most one is a default arm. -/
  | matchOn {tokens condition inside : List Token} {keyword opening closing : Token}
      {discriminant : Expr} {arms : List MatchArm} :
      keyword.is "match" = true → Condition sourceText condition discriminant →
      opening.is "\x7b" = true → Arms sourceText inside arms →
      (arms.filterMap MatchArm.fallback?).length ≤ 1 → closing.is "\x7d" = true →
      tokens = keyword :: (condition ++ opening :: (inside ++ [closing])) →
      Sentence sourceText tokens (.matchOn discriminant (arms.filterMap MatchArm.case?)
        (arms.filterMap MatchArm.fallback?).head? (Span.ofTokens tokens))
  | tryCatch {tokens block behind last : List Token} {keyword : Token} {body : Block Stmt}
      {handler : Option (CatchClause Stmt)} {finalizer : Option (FinallyClause Stmt)} :
      keyword.is "try" = true → Braced sourceText block body →
      Handler sourceText behind handler → Finalizer sourceText last finalizer →
      tokens = keyword :: (block ++ (behind ++ last)) →
      Sentence sourceText tokens (.tryCatch body handler finalizer (Span.ofTokens tokens))
  | retry {tokens condition block behind : List Token} {keyword : Token} {count : Expr}
      {body : Block Stmt} {handler : Option (CatchClause Stmt)} :
      keyword.is "retry" = true → Condition sourceText condition count →
      Braced sourceText block body → Handler sourceText behind handler →
      tokens = keyword :: (condition ++ (block ++ behind)) →
      Sentence sourceText tokens (.retry count body handler (Span.ofTokens tokens))
  /-- An expression and a semicolon. The expression begins with a name. -/
  | expression {tokens rest : List Token} {name semicolon : Token} {value : Expr} :
      name.kind = .identifier → Phrase sourceText .assign (name :: rest) value →
      semicolon.is ";" = true → tokens = name :: (rest ++ [semicolon]) →
      Sentence sourceText tokens (.expression value (Span.ofTokens tokens))

/-- Statements one behind the other. -/
inductive Sentences (sourceText : Span → String) : List Token → List Stmt → Prop where
  | nil : Sentences sourceText [] []
  | cons {first rest : List Token} {stmt : Stmt} {stmts : List Stmt} :
      Sentence sourceText first stmt → Sentences sourceText rest stmts →
      Sentences sourceText (first ++ rest) (stmt :: stmts)

/-- Statements between braces. -/
inductive Braced (sourceText : Span → String) : List Token → Block Stmt → Prop where
  | mk {tokens inside : List Token} {opening closing : Token} {body : List Stmt} :
      opening.is "\x7b" = true → Sentences sourceText inside body → closing.is "\x7d" = true →
      tokens = opening :: (inside ++ [closing]) →
      Braced sourceText tokens ⟨body, Span.ofTokens tokens⟩

/-- A conditional that begins with a given keyword. -/
inductive Conditional (sourceText : Span → String) : String → List Token → Stmt → Prop where
  | mk {text : String} {tokens condition block behind : List Token} {keyword : Token} {test : Expr}
      {consequent : Block Stmt} {alternate : Option Stmt} :
      keyword.is text = true → Condition sourceText condition test →
      Braced sourceText block consequent → Alternate sourceText behind alternate →
      tokens = keyword :: (condition ++ (block ++ behind)) →
      Conditional sourceText text tokens
        (.ifElse test consequent alternate (Span.ofTokens tokens))

/-- What may stand behind the consequent of a conditional. -/
inductive Alternate (sourceText : Span → String) : List Token → Option Stmt → Prop where
  | none : Alternate sourceText [] none
  | block {keyword : Token} {tokens : List Token} {content : Block Stmt} :
      keyword.is "else" = true → Braced sourceText tokens content →
      Alternate sourceText (keyword :: tokens) (some (.block content))
  | elseIf {keyword : Token} {tokens : List Token} {stmt : Stmt} :
      keyword.is "else" = true → Conditional sourceText "if" tokens stmt →
      Alternate sourceText (keyword :: tokens) (some stmt)
  | elif {tokens : List Token} {stmt : Stmt} : Conditional sourceText "elif" tokens stmt →
      Alternate sourceText tokens (some stmt)

/-- The handler of a `try` or `retry` statement, or nothing. -/
inductive Handler (sourceText : Span → String) : List Token → Option (CatchClause Stmt) → Prop where
  | none : Handler sourceText [] none
  | some {tokens block : List Token} {keyword opening name closing : Token} {body : Block Stmt} :
      keyword.is "catch" = true → opening.is "(" = true → name.kind = .identifier →
      closing.is ")" = true → Braced sourceText block body →
      tokens = keyword :: opening :: name :: closing :: block →
      Handler sourceText tokens (some ⟨name.value, body, Span.ofTokens tokens⟩)

/-- The closing part of a `try` statement, or nothing. -/
inductive Finalizer (sourceText : Span → String) :
    List Token → Option (FinallyClause Stmt) → Prop where
  | none : Finalizer sourceText [] none
  | some {tokens block : List Token} {keyword : Token} {body : Block Stmt} :
      keyword.is "finally" = true → Braced sourceText block body → tokens = keyword :: block →
      Finalizer sourceText tokens (some ⟨body, Span.ofTokens tokens⟩)

/-- An arm of a `match` statement. Its body is a statement, which may be a block. -/
inductive Arm (sourceText : Span → String) : List Token → MatchArm → Prop where
  | test {tokens inside behind : List Token} {keyword arrow : Token} {test : Expr}
      {consequent : Stmt} :
      keyword.is "case" = true → Phrase sourceText .assign inside test →
      arrow.is "=>" = true → Sentence sourceText behind consequent →
      tokens = keyword :: (inside ++ arrow :: behind) →
      Arm sourceText tokens (.test ⟨test, consequent, Span.ofTokens tokens⟩)
  | otherwise {keyword arrow : Token} {behind : List Token} {body : Stmt} :
      keyword.is "default" = true → arrow.is "=>" = true → Sentence sourceText behind body →
      Arm sourceText (keyword :: arrow :: behind) (.otherwise body keyword.span)

/-- Arms one behind the other. -/
inductive Arms (sourceText : Span → String) : List Token → List MatchArm → Prop where
  | nil : Arms sourceText [] []
  | cons {first rest : List Token} {arm : MatchArm} {arms : List MatchArm} :
      Arm sourceText first arm → Arms sourceText rest arms →
      Arms sourceText (first ++ rest) (arm :: arms)

end

/-! ## Forms of statements -/

/-- The spellings of the tokens with a statement form. -/
def StmtForm.keywords : StmtForm → List String
  | .block => ["\x7b"]
  | .varDecl => ["var", "static"]
  | .ifElse => ["if"]
  | .whileLoop => ["while"]
  | .doWhile => ["do"]
  | .forLoop => ["for"]
  | .functionDecl => ["function"]
  | .classDecl => ["class"]
  | .returnValue => ["return"]
  | .throwValue => ["throw"]
  | .breakLoop => ["break"]
  | .continueLoop => ["continue"]
  | .matchOn => ["match"]
  | .tryCatch => ["try"]
  | .retry => ["retry"]

/-- A token with a spelling has the statement form of its spelling. -/
theorem Grammar.statementOf?_of_is {token : Token} {text : String} (h : token.is text = true) :
    Grammar.statementOf? token = Grammar.statementOfSpelling? text := by
  obtain ⟨hspelled, rfl⟩ := Token.is_iff.1 h
  rw [Grammar.statementOf?, if_pos hspelled]

/-- A token with a statement form is one of its keywords. -/
theorem Grammar.statementOf?_cases {token : Token} {form : StmtForm}
    (h : Grammar.statementOf? token = some form) : token.isAny form.keywords = true := by
  have hspelled : token.isSpelled = true := by
    unfold Grammar.statementOf? at h
    split at h
    next hspelled => exact hspelled
    next => cases h
  obtain ⟨text, his⟩ : ∃ text, token.is text = true := ⟨_, Token.is_iff.2 ⟨hspelled, rfl⟩⟩
  rw [Grammar.statementOf?_of_is his] at h
  refine List.any_eq_true.2 ⟨text, ?_, his⟩
  unfold Grammar.statementOfSpelling? at h
  split at h <;> cases h <;> decide

/-! ## First tokens -/

/-- A declaration begins with one of its keywords, and has the span of its tokens. -/
theorem Declaration.starts {sourceText : Span → String} {tokens : List Token} {decl : VarDecl}
    (h : Declaration sourceText tokens decl) :
    ∃ first rest, tokens = first :: rest ∧ first.isAny ["var", "static"] = true ∧
      decl.span = Span.ofTokens tokens := by
  obtain ⟨hkeyword, _, _, _, rfl⟩ := h
  cases hkeyword with
  | plain hvar => exact ⟨_, _, rfl, by simp [Token.isAny, hvar], rfl⟩
  | static hstatic _ => exact ⟨_, _, rfl, by simp [Token.isAny, hstatic], rfl⟩

/-- A sentence begins with a token that has a statement form, or with a name. -/
theorem Sentence.starts {sourceText : Span → String} {tokens : List Token} {stmt : Stmt}
    (h : Sentence sourceText tokens stmt) :
    ∃ first rest, tokens = first :: rest ∧
      ((Grammar.statementOf? first).isSome = true ∨ first.kind = .identifier) := by
  have hform : ∀ {token : Token} {text : String}, token.is text = true →
      (Grammar.statementOfSpelling? text).isSome = true →
      (Grammar.statementOf? token).isSome = true ∨ token.kind = .identifier :=
    fun his hsome => .inl (by rw [Grammar.statementOf?_of_is his, hsome])
  cases h with
  | block hbraced =>
      obtain ⟨hopening, _, _, rfl⟩ := hbraced
      exact ⟨_, _, rfl, hform hopening rfl⟩
  | varDecl hdeclaration _ htokens =>
      obtain ⟨first, rest, rfl, hfirst, _⟩ := hdeclaration.starts
      refine ⟨first, _, htokens, ?_⟩
      simp only [Token.isAny, List.any_cons, List.any_nil, Bool.or_false, Bool.or_eq_true] at hfirst
      rcases hfirst with hfirst | hfirst <;> exact hform hfirst rfl
  | conditional hconditional =>
      obtain ⟨hkeyword, _, _, _, rfl⟩ := hconditional
      exact ⟨_, _, rfl, hform hkeyword rfl⟩
  | expression hkind _ _ htokens => exact ⟨_, _, htokens, .inr hkind⟩
  | whileLoop hkeyword _ _ htokens => exact ⟨_, _, htokens, hform hkeyword rfl⟩
  | doWhile hkeyword _ _ _ _ htokens => exact ⟨_, _, htokens, hform hkeyword rfl⟩
  | forLoop hkeyword _ _ htokens => exact ⟨_, _, htokens, hform hkeyword rfl⟩
  | functionDecl hkeyword _ _ htokens => exact ⟨_, _, htokens, hform hkeyword rfl⟩
  | classDecl hkeyword _ _ htokens => exact ⟨_, _, htokens, hform hkeyword rfl⟩
  | returnValue hkeyword _ _ htokens => exact ⟨_, _, htokens, hform hkeyword rfl⟩
  | throwValue hkeyword _ _ htokens => exact ⟨_, _, htokens, hform hkeyword rfl⟩
  | breakLoop hkeyword _ => exact ⟨_, _, rfl, hform hkeyword rfl⟩
  | continueLoop hkeyword _ => exact ⟨_, _, rfl, hform hkeyword rfl⟩
  | matchOn hkeyword _ _ _ _ _ htokens => exact ⟨_, _, htokens, hform hkeyword rfl⟩
  | tryCatch hkeyword _ _ _ htokens => exact ⟨_, _, htokens, hform hkeyword rfl⟩
  | retry hkeyword _ _ _ htokens => exact ⟨_, _, htokens, hform hkeyword rfl⟩

end ScriptLint
