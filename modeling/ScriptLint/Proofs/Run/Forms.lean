import ScriptLint.Proofs.Run.Logic

/-!
# Statements with errors

The grammar of statements again, one layer at a time and with room for errors. The statements inside
a form are known by their accounts, the statements of a block may have been recovered from, and the
errors that were recorded are listed in their order. `Stmt.Accounts.Closed` says of an account that
it goes from the statements inside a form to the whole; then it holds of all that is read.
-/

namespace ScriptLint

namespace Stmt

/-- What is known of the statements inside a statement. -/
structure Accounts where
  stmt : Account Stmt
  /-- Of a conditional that begins with a given keyword. -/
  conditional : String → Account Stmt

namespace Accounts

variable (sourceText : Span → String) (A : Accounts)

/-- Statements between braces. -/
inductive Braced : Account (Block Stmt) where
  | mk {tokens inside : List Token} {reports : Array ParseError} {opening closing : Token}
      {body : List Stmt} :
      opening.is "\x7b" = true → Account.Collected A.stmt inside reports body →
      closing.is "\x7d" = true → tokens = opening :: (inside ++ [closing]) →
      Braced tokens reports ⟨body, Span.ofTokens tokens⟩

/-- What may stand behind the consequent of a conditional. -/
inductive Alternate : Account (Option Stmt) where
  | none : Alternate [] #[] none
  | block {keyword : Token} {tokens : List Token} {reports : Array ParseError}
      {content : Block Stmt} :
      keyword.is "else" = true → A.Braced tokens reports content →
      Alternate (keyword :: tokens) reports (some (.block content))
  | elseIf {keyword : Token} {tokens : List Token} {reports : Array ParseError} {stmt : Stmt} :
      keyword.is "else" = true → A.conditional "if" tokens reports stmt →
      Alternate (keyword :: tokens) reports (some stmt)
  | elif {tokens : List Token} {reports : Array ParseError} {stmt : Stmt} :
      A.conditional "elif" tokens reports stmt → Alternate tokens reports (some stmt)

/-- A conditional that begins with a given keyword. -/
inductive Conditional (text : String) : Account Stmt where
  | mk {tokens condition block behind : List Token} {reports others : Array ParseError}
      {keyword : Token} {test : Expr} {consequent : Block Stmt} {alternate : Option Stmt} :
      keyword.is text = true → Condition sourceText condition test →
      A.Braced block reports consequent → A.Alternate behind others alternate →
      tokens = keyword :: (condition ++ (block ++ behind)) →
      Conditional text tokens (reports ++ others)
        (.ifElse test consequent alternate (Span.ofTokens tokens))

/-- The handler of a `try` or `retry` statement, or nothing. -/
inductive Handler : Account (Option (CatchClause Stmt)) where
  | none : Handler [] #[] none
  | some {tokens block : List Token} {reports : Array ParseError}
      {keyword opening name closing : Token} {body : Block Stmt} :
      keyword.is "catch" = true → opening.is "(" = true → name.kind = .identifier →
      closing.is ")" = true → A.Braced block reports body →
      tokens = keyword :: opening :: name :: closing :: block →
      Handler tokens reports (some ⟨name.value, body, Span.ofTokens tokens⟩)

/-- The closing part of a `try` statement, or nothing. -/
inductive Finalizer : Account (Option (FinallyClause Stmt)) where
  | none : Finalizer [] #[] none
  | some {tokens block : List Token} {reports : Array ParseError} {keyword : Token}
      {body : Block Stmt} :
      keyword.is "finally" = true → A.Braced block reports body → tokens = keyword :: block →
      Finalizer tokens reports (some ⟨body, Span.ofTokens tokens⟩)

/-- An arm of a `match` statement. -/
inductive Arm : Account MatchArm where
  | test {tokens inside behind : List Token} {reports : Array ParseError} {keyword arrow : Token}
      {test : Expr} {consequent : Stmt} :
      keyword.is "case" = true → Phrase sourceText .assign inside test →
      arrow.is "=>" = true → A.stmt behind reports consequent →
      tokens = keyword :: (inside ++ arrow :: behind) →
      Arm tokens reports (.test ⟨test, consequent, Span.ofTokens tokens⟩)
  | otherwise {behind : List Token} {reports : Array ParseError} {keyword arrow : Token}
      {body : Stmt} :
      keyword.is "default" = true → arrow.is "=>" = true → A.stmt behind reports body →
      Arm (keyword :: arrow :: behind) reports (.otherwise body keyword.span)

/-- Arms one behind the other. Of those that count, at most one is a default arm, and none if there
was one before. -/
inductive Arms (seen : Bool) : Account (List (MatchCase Stmt) × Option Stmt) where
  | mk {tokens : List Token} {reports : Array ParseError} {arms : List MatchArm} :
      Account.Collected (A.Arm sourceText) tokens reports arms →
      (arms.filterMap MatchArm.fallback?).length ≤ (if seen then 0 else 1) →
      Arms seen tokens reports
        (arms.filterMap MatchArm.case?, (arms.filterMap MatchArm.fallback?).head?)

/-- A statement of one of the forms, if the statements inside it have their accounts. -/
inductive Form : Account Stmt where
  | block {tokens : List Token} {reports : Array ParseError} {content : Block Stmt} :
      A.Braced tokens reports content → Form tokens reports (.block content)
  | varDecl {tokens front : List Token} {semicolon : Token} {decl : VarDecl} :
      Declaration sourceText front decl → semicolon.is ";" = true →
      tokens = front ++ [semicolon] →
      Form tokens #[] (.varDecl { decl with span := Span.ofTokens tokens })
  /-- A declaration without its semicolon, which is recorded. -/
  | openVarDecl {tokens : List Token} {report : ParseError} {decl : VarDecl} :
      Declaration sourceText tokens decl → Form tokens #[report] (.varDecl decl)
  | conditional {tokens : List Token} {reports : Array ParseError} {stmt : Stmt} :
      A.conditional "if" tokens reports stmt → Form tokens reports stmt
  | whileLoop {tokens condition block : List Token} {reports : Array ParseError} {keyword : Token}
      {test : Expr} {body : Block Stmt} :
      keyword.is "while" = true → Condition sourceText condition test →
      A.Braced block reports body → tokens = keyword :: (condition ++ block) →
      Form tokens reports (.whileLoop test body (Span.ofTokens tokens))
  | doWhile {tokens block condition ending : List Token} {reports : Array ParseError}
      {keyword middle : Token} {test : Expr} {body : Block Stmt} :
      keyword.is "do" = true → A.Braced block reports body → middle.is "while" = true →
      Condition sourceText condition test →
      ending = [] ∨ (∃ semicolon : Token, semicolon.is ";" = true ∧ ending = [semicolon]) →
      tokens = keyword :: (block ++ middle :: (condition ++ ending)) →
      Form tokens reports (.doWhile body test (Span.ofTokens tokens))
  | forLoop {tokens header block : List Token} {reports : Array ParseError} {keyword : Token}
      {init : Option Stmt} {test update : Option Expr} {body : Block Stmt} :
      keyword.is "for" = true → ForHeader sourceText header (init, test, update) →
      A.Braced block reports body → tokens = keyword :: (header ++ block) →
      Form tokens reports (.forLoop init test update body (Span.ofTokens tokens))
  | functionDecl {tokens header block : List Token} {reports : Array ParseError} {keyword : Token}
      {name : String} {parameters : List String} {body : Block Stmt} :
      keyword.is "function" = true → FunctionHeader header (name, parameters) →
      A.Braced block reports body → tokens = keyword :: (header ++ block) →
      Form tokens reports (.functionDecl name parameters body (Span.ofTokens tokens))
  | classDecl {tokens block : List Token} {reports : Array ParseError} {keyword name : Token}
      {body : Block Stmt} :
      keyword.is "class" = true → name.kind = .identifier → A.Braced block reports body →
      tokens = keyword :: name :: block →
      Form tokens reports (.classDecl name.value body (Span.ofTokens tokens))
  | returnValue {tokens inside : List Token} {keyword semicolon : Token} {value : Option Expr} :
      keyword.is "return" = true → OptionalPhrase sourceText inside value →
      semicolon.is ";" = true → tokens = keyword :: (inside ++ [semicolon]) →
      Form tokens #[] (.returnValue value (Span.ofTokens tokens))
  | throwValue {tokens inside : List Token} {keyword semicolon : Token} {value : Option Expr} :
      keyword.is "throw" = true → OptionalPhrase sourceText inside value →
      semicolon.is ";" = true → tokens = keyword :: (inside ++ [semicolon]) →
      Form tokens #[] (.throwValue value (Span.ofTokens tokens))
  | breakLoop {keyword semicolon : Token} : keyword.is "break" = true → semicolon.is ";" = true →
      Form [keyword, semicolon] #[] (.breakLoop (Span.ofTokens [keyword, semicolon]))
  | continueLoop {keyword semicolon : Token} :
      keyword.is "continue" = true → semicolon.is ";" = true →
      Form [keyword, semicolon] #[] (.continueLoop (Span.ofTokens [keyword, semicolon]))
  | matchOn {tokens condition inside : List Token} {reports : Array ParseError}
      {keyword opening closing : Token} {discriminant : Expr} {cases : List (MatchCase Stmt)}
      {fallback : Option Stmt} :
      keyword.is "match" = true → Condition sourceText condition discriminant →
      opening.is "\x7b" = true → A.Arms sourceText false inside reports (cases, fallback) →
      closing.is "\x7d" = true →
      tokens = keyword :: (condition ++ opening :: (inside ++ [closing])) →
      Form tokens reports (.matchOn discriminant cases fallback (Span.ofTokens tokens))
  | tryCatch {tokens block behind last : List Token} {reports others final : Array ParseError}
      {keyword : Token} {body : Block Stmt} {handler : Option (CatchClause Stmt)}
      {finalizer : Option (FinallyClause Stmt)} :
      keyword.is "try" = true → A.Braced block reports body → A.Handler behind others handler →
      A.Finalizer last final finalizer → tokens = keyword :: (block ++ (behind ++ last)) →
      Form tokens (reports ++ (others ++ final))
        (.tryCatch body handler finalizer (Span.ofTokens tokens))
  | retry {tokens condition block behind : List Token} {reports others : Array ParseError}
      {keyword : Token} {count : Expr} {body : Block Stmt} {handler : Option (CatchClause Stmt)} :
      keyword.is "retry" = true → Condition sourceText condition count →
      A.Braced block reports body → A.Handler behind others handler →
      tokens = keyword :: (condition ++ (block ++ behind)) →
      Form tokens (reports ++ others) (.retry count body handler (Span.ofTokens tokens))
  | expression {tokens rest : List Token} {name semicolon : Token} {value : Expr} :
      name.kind = .identifier → Phrase sourceText .assign (name :: rest) value →
      semicolon.is ";" = true → tokens = name :: (rest ++ [semicolon]) →
      Form tokens #[] (.expression value (Span.ofTokens tokens))

/-- Whatever has one of the forms has the account of a statement, and so has a conditional. -/
structure Closed : Prop where
  stmt : ∀ {tokens reports stmt}, A.Form sourceText tokens reports stmt →
    A.stmt tokens reports stmt
  conditional : ∀ {text tokens reports stmt}, A.Conditional sourceText text tokens reports stmt →
    A.conditional text tokens reports stmt

/-- Nothing is said of the statements, for those who look at the errors only. -/
def free : Accounts :=
  ⟨fun _ _ _ => True, fun _ _ _ _ => True⟩

/-- What says nothing goes from the parts to the whole. -/
theorem free_closed : free.Closed sourceText :=
  ⟨fun _ => trivial, fun _ => trivial⟩

end Accounts

end Stmt

end ScriptLint
