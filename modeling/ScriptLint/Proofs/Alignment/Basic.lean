import Mathlib.Data.List.Forall2
import ScriptLint.Proofs.Phrase.Powers
import ScriptLint.Proofs.Reasoning.Forward

/-!
# Alignments

An alignment compares two readers that go over tokens which look alike: it says which tokens, spans,
trees and causes correspond to each other. The second reader may have tokens and errors in front of
those of the first one, and more tokens behind them. `Alignment.Lawful` asks that what corresponds
is put together in corresponding ways, one law for each way in which the readers make spans, trees
and errors.
-/

namespace ScriptLint

/-- What corresponds in two readers, and what the second one has in addition. -/
structure Alignment where
  token : Token → Token → Prop
  span : Span → Span → Prop
  expr : Expr → Expr → Prop
  stmt : Stmt → Stmt → Prop
  cause : Cause → Cause → Prop
  /-- The surroundings of the first reader, outside of a `match`. -/
  context : Context
  /-- The surroundings of the second reader, outside of a `match`. -/
  other : Context
  /-- The tokens that the second reader has behind it from the start, the latest first. -/
  before : List Token
  /-- The tokens that the second reader has left when the first one is at its end, or nothing if the
  two come to the same end. -/
  after : Option (List Token)
  /-- The errors that the second reader has recorded from the start. -/
  earlier : List ParseError

namespace Alignment

variable (A : Alignment)

/-- The tokens that only the second reader has ahead. -/
def rest : List Token :=
  A.after.getD []

/-- The surroundings of the first reader, inside a `match` or not. -/
def here (inMatch : Bool) : Context :=
  { A.context with inMatch := inMatch }

/-- The surroundings of the second reader, inside a `match` or not. -/
def there (inMatch : Bool) : Context :=
  { A.other with inMatch := inMatch }

/-! ## Parts of trees -/

/-- The values of corresponding tokens. -/
def Value (first second : String) : Prop :=
  ∃ token other, A.token token other ∧ first = token.value ∧ second = other.value

def Property (first second : ScriptLint.Property Expr) : Prop :=
  A.Value first.key second.key ∧ A.expr first.value second.value ∧ A.span first.span second.span

def Decl (first second : VarDecl) : Prop :=
  A.Value first.name second.name ∧ first.isStatic = second.isStatic ∧
    first.declaredType = second.declaredType ∧
    Option.Rel A.expr first.initializer second.initializer ∧ A.span first.span second.span

def Block (first second : ScriptLint.Block Stmt) : Prop :=
  List.Forall₂ A.stmt first.body second.body ∧ A.span first.span second.span

def Handler (first second : CatchClause Stmt) : Prop :=
  A.Value first.parameter second.parameter ∧ A.Block first.body second.body ∧
    A.span first.span second.span

def Finalizer (first second : FinallyClause Stmt) : Prop :=
  A.Block first.body second.body ∧ A.span first.span second.span

def Case (first second : MatchCase Stmt) : Prop :=
  A.expr first.test second.test ∧ A.stmt first.consequent second.consequent ∧
    A.span first.span second.span

/-! ## Errors -/

/-- Errors with corresponding causes and spans that are fatal both or neither. -/
def Failure (first second : Error) : Prop :=
  A.cause first.cause second.cause ∧ A.span first.span second.span ∧ first.fatal = second.fatal

/-- Reports that word corresponding causes at corresponding spans. -/
def Report (first second : ParseError) : Prop :=
  ∃ cause other, A.cause cause other ∧ first.message = cause.message ∧
    second.message = other.message ∧ A.span first.span second.span

/-- The ends of corresponding tokens, or those of what is behind the two readers at their start. -/
def Ends (first second : Nat) : Prop :=
  (∃ token other, A.token token other ∧ first = token.span.stop ∧ second = other.span.stop) ∨
    first = 0 ∧ second = (A.before.head?.map fun token => token.span.stop).getD 0

/-! ## Laws -/

/-- Corresponding tokens are read in the same way, and the readers agree in their grammar. -/
structure LawfulTokens : Prop where
  grammar : A.context.grammar = .standard
  grammar_other : A.other.grammar = .standard
  limit : A.context.limit = A.other.limit
  kind : ∀ {token other}, A.token token other → token.kind = other.kind
  value : ∀ {token other}, A.token token other → token.kind ≠ .string → token.kind ≠ .identifier →
    token.value = other.value

/-- Corresponding spans are put together from corresponding parts. -/
structure LawfulSpans : Prop where
  token_span : ∀ {token other}, A.token token other → A.span token.span other.span
  hull : ∀ {first second other others}, A.span first other → A.span second others →
    A.span (first.hull second) (other.hull others)
  join : ∀ {first second other others}, A.span first other → A.span second others →
    A.span ⟨first.start, second.stop⟩ ⟨other.start, others.stop⟩
  upTo : ∀ {span other stop stop'}, A.span span other → A.Ends stop stop' →
    A.span ⟨span.start, max stop span.start⟩ ⟨other.start, max stop' other.start⟩
  lineEnd : ∀ {span other}, A.span span other →
    A.span ⟨span.stop, A.context.lineEnd span.stop⟩ ⟨other.stop, A.other.lineEnd other.stop⟩

/-- Corresponding expressions are made of corresponding parts. -/
structure LawfulExprs : Prop where
  expr_span : ∀ {expr other}, A.expr expr other → A.span expr.span other.span
  assignable : ∀ {expr other}, A.expr expr other → expr.isAssignable = other.isAssignable
  literal : ∀ {token other} (value : Literal), A.token token other → token.kind ≠ .string →
    A.expr (.literal value (A.context.sourceText token.span) token.span)
      (.literal value (A.other.sourceText other.span) other.span)
  string : ∀ {token other}, A.token token other → token.kind = .string →
    A.expr (.literal (.string token.value) (A.context.sourceText token.span) token.span)
      (.literal (.string other.value) (A.other.sourceText other.span) other.span)
  identifier : ∀ {token other}, A.token token other → token.kind = .identifier →
    A.expr (.identifier token.value token.span) (.identifier other.value other.span)
  unary : ∀ {operator argument argument' span span'}, A.expr argument argument' →
    A.span span span' → A.expr (.unary operator argument span) (.unary operator argument' span')
  binary : ∀ {operator left left' right right' span span'}, A.expr left left' →
    A.expr right right' → A.span span span' →
    A.expr (.binary operator left right span) (.binary operator left' right' span')
  logical : ∀ {operator left left' right right' span span'}, A.expr left left' →
    A.expr right right' → A.span span span' →
    A.expr (.logical operator left right span) (.logical operator left' right' span')
  assignment : ∀ {assignee assignee' value value' span span'}, A.expr assignee assignee' →
    A.expr value value' → A.span span span' →
    A.expr (.assignment assignee value span) (.assignment assignee' value' span')
  call : ∀ {callee callee' arguments arguments' span span'}, A.expr callee callee' →
    List.Forall₂ A.expr arguments arguments' → A.span span span' →
    A.expr (.call callee arguments span) (.call callee' arguments' span')
  member : ∀ {object object' property property' span span'}, A.expr object object' →
    A.token property property' → A.span span span' →
    A.expr (.member object ⟨property.value, property.span⟩ span)
      (.member object' ⟨property'.value, property'.span⟩ span')
  array : ∀ {elements elements' span span'}, List.Forall₂ A.expr elements elements' →
    A.span span span' → A.expr (.array elements span) (.array elements' span')
  object : ∀ {properties properties' span span'}, List.Forall₂ A.Property properties properties' →
    A.span span span' → A.expr (.object properties span) (.object properties' span')

/-- Corresponding statements are made of corresponding parts. -/
structure LawfulStmts : Prop where
  varDecl : ∀ {decl decl'}, A.Decl decl decl' → A.stmt (.varDecl decl) (.varDecl decl')
  ifElse : ∀ {test test' consequent consequent' alternate alternate' span span'},
    A.expr test test' → A.Block consequent consequent' →
    Option.Rel A.stmt alternate alternate' → A.span span span' →
    A.stmt (.ifElse test consequent alternate span) (.ifElse test' consequent' alternate' span')
  whileLoop : ∀ {test test' body body' span span'}, A.expr test test' → A.Block body body' →
    A.span span span' → A.stmt (.whileLoop test body span) (.whileLoop test' body' span')
  doWhile : ∀ {body body' test test' span span'}, A.Block body body' → A.expr test test' →
    A.span span span' → A.stmt (.doWhile body test span) (.doWhile body' test' span')
  forLoop : ∀ {init init' test test' update update' body body' span span'},
    Option.Rel A.stmt init init' → Option.Rel A.expr test test' →
    Option.Rel A.expr update update' → A.Block body body' → A.span span span' →
    A.stmt (.forLoop init test update body span) (.forLoop init' test' update' body' span')
  functionDecl : ∀ {name name' parameters parameters' body body' span span'}, A.Value name name' →
    List.Forall₂ A.Value parameters parameters' → A.Block body body' → A.span span span' →
    A.stmt (.functionDecl name parameters body span) (.functionDecl name' parameters' body' span')
  classDecl : ∀ {name name' body body' span span'}, A.Value name name' → A.Block body body' →
    A.span span span' → A.stmt (.classDecl name body span) (.classDecl name' body' span')
  returnValue : ∀ {value value' span span'}, Option.Rel A.expr value value' → A.span span span' →
    A.stmt (.returnValue value span) (.returnValue value' span')
  throwValue : ∀ {value value' span span'}, Option.Rel A.expr value value' → A.span span span' →
    A.stmt (.throwValue value span) (.throwValue value' span')
  breakLoop : ∀ {span span'}, A.span span span' → A.stmt (.breakLoop span) (.breakLoop span')
  continueLoop : ∀ {span span'}, A.span span span' →
    A.stmt (.continueLoop span) (.continueLoop span')
  matchOn : ∀ {discriminant discriminant' cases cases' fallback fallback' span span'},
    A.expr discriminant discriminant' → List.Forall₂ A.Case cases cases' →
    Option.Rel A.stmt fallback fallback' → A.span span span' →
    A.stmt (.matchOn discriminant cases fallback span)
      (.matchOn discriminant' cases' fallback' span')
  tryCatch : ∀ {body body' handler handler' finalizer finalizer' span span'}, A.Block body body' →
    Option.Rel A.Handler handler handler' → Option.Rel A.Finalizer finalizer finalizer' →
    A.span span span' →
    A.stmt (.tryCatch body handler finalizer span) (.tryCatch body' handler' finalizer' span')
  retry : ∀ {count count' body body' handler handler' span span'}, A.expr count count' →
    A.Block body body' → Option.Rel A.Handler handler handler' → A.span span span' →
    A.stmt (.retry count body handler span) (.retry count' body' handler' span')
  expression : ∀ {value value' span span'}, A.expr value value' → A.span span span' →
    A.stmt (.expression value span) (.expression value' span')
  block : ∀ {content content'}, A.Block content content' →
    A.stmt (.block content) (.block content')

/-- Every cause that reading may give corresponds to itself, and those that show tokens to those
that show corresponding ones. -/
structure LawfulCauses : Prop where
  refl : ∀ cause, cause.category ≠ .lexical → A.cause cause cause
  category : ∀ {cause other}, A.cause cause other → cause.category = other.category
  unexpected : ∀ {token other}, A.token token other →
    A.cause (.unexpectedToken token.display) (.unexpectedToken other.display)
  detailed : ∀ {token other} (detail : String), A.token token other →
    A.cause (.unexpectedTokenDetailed token.display detail)
      (.unexpectedTokenDetailed other.display detail)
  expected : ∀ {token other} (text : String), A.token token other →
    A.cause (.expectedToken text token.display) (.expectedToken text other.display)

/-- What corresponds is put together in corresponding ways. -/
structure Lawful : Prop extends A.LawfulTokens, A.LawfulSpans, A.LawfulExprs, A.LawfulStmts,
  A.LawfulCauses

/-! ## Corresponding tokens -/

section Tokens

variable {A} (hA : A.LawfulTokens) {token other : Token} (h : A.token token other)

include hA h

/-- Corresponding tokens are known by their spelling both or neither. -/
theorem LawfulTokens.isSpelled_eq : token.isSpelled = other.isSpelled := by
  simp [Token.isSpelled, hA.kind h]

/-- Tokens that are known by their spelling have the same one. -/
theorem LawfulTokens.value_of_isSpelled (hspelled : token.isSpelled = true) :
    token.value = other.value := by
  refine hA.value h ?_ ?_ <;>
  · intro hkind
    simp [Token.isSpelled, hkind] at hspelled

/-- A text is the spelling of both tokens or of neither. -/
theorem LawfulTokens.is_eq (text : String) : token.is text = other.is text := by
  cases hspelled : token.isSpelled with
  | false => simp [Token.is, ← hA.isSpelled_eq h, hspelled]
  | true => simp [Token.is, ← hA.isSpelled_eq h, hspelled, hA.value_of_isSpelled h hspelled]

/-- One of some texts is the spelling of both tokens or of neither. -/
theorem LawfulTokens.isAny_eq (texts : List String) : token.isAny texts = other.isAny texts := by
  simp only [Token.isAny]
  exact congrArg texts.any (funext (hA.is_eq h))

/-- One of some keywords is both tokens or neither. -/
theorem LawfulTokens.keyword_eq (texts : List String) :
    (token.kind == .keyword && texts.contains token.value) =
      (other.kind == .keyword && texts.contains other.value) := by
  rw [← hA.kind h]
  by_cases hkind : token.kind = .keyword
  · rw [hA.value h (by simp [hkind]) (by simp [hkind])]
  · rw [beq_eq_false_iff_ne.2 hkind, Bool.false_and, Bool.false_and]

/-- Both tokens name a type, or neither does. -/
theorem LawfulTokens.isTypeKeyword_eq : token.isTypeKeyword = other.isTypeKeyword :=
  hA.keyword_eq h Token.typeKeywords

/-- Both tokens start a statement, or neither does. -/
theorem LawfulTokens.startsStatement_eq : token.startsStatement = other.startsStatement :=
  hA.keyword_eq h Token.statementKeywords

/-- Corresponding tokens lead the same form of an expression. -/
theorem LawfulTokens.lead?_eq : Grammar.leadOf? token = Grammar.leadOf? other := by
  unfold Grammar.leadOf?
  rw [← hA.kind h]
  cases hkind : token.kind with
  | eof | number | string | identifier => rfl
  | keyword | operator | symbol =>
      exact congrArg Grammar.leadOfSpelling? (hA.value h (by simp [hkind]) (by simp [hkind]))

/-- Corresponding tokens go on with an expression in the same way. -/
theorem LawfulTokens.tail?_eq : Grammar.tailOf? token = Grammar.tailOf? other := by
  unfold Grammar.tailOf?
  rw [← hA.isSpelled_eq h]
  split
  next hspelled => rw [hA.value_of_isSpelled h hspelled]
  next => rfl

/-- Corresponding tokens begin the same form of a statement. -/
theorem LawfulTokens.statement?_eq : Grammar.statementOf? token = Grammar.statementOf? other := by
  unfold Grammar.statementOf?
  rw [← hA.isSpelled_eq h]
  split
  next hspelled => rw [hA.value_of_isSpelled h hspelled]
  next => rfl

/-- After an error the two readers start again at corresponding tokens. -/
theorem LawfulTokens.isRestart_eq (inMatch : Bool) :
    (A.here inMatch).isRestart token = (A.there inMatch).isRestart other := by
  simp only [Context.isRestart, hA.isAny_eq h, hA.startsStatement_eq h]
  rfl

end Tokens

end Alignment

end ScriptLint
