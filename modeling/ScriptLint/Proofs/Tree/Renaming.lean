import Mathlib.Data.List.Forall2
import ScriptLint.Token.Basic
import ScriptLint.Tree.Stmt

/-!
# Trees with other contents

A relation between tokens says what may stand in the place of what. Two trees are renamings of each
other if they are the same, spans included, but for the contents of strings and the names, which are
the values of related tokens. Where the tree holds the place of a name or a string, the two tokens
stand at that place.
-/

namespace ScriptLint

variable (R : Token → Token → Prop)

/-- The value of a token in the place of the value of the one that it is swapped for. -/
inductive Reworded : String → String → Prop where
  | intro {token other : Token} : R token other → Reworded token.value other.value

mutual

/-- The same expression with the contents of its strings and names swapped. -/
inductive Expr.Renamed : Expr → Expr → Prop where
  | literal (value : Literal) (raw : String) (span : Span) :
      Expr.Renamed (.literal value raw span) (.literal value raw span)
  | string {value value' : String} {span : Span} (raw : String) :
      R ⟨.string, value, span⟩ ⟨.string, value', span⟩ →
      Expr.Renamed (.literal (.string value) raw span) (.literal (.string value') raw span)
  | identifier {name name' : String} {span : Span} :
      R ⟨.identifier, name, span⟩ ⟨.identifier, name', span⟩ →
      Expr.Renamed (.identifier name span) (.identifier name' span)
  | binary {left left' right right' : Expr} (operator : String) (span : Span) :
      Expr.Renamed left left' → Expr.Renamed right right' →
      Expr.Renamed (.binary operator left right span) (.binary operator left' right' span)
  | logical {left left' right right' : Expr} (operator : String) (span : Span) :
      Expr.Renamed left left' → Expr.Renamed right right' →
      Expr.Renamed (.logical operator left right span) (.logical operator left' right' span)
  | unary {argument argument' : Expr} (operator : String) (span : Span) :
      Expr.Renamed argument argument' →
      Expr.Renamed (.unary operator argument span) (.unary operator argument' span)
  | assignment {assignee assignee' value value' : Expr} (span : Span) :
      Expr.Renamed assignee assignee' → Expr.Renamed value value' →
      Expr.Renamed (.assignment assignee value span) (.assignment assignee' value' span)
  | call {callee callee' : Expr} {arguments arguments' : List Expr} (span : Span) :
      Expr.Renamed callee callee' → List.Forall₂ Expr.Renamed arguments arguments' →
      Expr.Renamed (.call callee arguments span) (.call callee' arguments' span)
  | member {object object' : Expr} {kind : TokenKind} {name name' : String} {place : Span}
      (span : Span) : Expr.Renamed object object' → R ⟨kind, name, place⟩ ⟨kind, name', place⟩ →
      Expr.Renamed (.member object ⟨name, place⟩ span) (.member object' ⟨name', place⟩ span)
  | array {elements elements' : List Expr} (span : Span) :
      List.Forall₂ Expr.Renamed elements elements' →
      Expr.Renamed (.array elements span) (.array elements' span)
  | object {properties properties' : List (Property Expr)} (span : Span) :
      List.Forall₂ Property.Renamed properties properties' →
      Expr.Renamed (.object properties span) (.object properties' span)

/-- The same property with the contents of its strings and names swapped. -/
inductive Property.Renamed : Property Expr → Property Expr → Prop where
  | intro {key key' : String} {value value' : Expr} (span : Span) : Reworded R key key' →
      Expr.Renamed value value' → Property.Renamed ⟨key, value, span⟩ ⟨key', value', span⟩

end

/-- The same declaration with the contents of its strings and names swapped. -/
inductive VarDecl.Renamed : VarDecl → VarDecl → Prop where
  | intro {name name' : String} {initializer initializer' : Option Expr} (isStatic : Bool)
      (declaredType : Option Ty) (span : Span) : Reworded R name name' →
      Option.Rel (Expr.Renamed R) initializer initializer' →
      VarDecl.Renamed ⟨name, isStatic, declaredType, initializer, span⟩
        ⟨name', isStatic, declaredType, initializer', span⟩

mutual

/-- The same statement with the contents of its strings and names swapped. -/
inductive Stmt.Renamed : Stmt → Stmt → Prop where
  | varDecl {decl decl' : VarDecl} : decl.Renamed R decl' →
      Stmt.Renamed (.varDecl decl) (.varDecl decl')
  | ifElse {test test' : Expr} {consequent consequent' : Block Stmt}
      {alternate alternate' : Option Stmt} (span : Span) : test.Renamed R test' →
      Block.Renamed consequent consequent' → Option.Rel Stmt.Renamed alternate alternate' →
      Stmt.Renamed (.ifElse test consequent alternate span)
        (.ifElse test' consequent' alternate' span)
  | whileLoop {test test' : Expr} {body body' : Block Stmt} (span : Span) :
      test.Renamed R test' → Block.Renamed body body' →
      Stmt.Renamed (.whileLoop test body span) (.whileLoop test' body' span)
  | doWhile {body body' : Block Stmt} {test test' : Expr} (span : Span) :
      Block.Renamed body body' → test.Renamed R test' →
      Stmt.Renamed (.doWhile body test span) (.doWhile body' test' span)
  | forLoop {init init' : Option Stmt} {test test' update update' : Option Expr}
      {body body' : Block Stmt} (span : Span) : Option.Rel Stmt.Renamed init init' →
      Option.Rel (Expr.Renamed R) test test' → Option.Rel (Expr.Renamed R) update update' →
      Block.Renamed body body' →
      Stmt.Renamed (.forLoop init test update body span) (.forLoop init' test' update' body' span)
  | functionDecl {name name' : String} {parameters parameters' : List String}
      {body body' : Block Stmt} (span : Span) : Reworded R name name' →
      List.Forall₂ (Reworded R) parameters parameters' → Block.Renamed body body' →
      Stmt.Renamed (.functionDecl name parameters body span)
        (.functionDecl name' parameters' body' span)
  | classDecl {name name' : String} {body body' : Block Stmt} (span : Span) :
      Reworded R name name' → Block.Renamed body body' →
      Stmt.Renamed (.classDecl name body span) (.classDecl name' body' span)
  | returnValue {value value' : Option Expr} (span : Span) :
      Option.Rel (Expr.Renamed R) value value' →
      Stmt.Renamed (.returnValue value span) (.returnValue value' span)
  | throwValue {value value' : Option Expr} (span : Span) :
      Option.Rel (Expr.Renamed R) value value' →
      Stmt.Renamed (.throwValue value span) (.throwValue value' span)
  | breakLoop (span : Span) : Stmt.Renamed (.breakLoop span) (.breakLoop span)
  | continueLoop (span : Span) : Stmt.Renamed (.continueLoop span) (.continueLoop span)
  | matchOn {discriminant discriminant' : Expr} {cases cases' : List (MatchCase Stmt)}
      {fallback fallback' : Option Stmt} (span : Span) : discriminant.Renamed R discriminant' →
      List.Forall₂ MatchCase.Renamed cases cases' → Option.Rel Stmt.Renamed fallback fallback' →
      Stmt.Renamed (.matchOn discriminant cases fallback span)
        (.matchOn discriminant' cases' fallback' span)
  | tryCatch {body body' : Block Stmt} {handler handler' : Option (CatchClause Stmt)}
      {finalizer finalizer' : Option (FinallyClause Stmt)} (span : Span) :
      Block.Renamed body body' → Option.Rel CatchClause.Renamed handler handler' →
      Option.Rel FinallyClause.Renamed finalizer finalizer' →
      Stmt.Renamed (.tryCatch body handler finalizer span)
        (.tryCatch body' handler' finalizer' span)
  | retry {count count' : Expr} {body body' : Block Stmt}
      {handler handler' : Option (CatchClause Stmt)} (span : Span) : count.Renamed R count' →
      Block.Renamed body body' → Option.Rel CatchClause.Renamed handler handler' →
      Stmt.Renamed (.retry count body handler span) (.retry count' body' handler' span)
  | expression {value value' : Expr} (span : Span) : value.Renamed R value' →
      Stmt.Renamed (.expression value span) (.expression value' span)
  | block {content content' : Block Stmt} : Block.Renamed content content' →
      Stmt.Renamed (.block content) (.block content')

/-- The same block, one statement for another. -/
inductive Block.Renamed : Block Stmt → Block Stmt → Prop where
  | intro {body body' : List Stmt} (span : Span) : List.Forall₂ Stmt.Renamed body body' →
      Block.Renamed ⟨body, span⟩ ⟨body', span⟩

inductive CatchClause.Renamed : CatchClause Stmt → CatchClause Stmt → Prop where
  | intro {parameter parameter' : String} {body body' : Block Stmt} (span : Span) :
      Reworded R parameter parameter' → Block.Renamed body body' →
      CatchClause.Renamed ⟨parameter, body, span⟩ ⟨parameter', body', span⟩

inductive FinallyClause.Renamed : FinallyClause Stmt → FinallyClause Stmt → Prop where
  | intro {body body' : Block Stmt} (span : Span) : Block.Renamed body body' →
      FinallyClause.Renamed ⟨body, span⟩ ⟨body', span⟩

/-- The same arm with the contents of its strings and names swapped. -/
inductive MatchCase.Renamed : MatchCase Stmt → MatchCase Stmt → Prop where
  | intro {test test' : Expr} {consequent consequent' : Stmt} (span : Span) :
      test.Renamed R test' → Stmt.Renamed consequent consequent' →
      MatchCase.Renamed ⟨test, consequent, span⟩ ⟨test', consequent', span⟩

end

variable {R}

/-- Renamed expressions stand at the same place. -/
theorem Expr.Renamed.span_eq {expr other : Expr} (h : expr.Renamed R other) :
    expr.span = other.span := by
  cases h <;> rfl

/-- Renaming keeps whether an expression may be assigned to. -/
theorem Expr.Renamed.isAssignable_eq {expr other : Expr} (h : expr.Renamed R other) :
    expr.isAssignable = other.isAssignable := by
  cases h <;> rfl

end ScriptLint
