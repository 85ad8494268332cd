import ScriptLint.Diagnostic
import ScriptLint.Tree.Stmt

/-!
# Trees with other spans

`mapSpan f` puts `f span` in the place of every span of a tree and changes nothing else. A tree or a
report is shifted by moving all its spans by the same number of bytes.
-/

namespace ScriptLint

/-- A span that is moved by nothing stays where it is. -/
@[simp] theorem Span.shift_zero (span : Span) : span.shift 0 = span := rfl

namespace Expr

mutual

/-- The expression with `f span` in the place of every span. -/
def mapSpan (f : Span → Span) : Expr → Expr
  | .literal value raw span => .literal value raw (f span)
  | .identifier name span => .identifier name (f span)
  | .binary operator left right span => .binary operator (mapSpan f left) (mapSpan f right) (f span)
  | .logical operator left right span =>
      .logical operator (mapSpan f left) (mapSpan f right) (f span)
  | .unary operator argument span => .unary operator (mapSpan f argument) (f span)
  | .assignment assignee value span => .assignment (mapSpan f assignee) (mapSpan f value) (f span)
  | .call callee arguments span => .call (mapSpan f callee) (mapSpans f arguments) (f span)
  | .member owner property span =>
      .member (mapSpan f owner) ⟨property.text, f property.span⟩ (f span)
  | .array elements span => .array (mapSpans f elements) (f span)
  | .object properties span => .object (mapProperties f properties) (f span)

/-- Expressions with `f span` in the place of every span. -/
def mapSpans (f : Span → Span) : List Expr → List Expr
  | [] => []
  | expr :: rest => mapSpan f expr :: mapSpans f rest

/-- Properties with `f span` in the place of every span. -/
def mapProperties (f : Span → Span) : List (Property Expr) → List (Property Expr)
  | [] => []
  | property :: rest =>
      ⟨property.key, mapSpan f property.value, f property.span⟩ :: mapProperties f rest

end

/-- The expression moved `amount` bytes to the right. -/
def shift (amount : Nat) : Expr → Expr :=
  mapSpan (Span.shift amount)

variable {f : Span → Span}

/-- The span of the whole is replaced like all the others. -/
@[simp] theorem span_mapSpan (expr : Expr) : (expr.mapSpan f).span = f expr.span := by
  cases expr <;> rfl

/-- Whether an expression may be assigned to does not depend on its spans. -/
@[simp] theorem isAssignable_mapSpan (expr : Expr) :
    (expr.mapSpan f).isAssignable = expr.isAssignable := by
  cases expr <;> rfl

/-- Expressions get their spans one by one. -/
theorem mapSpans_eq_map (exprs : List Expr) : mapSpans f exprs = exprs.map (mapSpan f) := by
  induction exprs with
  | nil => rfl
  | cons expr rest ih => rw [mapSpans, ih, List.map_cons]

/-- Properties get their spans one by one, their values included. -/
theorem mapProperties_eq_map (properties : List (Property Expr)) :
    mapProperties f properties =
      properties.map fun property =>
        ⟨property.key, property.value.mapSpan f, f property.span⟩ := by
  induction properties with
  | nil => rfl
  | cons property rest ih => rw [mapProperties, ih, List.map_cons]

mutual

/-- An expression stays the same if every span does. -/
theorem mapSpan_eq_self (hf : ∀ span, f span = span) : ∀ expr : Expr, expr.mapSpan f = expr
  | .literal _ _ _ => by simp [mapSpan, hf]
  | .identifier _ _ => by simp [mapSpan, hf]
  | .binary _ left right _ => by
      simp [mapSpan, hf, mapSpan_eq_self hf left, mapSpan_eq_self hf right]
  | .logical _ left right _ => by
      simp [mapSpan, hf, mapSpan_eq_self hf left, mapSpan_eq_self hf right]
  | .unary _ argument _ => by simp [mapSpan, hf, mapSpan_eq_self hf argument]
  | .assignment assignee value _ => by
      simp [mapSpan, hf, mapSpan_eq_self hf assignee, mapSpan_eq_self hf value]
  | .call callee arguments _ => by
      simp [mapSpan, hf, mapSpan_eq_self hf callee, mapSpans_eq_self hf arguments]
  | .member owner _ _ => by simp [mapSpan, hf, mapSpan_eq_self hf owner]
  | .array elements _ => by simp [mapSpan, hf, mapSpans_eq_self hf elements]
  | .object properties _ => by simp [mapSpan, hf, mapProperties_eq_self hf properties]

theorem mapSpans_eq_self (hf : ∀ span, f span = span) :
    ∀ exprs : List Expr, mapSpans f exprs = exprs
  | [] => rfl
  | expr :: rest => by rw [mapSpans, mapSpan_eq_self hf expr, mapSpans_eq_self hf rest]

theorem mapProperties_eq_self (hf : ∀ span, f span = span) :
    ∀ properties : List (Property Expr), mapProperties f properties = properties
  | [] => rfl
  | property :: rest => by
      rw [mapProperties, hf, mapSpan_eq_self hf property.value, mapProperties_eq_self hf rest]

end

/-- So does an expression that may be absent. -/
theorem map_mapSpan_eq_self (hf : ∀ span, f span = span) (expr : Option Expr) :
    expr.map (mapSpan f) = expr := by
  cases expr with
  | none => rfl
  | some value => rw [Option.map_some, mapSpan_eq_self hf value]

end Expr

/-- The declaration with `f span` in the place of every span. -/
def VarDecl.mapSpan (f : Span → Span) (decl : VarDecl) : VarDecl :=
  { decl with initializer := decl.initializer.map (Expr.mapSpan f), span := f decl.span }

namespace Stmt

mutual

/-- The statement with `f span` in the place of every span. -/
def mapSpan (f : Span → Span) : Stmt → Stmt
  | .varDecl decl => .varDecl (decl.mapSpan f)
  | .ifElse test consequent alternate span =>
      .ifElse (test.mapSpan f) (mapBlock f consequent) (mapOption f alternate) (f span)
  | .whileLoop test body span => .whileLoop (test.mapSpan f) (mapBlock f body) (f span)
  | .doWhile body test span => .doWhile (mapBlock f body) (test.mapSpan f) (f span)
  | .forLoop init test update body span =>
      .forLoop (mapOption f init) (test.map (Expr.mapSpan f)) (update.map (Expr.mapSpan f))
        (mapBlock f body) (f span)
  | .functionDecl name parameters body span =>
      .functionDecl name parameters (mapBlock f body) (f span)
  | .classDecl name body span => .classDecl name (mapBlock f body) (f span)
  | .returnValue value span => .returnValue (value.map (Expr.mapSpan f)) (f span)
  | .throwValue value span => .throwValue (value.map (Expr.mapSpan f)) (f span)
  | .breakLoop span => .breakLoop (f span)
  | .continueLoop span => .continueLoop (f span)
  | .matchOn discriminant cases fallback span =>
      .matchOn (discriminant.mapSpan f) (mapCases f cases) (mapOption f fallback) (f span)
  | .tryCatch body handler finalizer span =>
      .tryCatch (mapBlock f body) (mapHandler f handler) (mapFinalizer f finalizer) (f span)
  | .retry count body handler span =>
      .retry (count.mapSpan f) (mapBlock f body) (mapHandler f handler) (f span)
  | .expression value span => .expression (value.mapSpan f) (f span)
  | .block content => .block (mapBlock f content)

/-- Statements with `f span` in the place of every span. -/
def mapSpans (f : Span → Span) : List Stmt → List Stmt
  | [] => []
  | stmt :: rest => mapSpan f stmt :: mapSpans f rest

/-- A statement that may be absent with `f span` in the place of every span. -/
def mapOption (f : Span → Span) : Option Stmt → Option Stmt
  | none => none
  | some stmt => some (mapSpan f stmt)

/-- A block with `f span` in the place of every span. -/
def mapBlock (f : Span → Span) : Block Stmt → Block Stmt
  | ⟨body, span⟩ => ⟨mapSpans f body, f span⟩

/-- The arms of a `match` with `f span` in the place of every span. -/
def mapCases (f : Span → Span) : List (MatchCase Stmt) → List (MatchCase Stmt)
  | [] => []
  | arm :: rest =>
      ⟨arm.test.mapSpan f, mapSpan f arm.consequent, f arm.span⟩ :: mapCases f rest

/-- A handler that may be absent with `f span` in the place of every span. -/
def mapHandler (f : Span → Span) : Option (CatchClause Stmt) → Option (CatchClause Stmt)
  | none => none
  | some ⟨parameter, body, span⟩ => some ⟨parameter, mapBlock f body, f span⟩

/-- A closing part that may be absent with `f span` in the place of every span. -/
def mapFinalizer (f : Span → Span) : Option (FinallyClause Stmt) → Option (FinallyClause Stmt)
  | none => none
  | some ⟨body, span⟩ => some ⟨mapBlock f body, f span⟩

end

/-- The statement moved `amount` bytes to the right. -/
def shift (amount : Nat) : Stmt → Stmt :=
  mapSpan (Span.shift amount)

variable {f : Span → Span}

/-- Statements get their spans one by one. -/
theorem mapSpans_eq_map (stmts : List Stmt) : mapSpans f stmts = stmts.map (mapSpan f) := by
  induction stmts with
  | nil => rfl
  | cons stmt rest ih => rw [mapSpans, ih, List.map_cons]

/-- A statement that may be absent gets its spans if it is there. -/
theorem mapOption_eq_map (stmt : Option Stmt) : mapOption f stmt = stmt.map (mapSpan f) := by
  cases stmt <;> rfl

/-- The arms of a `match` get their spans one by one. -/
theorem mapCases_eq_map (cases : List (MatchCase Stmt)) :
    mapCases f cases =
      cases.map fun arm => ⟨arm.test.mapSpan f, arm.consequent.mapSpan f, f arm.span⟩ := by
  induction cases with
  | nil => rfl
  | cons arm rest ih => rw [mapCases, ih, List.map_cons]

mutual

/-- A statement stays the same if every span does. -/
theorem mapSpan_eq_self (hf : ∀ span, f span = span) : ∀ stmt : Stmt, stmt.mapSpan f = stmt
  | .varDecl _ => by simp [mapSpan, VarDecl.mapSpan, hf, Expr.map_mapSpan_eq_self hf]
  | .ifElse test consequent alternate _ => by
      simp [mapSpan, hf, Expr.mapSpan_eq_self hf test, mapBlock_eq_self hf consequent,
        mapOption_eq_self hf alternate]
  | .whileLoop test body _ => by
      simp [mapSpan, hf, Expr.mapSpan_eq_self hf test, mapBlock_eq_self hf body]
  | .doWhile body test _ => by
      simp [mapSpan, hf, Expr.mapSpan_eq_self hf test, mapBlock_eq_self hf body]
  | .forLoop init test update body _ => by
      simp [mapSpan, hf, mapOption_eq_self hf init, Expr.map_mapSpan_eq_self hf,
        mapBlock_eq_self hf body]
  | .functionDecl _ _ body _ => by simp [mapSpan, hf, mapBlock_eq_self hf body]
  | .classDecl _ body _ => by simp [mapSpan, hf, mapBlock_eq_self hf body]
  | .returnValue _ _ => by simp [mapSpan, hf, Expr.map_mapSpan_eq_self hf]
  | .throwValue _ _ => by simp [mapSpan, hf, Expr.map_mapSpan_eq_self hf]
  | .breakLoop _ => by simp [mapSpan, hf]
  | .continueLoop _ => by simp [mapSpan, hf]
  | .matchOn discriminant cases fallback _ => by
      simp [mapSpan, hf, Expr.mapSpan_eq_self hf discriminant, mapCases_eq_self hf cases,
        mapOption_eq_self hf fallback]
  | .tryCatch body handler finalizer _ => by
      simp [mapSpan, hf, mapBlock_eq_self hf body, mapHandler_eq_self hf handler,
        mapFinalizer_eq_self hf finalizer]
  | .retry count body handler _ => by
      simp [mapSpan, hf, Expr.mapSpan_eq_self hf count, mapBlock_eq_self hf body,
        mapHandler_eq_self hf handler]
  | .expression value _ => by simp [mapSpan, hf, Expr.mapSpan_eq_self hf value]
  | .block content => by simp [mapSpan, mapBlock_eq_self hf content]

theorem mapSpans_eq_self (hf : ∀ span, f span = span) :
    ∀ stmts : List Stmt, mapSpans f stmts = stmts
  | [] => rfl
  | stmt :: rest => by rw [mapSpans, mapSpan_eq_self hf stmt, mapSpans_eq_self hf rest]

theorem mapOption_eq_self (hf : ∀ span, f span = span) :
    ∀ stmt : Option Stmt, mapOption f stmt = stmt
  | none => rfl
  | some stmt => by rw [mapOption, mapSpan_eq_self hf stmt]

theorem mapBlock_eq_self (hf : ∀ span, f span = span) :
    ∀ block : Block Stmt, mapBlock f block = block
  | ⟨body, _⟩ => by rw [mapBlock, hf, mapSpans_eq_self hf body]

theorem mapCases_eq_self (hf : ∀ span, f span = span) :
    ∀ cases : List (MatchCase Stmt), mapCases f cases = cases
  | [] => rfl
  | arm :: rest => by
      rw [mapCases, hf, Expr.mapSpan_eq_self hf, mapSpan_eq_self hf arm.consequent,
        mapCases_eq_self hf rest]

theorem mapHandler_eq_self (hf : ∀ span, f span = span) :
    ∀ handler : Option (CatchClause Stmt), mapHandler f handler = handler
  | none => rfl
  | some ⟨_, body, _⟩ => by rw [mapHandler, hf, mapBlock_eq_self hf body]

theorem mapFinalizer_eq_self (hf : ∀ span, f span = span) :
    ∀ finalizer : Option (FinallyClause Stmt), mapFinalizer f finalizer = finalizer
  | none => rfl
  | some ⟨body, _⟩ => by rw [mapFinalizer, hf, mapBlock_eq_self hf body]

end

end Stmt

/-- The report moved `amount` bytes to the right. -/
def ParseError.shift (amount : Nat) (error : ParseError) : ParseError :=
  { error with span := error.span.shift amount }

end ScriptLint
