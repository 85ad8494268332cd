import ScriptLint.Proofs.Placement.Phrases
import ScriptLint.Proofs.Run.Statements

/-!
# Statements are laid over their tokens

Every form of a statement begins with a token of its own, has the nodes inside it laid one behind
the other, and closes over them. A statement or an arm that is recovered from is not laid, so errors
leave gaps and do no other harm. The arms of a `match` are laid in the order of the text, the
default arm wherever it stands.
-/

namespace ScriptLint

open Node (Laid)

variable {sourceText : Span → String} {tokens : List Token} {reports : Array ParseError}

/-! ## Parts without statements -/

/-- A condition is laid without its parentheses. -/
theorem Condition.laid {test : Expr} (h : Condition sourceText tokens test) :
    Laid tokens [.expr test] := by
  obtain ⟨-, hphrase, -⟩ := h
  exact (hphrase.laid.before _).behind _

/-- An expression is laid if there is one. -/
theorem OptionalPhrase.laid {value : Option Expr} (h : OptionalPhrase sourceText tokens value) :
    Laid tokens (value.toList.map .expr) := by
  cases h with
  | none => exact .nil []
  | some hphrase => exact hphrase.laid

/-- The value of a declaration is laid if there is one. -/
theorem Initializer.laid {value : Option Expr} (h : Initializer sourceText tokens value) :
    Laid tokens (value.toList.map .expr) := by
  cases h with
  | none => exact .nil []
  | some hequals hphrase => exact hphrase.laid.behind _

/-- The value of a declaration is laid over all of its tokens. -/
theorem Declaration.laid_inside {decl : VarDecl} (h : Declaration sourceText tokens decl) :
    Laid tokens (decl.initializer.toList.map .expr) := by
  obtain ⟨hkeywords, htype, hname, hvalue, rfl⟩ := h
  exact (Laid.nil _).append ((Laid.nil _).append (hvalue.laid.behind _))

/-- A declaration is laid as a statement. -/
theorem Declaration.laid {decl : VarDecl} (h : Declaration sourceText tokens decl) :
    Laid tokens [.stmt (.varDecl decl)] := by
  obtain ⟨first, rest, rfl, -, hspan⟩ := h.starts
  exact h.laid_inside.cover (List.cons_ne_nil _ _) hspan rfl rfl

/-- The first part of the header of a `for` loop is laid if there is one. An expression that stands
there reaches over all of its tokens as a statement. -/
theorem ForInit.laid {init : Option Stmt} (h : ForInit sourceText tokens init) :
    Laid tokens (init.toList.map .stmt) := by
  cases h with
  | none => exact .nil []
  | declaration hdecl => exact hdecl.laid
  | expression hphrase =>
      obtain ⟨first, rest, rfl, -⟩ := hphrase.starts
      exact hphrase.laid.cover (List.cons_ne_nil _ _) rfl rfl rfl

/-- The parts of the header of a `for` loop are laid one behind the other. -/
theorem ForHeader.laid {init : Option Stmt} {test update : Option Expr}
    (h : ForHeader sourceText tokens (init, test, update)) :
    Laid tokens (init.toList.map .stmt ++
      (test.toList.map .expr ++ update.toList.map .expr)) := by
  obtain ⟨-, hinit, -, htest, -, hupdate, -⟩ := h
  exact (hinit.laid.append
    ((htest.laid.append ((hupdate.laid.before _).behind _)).behind _)).behind _

/-! ## Parts with statements -/

/-- What is collected is laid one behind the other, if each of it is laid over its tokens. -/
theorem Account.Collected.laid {α : Type} {G : Account α} {node : α → Node} {values : List α}
    (h : Account.Collected G tokens reports values)
    (hgood : ∀ {tokens reports value}, G tokens reports value → Laid tokens [node value]) :
    Laid tokens (values.map node) := by
  induction h with
  | nil => exact .nil []
  | cons hvalue _ ih => exact (hgood hvalue).append ih
  | skip tokens _ _ ih => exact (Laid.nil tokens).append ih

/-- A statement is laid over the tokens that it is read from. -/
def Node.layingAccounts : Stmt.Accounts where
  stmt tokens _ stmt := Laid tokens [.stmt stmt]
  conditional _ tokens _ stmt := Laid tokens [.stmt stmt]

/-- The node of an arm. A default arm has none of its own, and is that of its body. -/
def MatchArm.node : MatchArm → Node
  | .test content => .arm content
  | .otherwise body _ => .stmt body

/-- The tested arms are laid in their order. -/
theorem MatchArm.cases_sublist (arms : List MatchArm) :
    ((arms.filterMap case?).map Node.arm).Sublist (arms.map node) := by
  induction arms with
  | nil => exact .slnil
  | cons arm arms ih =>
      cases arm with
      | test content => exact ih.cons_cons _
      | otherwise body keyword => exact ih.cons _

/-- The tested arms are laid, and with them the default arm. -/
theorem MatchArm.contents_subperm (arms : List MatchArm) :
    ((arms.filterMap case?).map Node.arm ++
      (arms.filterMap fallback?).head?.toList.map Node.stmt).Subperm (arms.map node) := by
  induction arms with
  | nil => exact .refl _
  | cons arm arms ih =>
      cases arm with
      | test content => exact (List.subperm_cons _).2 ih
      | otherwise body keyword =>
          have hperm : ((arms.filterMap case?).map Node.arm ++ [Node.stmt body]).Perm
              (.stmt body :: (arms.filterMap case?).map Node.arm) := List.perm_append_singleton _ _
          exact hperm.subperm.trans ((List.subperm_cons _).2 (cases_sublist arms).subperm)

namespace Stmt.Accounts

/-- The statements between braces are laid, and their block has all of the tokens. -/
theorem Braced.laid_inside {content : Block Stmt}
    (h : Node.layingAccounts.Braced tokens reports content) :
    Laid tokens (content.body.map .stmt) ∧ content.span = Span.ofTokens tokens ∧ tokens ≠ [] := by
  obtain ⟨-, hbody, -, rfl⟩ := h
  have hlaid := hbody.laid id
  exact ⟨(hlaid.before _).behind _, rfl, List.cons_ne_nil _ _⟩

/-- A block is laid as a node. -/
theorem Braced.laid {content : Block Stmt}
    (h : Node.layingAccounts.Braced tokens reports content) : Laid tokens [.block content] := by
  obtain ⟨hinside, hspan, hne⟩ := h.laid_inside
  exact hinside.cover hne hspan rfl rfl

/-- A block that stands as a statement is one node. -/
theorem Braced.stmt_laid {content : Block Stmt}
    (h : Node.layingAccounts.Braced tokens reports content) :
    Laid tokens [.stmt (.block content)] := by
  obtain ⟨hinside, hspan, hne⟩ := h.laid_inside
  exact hinside.cover hne hspan rfl rfl

/-- What follows the consequent of a conditional is laid if there is something. -/
theorem Alternate.laid {alternate : Option Stmt}
    (h : Node.layingAccounts.Alternate tokens reports alternate) :
    Laid tokens (alternate.toList.map .stmt) := by
  cases h with
  | none => exact .nil []
  | block hkeyword hbraced => exact hbraced.stmt_laid.behind _
  | elseIf hkeyword hconditional => exact Laid.behind hconditional _
  | elif hconditional => exact hconditional

/-- A conditional is laid from its keyword on. -/
theorem Conditional.laid {text : String} {stmt : Stmt}
    (h : Node.layingAccounts.Conditional sourceText text tokens reports stmt) :
    Laid tokens [.stmt stmt] := by
  obtain ⟨-, htest, hconsequent, halternate, rfl⟩ := h
  have hinside := htest.laid.append (hconsequent.laid.append halternate.laid)
  exact (hinside.behind _).cover (List.cons_ne_nil _ _) rfl rfl rfl

/-- A handler is laid if there is one. -/
theorem Handler.laid {handler : Option (CatchClause Stmt)}
    (h : Node.layingAccounts.Handler tokens reports handler) :
    Laid tokens (handler.toList.map .handler) := by
  cases h with
  | none => exact .nil []
  | some hkeyword hopening hname hclosing hbody htokens =>
      subst htokens
      exact ((((hbody.laid.behind _).behind _).behind _).behind _).cover
        (List.cons_ne_nil _ _) rfl rfl rfl

/-- A closing part is laid if there is one. -/
theorem Finalizer.laid {finalizer : Option (FinallyClause Stmt)}
    (h : Node.layingAccounts.Finalizer tokens reports finalizer) :
    Laid tokens (finalizer.toList.map .finalizer) := by
  cases h with
  | none => exact .nil []
  | some hkeyword hbody htokens =>
      subst htokens
      exact (hbody.laid.behind _).cover (List.cons_ne_nil _ _) rfl rfl rfl

/-- An arm is laid, and a default arm as its body. -/
theorem Arm.laid {arm : MatchArm}
    (h : Node.layingAccounts.Arm sourceText tokens reports arm) : Laid tokens [arm.node] := by
  cases h with
  | test hkeyword htest harrow hconsequent htokens =>
      subst htokens
      exact ((htest.laid.append (Laid.behind hconsequent _)).behind _).cover
        (List.cons_ne_nil _ _) rfl rfl rfl
  | otherwise hkeyword harrow hbody => exact (Laid.behind hbody _).behind _

/-- Every form of a statement is laid over its tokens. -/
theorem Form.laid {stmt : Stmt} (h : Node.layingAccounts.Form sourceText tokens reports stmt) :
    Laid tokens [.stmt stmt] := by
  cases h with
  | block hbraced => exact hbraced.stmt_laid
  | varDecl hdecl hsemicolon htokens =>
      subst htokens
      exact (hdecl.laid_inside.before _).cover (by simp) rfl rfl rfl
  | openVarDecl hdecl => exact hdecl.laid
  | conditional hconditional => exact hconditional
  | whileLoop hkeyword htest hbody htokens =>
      subst htokens
      exact ((htest.laid.append hbody.laid).behind _).cover (List.cons_ne_nil _ _) rfl rfl rfl
  | doWhile hkeyword hbody hmiddle htest hending htokens =>
      subst htokens
      exact ((hbody.laid.append ((htest.laid.before _).behind _)).behind _).cover
        (List.cons_ne_nil _ _) rfl rfl rfl
  | forLoop hkeyword hheader hbody htokens =>
      subst htokens
      refine ((hheader.laid.append hbody.laid).behind _).cover (List.cons_ne_nil _ _) rfl ?_ ?_
      · simp [Node.children, nodes]
      · simp [Node.sequence, Node.children, nodes]
  | functionDecl hkeyword hheader hbody htokens =>
      subst htokens
      exact (((Laid.nil _).append hbody.laid).behind _).cover (List.cons_ne_nil _ _) rfl rfl rfl
  | classDecl hkeyword hname hbody htokens =>
      subst htokens
      exact ((hbody.laid.behind _).behind _).cover (List.cons_ne_nil _ _) rfl rfl rfl
  | returnValue hkeyword hvalue hsemicolon htokens
  | throwValue hkeyword hvalue hsemicolon htokens =>
      subst htokens
      exact ((hvalue.laid.before _).behind _).cover (List.cons_ne_nil _ _) rfl rfl rfl
  | breakLoop | continueLoop => exact (Laid.nil _).cover (List.cons_ne_nil _ _) rfl rfl rfl
  | matchOn hkeyword hcondition hopening harms hclosing htokens =>
      subst htokens
      obtain ⟨harms, -⟩ := harms
      have hlaid := harms.laid Arm.laid
      refine ((hcondition.laid.append ((hlaid.before _).behind _)).behind _).coverAny
        (List.cons_ne_nil _ _) rfl ?_ ?_ fun hbefore => ?_
      · exact (List.subperm_cons _).2 (MatchArm.contents_subperm _)
      · exact (MatchArm.cases_sublist _).cons_cons _
      · -- All arms are among the items behind the discriminant.
        intro first rest hchildren other hother
        obtain ⟨rfl, rfl⟩ := List.cons.inj hchildren
        exact (List.pairwise_cons.1 hbefore).1 other
          ((MatchArm.contents_subperm _).subset hother)
  | tryCatch hkeyword hbody hhandler hfinalizer htokens =>
      subst htokens
      have hinside := hbody.laid.append (hhandler.laid.append hfinalizer.laid)
      exact (hinside.behind _).cover (List.cons_ne_nil _ _) rfl rfl rfl
  | retry hkeyword hcount hbody hhandler htokens =>
      subst htokens
      have hinside := hcount.laid.append (hbody.laid.append hhandler.laid)
      exact (hinside.behind _).cover (List.cons_ne_nil _ _) rfl rfl rfl
  | expression hkind hphrase hsemicolon htokens =>
      subst htokens
      exact (hphrase.laid.before _).cover (List.cons_ne_nil _ _) rfl rfl rfl

end Stmt.Accounts

/-- Laying goes from the statements inside a form to the whole. -/
theorem Node.layingAccounts_closed (sourceText : Span → String) :
    Node.layingAccounts.Closed sourceText :=
  ⟨Stmt.Accounts.Form.laid, Stmt.Accounts.Conditional.laid⟩

end ScriptLint
