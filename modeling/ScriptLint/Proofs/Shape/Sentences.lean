import ScriptLint.Proofs.Run.Statements
import ScriptLint.Proofs.Shape.Phrases

/-!
# Statements are well shaped

A statement that is read from tokens of the source is well shaped, whatever errors were recorded
meanwhile. The parts that hold no statement come first. Each form puts a node with the shape of its
kind on top of them; a statement or an arm that is recovered from is not there, so errors do no harm
to the shape.
-/

namespace ScriptLint

variable {context : Context} {fold : Bool} {tokens : List Token} {reports : Array ParseError}

/-! ## Parts without statements -/

section Parts

variable (hstands : ∀ token ∈ tokens, token.StandsIn fold context.source)

include hstands

/-- A condition is well shaped. -/
theorem Condition.wellShaped {test : Expr} (h : Condition context.sourceText tokens test) :
    (Node.expr test).WellShaped context.source := by
  obtain ⟨-, hphrase, -⟩ := h
  simp only [List.forall_mem_cons, List.forall_mem_append] at hstands
  exact hphrase.wellShaped hstands.2.1

/-- An expression is well shaped if there is one. -/
theorem OptionalPhrase.wellShaped {value : Option Expr}
    (h : OptionalPhrase context.sourceText tokens value) :
    ∀ expr ∈ value, (Node.expr expr).WellShaped context.source := by
  rintro expr ⟨⟩
  cases h with
  | some hphrase => exact hphrase.wellShaped hstands

/-- The value of a declaration is well shaped if there is one. -/
theorem Initializer.wellShaped {value : Option Expr}
    (h : Initializer context.sourceText tokens value) :
    ∀ expr ∈ value, (Node.expr expr).WellShaped context.source := by
  rintro expr ⟨⟩
  cases h with
  | some hequals hphrase => exact hphrase.wellShaped (List.forall_mem_cons.1 hstands).2

omit hstands in
/-- A type that is declared can be written as an annotation. -/
theorem DeclaredType.mem_annotations {declaredType : Option Ty}
    (h : DeclaredType tokens declaredType) : ∀ ty ∈ declaredType, ty ∈ Ty.annotations := by
  rintro ty ⟨⟩
  cases h with
  | some htype hnames =>
      have hnil : ty ≠ .nil := fun hnil => Ty.ofAnnotation?_ne_nil _ (hnil ▸ hnames)
      cases ty <;> simp [Ty.annotations] at hnil ⊢

/-- A declaration is well shaped as a statement. -/
theorem Declaration.wellShaped {decl : VarDecl} (h : Declaration context.sourceText tokens decl) :
    (Node.stmt (.varDecl decl)).WellShaped context.source := by
  obtain ⟨hkeywords, htype, hname, hvalue, rfl⟩ := h
  simp only [List.forall_mem_cons, List.forall_mem_append] at hstands
  obtain ⟨-, -, hname', hbehind⟩ := hstands
  refine Node.Shaped.wellShaped ⟨hname'.isName hname, htype.mem_annotations⟩ ?_
  simpa [Node.children, Stmt.nodes] using hvalue.wellShaped hbehind

/-- The first part of the header of a `for` loop is well shaped if there is one. -/
theorem ForInit.wellShaped {init : Option Stmt} (h : ForInit context.sourceText tokens init) :
    ∀ stmt ∈ init, (Node.stmt stmt).WellShaped context.source ∧ stmt.IsInit := by
  rintro stmt ⟨⟩
  cases h with
  | declaration hdecl => exact ⟨hdecl.wellShaped hstands, .varDecl _⟩
  | expression hphrase =>
      exact ⟨Node.Shaped.wellShaped trivial
        (List.forall_mem_singleton.2 (hphrase.wellShaped hstands)), .expression _ _⟩

/-- The parts of the header of a `for` loop are well shaped. -/
theorem ForHeader.wellShaped {init : Option Stmt} {test update : Option Expr}
    (h : ForHeader context.sourceText tokens (init, test, update)) :
    (∀ stmt ∈ init, (Node.stmt stmt).WellShaped context.source ∧ stmt.IsInit) ∧
      (∀ expr ∈ test, (Node.expr expr).WellShaped context.source) ∧
      ∀ expr ∈ update, (Node.expr expr).WellShaped context.source := by
  obtain ⟨-, hinit, -, htest, -, hupdate, -⟩ := h
  simp only [List.forall_mem_cons, List.forall_mem_append] at hstands
  obtain ⟨-, hfirst, -, hsecond, -, hthird, -⟩ := hstands
  exact ⟨hinit.wellShaped hfirst, htest.wellShaped hsecond, hupdate.wellShaped hthird⟩

/-- A function and its parameters have names. -/
theorem FunctionHeader.isName {name : String} {parameters : List String}
    (h : FunctionHeader tokens (name, parameters)) :
    IsName name ∧ ∀ parameter ∈ parameters, IsName parameter := by
  obtain ⟨hname, -, hkinds, hseparated, -⟩ := h
  simp only [List.forall_mem_cons, List.forall_mem_append] at hstands
  obtain ⟨hfirst, -, hinside, -⟩ := hstands
  refine ⟨hfirst.isName hname, List.forall_mem_map.2 fun parameter hmem => ?_⟩
  have hstand := hinside parameter (hseparated.mem_of_mem hmem List.mem_cons_self)
  exact hstand.isName (hkinds parameter hmem)

end Parts

/-! ## Parts with statements -/

/-- What is collected has a property, if what is read from tokens that pass has it. -/
theorem Account.Collected.forall_mem {α : Type} {G : Account α} {S : Token → Prop} {P : α → Prop}
    {values : List α} (h : Account.Collected G tokens reports values)
    (hgood : ∀ {tokens reports value}, G tokens reports value → (∀ token ∈ tokens, S token) →
      P value) (htokens : ∀ token ∈ tokens, S token) : ∀ value ∈ values, P value := by
  induction h with
  | nil => simp
  | cons hvalue _ ih =>
      obtain ⟨hfirst, hrest⟩ := List.forall_mem_append.1 htokens
      exact List.forall_mem_cons.2 ⟨hgood hvalue hfirst, ih hrest⟩
  | skip _ _ _ ih => exact ih (List.forall_mem_append.1 htokens).2

/-- What is read from tokens of the source is well shaped. -/
def Node.shapeAccounts (fold : Bool) (source : List Char) : Stmt.Accounts where
  stmt tokens _ stmt := (∀ token ∈ tokens, token.StandsIn fold source) →
    (Node.stmt stmt).WellShaped source
  conditional _ tokens _ stmt := (∀ token ∈ tokens, token.StandsIn fold source) →
    (Node.stmt stmt).WellShaped source ∧ stmt.IsAlternate

namespace Stmt.Accounts

variable (hstands : ∀ token ∈ tokens, token.StandsIn fold context.source)

include hstands

/-- A block is well shaped. -/
theorem Braced.wellShaped {content : Block Stmt}
    (h : (Node.shapeAccounts fold context.source).Braced tokens reports content) :
    (Node.block content).WellShaped context.source := by
  obtain ⟨-, hbody, -, rfl⟩ := h
  simp only [List.forall_mem_cons, List.forall_mem_append] at hstands
  exact Node.Shaped.wellShaped trivial
    (List.forall_mem_map.2 (hbody.forall_mem id hstands.2.1))

/-- A block that stands as a statement has the nodes of the block inside it. -/
theorem Braced.stmt_wellShaped {content : Block Stmt}
    (h : (Node.shapeAccounts fold context.source).Braced tokens reports content) :
    (Node.stmt (.block content)).WellShaped context.source :=
  Node.Shaped.wellShaped trivial fun _ => (h.wellShaped hstands).inside

/-- Behind the consequent of a conditional stands nothing, a block or another conditional. -/
theorem Alternate.wellShaped {alternate : Option Stmt}
    (h : (Node.shapeAccounts fold context.source).Alternate tokens reports alternate) :
    ∀ stmt ∈ alternate, (Node.stmt stmt).WellShaped context.source ∧ stmt.IsAlternate := by
  rintro stmt ⟨⟩
  cases h with
  | block hkeyword hbraced =>
      exact ⟨hbraced.stmt_wellShaped (List.forall_mem_cons.1 hstands).2, .block _⟩
  | elseIf hkeyword hconditional => exact hconditional (List.forall_mem_cons.1 hstands).2
  | elif hconditional => exact hconditional hstands

/-- A handler is well shaped if there is one. -/
theorem Handler.wellShaped {handler : Option (CatchClause Stmt)}
    (h : (Node.shapeAccounts fold context.source).Handler tokens reports handler) :
    ∀ clause ∈ handler, (Node.handler clause).WellShaped context.source := by
  rintro clause ⟨⟩
  obtain - | ⟨hkeyword, hopening, hname, hclosing, hbody, rfl⟩ := h
  simp only [List.forall_mem_cons] at hstands
  obtain ⟨-, -, hparameter, -, hblock⟩ := hstands
  exact Node.Shaped.wellShaped (hparameter.isName hname)
    (List.forall_mem_singleton.2 (hbody.wellShaped hblock))

/-- A closing part is well shaped if there is one. -/
theorem Finalizer.wellShaped {finalizer : Option (FinallyClause Stmt)}
    (h : (Node.shapeAccounts fold context.source).Finalizer tokens reports finalizer) :
    ∀ clause ∈ finalizer, (Node.finalizer clause).WellShaped context.source := by
  rintro clause ⟨⟩
  obtain - | ⟨hkeyword, hbody, rfl⟩ := h
  exact Node.Shaped.wellShaped trivial
    (List.forall_mem_singleton.2 (hbody.wellShaped (List.forall_mem_cons.1 hstands).2))

/-- The content of an arm is well shaped, and so is the body of a default arm. -/
theorem Arm.wellShaped {arm : MatchArm}
    (h : (Node.shapeAccounts fold context.source).Arm context.sourceText tokens reports arm) :
    (∀ content ∈ arm.case?, (Node.arm content).WellShaped context.source) ∧
      ∀ body ∈ arm.fallback?, (Node.stmt body).WellShaped context.source := by
  cases h with
  | test hkeyword htest harrow hconsequent htokens =>
      subst htokens
      simp only [List.forall_mem_cons, List.forall_mem_append] at hstands
      obtain ⟨-, hinside, -, hbehind⟩ := hstands
      refine ⟨?_, by simp [MatchArm.fallback?]⟩
      rintro content ⟨⟩
      exact Node.Shaped.wellShaped trivial (List.forall_mem_cons.2 ⟨htest.wellShaped hinside,
        List.forall_mem_singleton.2 (hconsequent hbehind)⟩)
  | otherwise hkeyword harrow hbody =>
      simp only [List.forall_mem_cons] at hstands
      refine ⟨by simp [MatchArm.case?], ?_⟩
      rintro body ⟨⟩
      exact hbody hstands.2.2

/-- The arms of a `match` are well shaped, and so is its default arm. -/
theorem Arms.wellShaped {seen : Bool} {cases : List (MatchCase Stmt)} {fallback : Option Stmt}
    (h : (Node.shapeAccounts fold context.source).Arms context.sourceText seen tokens reports
      (cases, fallback)) :
    (∀ content ∈ cases, (Node.arm content).WellShaped context.source) ∧
      ∀ body ∈ fallback, (Node.stmt body).WellShaped context.source := by
  obtain ⟨harms, -⟩ := h
  have hshaped := harms.forall_mem (fun harm hstands => harm.wellShaped hstands) hstands
  constructor
  · intro content hmem
    obtain ⟨arm, harm, hcase⟩ := List.mem_filterMap.1 hmem
    exact (hshaped arm harm).1 content hcase
  · intro body hmem
    obtain ⟨arm, harm, hfallback⟩ := List.mem_filterMap.1 (List.mem_of_head? hmem)
    exact (hshaped arm harm).2 body hfallback

/-- A conditional is well shaped. -/
theorem Conditional.wellShaped {text : String} {stmt : Stmt}
    (h : (Node.shapeAccounts fold context.source).Conditional context.sourceText text tokens
      reports stmt) :
    (Node.stmt stmt).WellShaped context.source ∧ stmt.IsAlternate := by
  obtain ⟨-, htest, hconsequent, halternate, rfl⟩ := h
  simp only [List.forall_mem_cons, List.forall_mem_append] at hstands
  obtain ⟨-, hcondition, hblock, hbehind⟩ := hstands
  have hshaped := halternate.wellShaped hbehind
  refine ⟨Node.Shaped.wellShaped (fun stmt hmem => (hshaped stmt hmem).2) ?_, .ifElse _ _ _ _⟩
  simp only [Node.children, nodes, List.forall_mem_cons, List.forall_mem_map, Option.mem_toList]
  exact ⟨htest.wellShaped hcondition, hconsequent.wellShaped hblock,
    fun stmt hmem => (hshaped stmt hmem).1⟩

/-- A statement is well shaped, whatever its form. -/
theorem Form.wellShaped {stmt : Stmt}
    (h : (Node.shapeAccounts fold context.source).Form context.sourceText tokens reports stmt) :
    (Node.stmt stmt).WellShaped context.source := by
  cases h with
  | block hbraced => exact hbraced.stmt_wellShaped hstands
  | varDecl hdecl hsemicolon htokens =>
      subst htokens
      have hshaped := hdecl.wellShaped (List.forall_mem_append.1 hstands).1
      exact Node.Shaped.wellShaped hshaped.shaped fun _ => hshaped.inside
  | openVarDecl hdecl => exact hdecl.wellShaped hstands
  | conditional hconditional => exact (hconditional hstands).1
  | whileLoop hkeyword htest hbody htokens =>
      subst htokens
      simp only [List.forall_mem_cons, List.forall_mem_append] at hstands
      exact Node.Shaped.wellShaped trivial (List.forall_mem_cons.2
        ⟨htest.wellShaped hstands.2.1, List.forall_mem_singleton.2 (hbody.wellShaped hstands.2.2)⟩)
  | doWhile hkeyword hbody hmiddle htest hending htokens =>
      subst htokens
      simp only [List.forall_mem_cons, List.forall_mem_append] at hstands
      obtain ⟨-, hblock, -, hcondition, -⟩ := hstands
      exact Node.Shaped.wellShaped trivial (List.forall_mem_cons.2
        ⟨hbody.wellShaped hblock, List.forall_mem_singleton.2 (htest.wellShaped hcondition)⟩)
  | forLoop hkeyword hheader hbody htokens =>
      subst htokens
      simp only [List.forall_mem_cons, List.forall_mem_append] at hstands
      obtain ⟨hinit, htest, hupdate⟩ := hheader.wellShaped hstands.2.1
      refine Node.Shaped.wellShaped (fun stmt hmem => (hinit stmt hmem).2) ?_
      simp only [Node.children, nodes, List.forall_mem_append, List.forall_mem_map,
        Option.mem_toList, List.forall_mem_singleton]
      exact ⟨fun stmt hmem => (hinit stmt hmem).1, htest, hupdate, hbody.wellShaped hstands.2.2⟩
  | functionDecl hkeyword hheader hbody htokens =>
      subst htokens
      simp only [List.forall_mem_cons, List.forall_mem_append] at hstands
      exact Node.Shaped.wellShaped (hheader.isName hstands.2.1)
        (List.forall_mem_singleton.2 (hbody.wellShaped hstands.2.2))
  | classDecl hkeyword hname hbody htokens =>
      subst htokens
      simp only [List.forall_mem_cons] at hstands
      exact Node.Shaped.wellShaped (hstands.2.1.isName hname)
        (List.forall_mem_singleton.2 (hbody.wellShaped hstands.2.2))
  | returnValue hkeyword hvalue hsemicolon htokens
  | throwValue hkeyword hvalue hsemicolon htokens =>
      subst htokens
      simp only [List.forall_mem_cons, List.forall_mem_append] at hstands
      refine Node.Shaped.wellShaped trivial ?_
      simpa [Node.children, nodes] using hvalue.wellShaped hstands.2.1
  | breakLoop | continueLoop =>
      exact Node.Shaped.wellShaped trivial (by simp [Node.children, nodes])
  | matchOn hkeyword hcondition hopening harms hclosing htokens =>
      subst htokens
      simp only [List.forall_mem_cons, List.forall_mem_append] at hstands
      obtain ⟨-, hfirst, -, hinside, -⟩ := hstands
      refine Node.Shaped.wellShaped trivial ?_
      simp only [Node.children, nodes, List.forall_mem_cons, List.forall_mem_append,
        List.forall_mem_map, Option.mem_toList]
      exact ⟨hcondition.wellShaped hfirst, harms.wellShaped hinside⟩
  | tryCatch hkeyword hbody hhandler hfinalizer htokens =>
      subst htokens
      simp only [List.forall_mem_cons, List.forall_mem_append] at hstands
      obtain ⟨-, hblock, hbehind, hlast⟩ := hstands
      refine Node.Shaped.wellShaped trivial ?_
      simp only [Node.children, nodes, List.forall_mem_cons, List.forall_mem_append,
        List.forall_mem_map, Option.mem_toList]
      exact ⟨hbody.wellShaped hblock, hhandler.wellShaped hbehind, hfinalizer.wellShaped hlast⟩
  | retry hkeyword hcount hbody hhandler htokens =>
      subst htokens
      simp only [List.forall_mem_cons, List.forall_mem_append] at hstands
      obtain ⟨-, hcondition, hblock, hbehind⟩ := hstands
      refine Node.Shaped.wellShaped trivial ?_
      simp only [Node.children, nodes, List.forall_mem_cons, List.forall_mem_map,
        Option.mem_toList]
      exact ⟨hcount.wellShaped hcondition, hbody.wellShaped hblock, hhandler.wellShaped hbehind⟩
  | expression hkind hphrase hsemicolon htokens =>
      subst htokens
      rw [← List.cons_append, List.forall_mem_append] at hstands
      exact Node.Shaped.wellShaped trivial
        (List.forall_mem_singleton.2 (hphrase.wellShaped hstands.1))

end Stmt.Accounts

/-- Shapes go from the statements inside a form to the whole. -/
theorem Node.shapeAccounts_closed (fold : Bool) (context : Context) :
    (Node.shapeAccounts fold context.source).Closed context.sourceText :=
  ⟨fun hform hstands => hform.wellShaped hstands,
    fun hconditional hstands => hconditional.wellShaped hstands⟩

end ScriptLint
