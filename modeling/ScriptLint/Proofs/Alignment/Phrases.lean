import ScriptLint.Proofs.Alignment.Steps

/-!
# Aligned expressions

Corresponding expressions are read from corresponding tokens. There is one lemma for each form,
under the assumption that the expressions inside it correspond, and an induction on the levels that
may still be opened.
-/

namespace ScriptLint

/-- The operators in front of an expression are known by their spelling. -/
theorem Grammar.isSpelled_of_leadOf?_unary {token : Token}
    (h : Grammar.leadOf? token = some .unary) : token.isSpelled = true := by
  unfold Grammar.leadOf? at h
  unfold Token.isSpelled
  cases hkind : token.kind <;> simp [hkind] at h ⊢

/-- Whatever goes on with an expression is known by its spelling. -/
theorem Grammar.isSpelled_of_tailOf? {token : Token} {entry : Power × TailForm}
    (h : Grammar.tailOf? token = some entry) : token.isSpelled = true := by
  unfold Grammar.tailOf? at h
  split at h
  next hspelled => exact hspelled
  next => cases h

namespace Alignment

variable {A : Alignment}

namespace SimAt

/-! ## Forms -/

section Forms

variable (hA : A.Lawful)

include hA

/-- A literal or a name. -/
theorem readPrimary (inMatch : Bool) :
    A.Sim A.expr (Expr.readPrimary (A.here inMatch)) (Expr.readPrimary (A.there inMatch)) := by
  refine current_bind (inferInstanceAs (Read.Forward (Expr.readPrimary _)))
    fun token other htoken => ?_
  have hliteral (value : Literal) (hkind : token.kind ≠ .string) :
      A.SimAt (· = token) A.expr
        (Read.advance >>= fun _ =>
          pure (Expr.literal value ((A.here inMatch).sourceText token.span) token.span))
        (Read.advance >>= fun _ =>
          pure (Expr.literal value ((A.there inMatch).sourceText other.span) other.span)) :=
    advance.bind fun _ _ _ => give (hA.literal value htoken hkind)
  have hvalue := hA.value htoken
  rw [← hA.kind htoken]
  cases hkind : token.kind with
  | identifier => exact advance.bind fun _ _ _ => give (hA.identifier htoken hkind)
  | string => exact advance.bind fun _ _ _ => give (hA.string htoken hkind)
  | number =>
      dsimp only
      rw [← hvalue (by simp [hkind]) (by simp [hkind])]
      cases Numeral.toDouble? token.value.toList with
      | some value => exact hliteral (.number value) (by simp [hkind])
      | none => exact (unexpectedDetailed hA _).restrict
  | keyword =>
      dsimp only
      rw [← hvalue (by simp [hkind]) (by simp [hkind])]
      split
      · exact hliteral (.bool true) (by simp [hkind])
      split
      · exact hliteral (.bool false) (by simp [hkind])
      split
      · exact hliteral .nil (by simp [hkind])
      · exact (unexpected hA).restrict
  | eof => exact (unexpected hA).restrict
  | operator => exact (unexpected hA).restrict
  | symbol => exact (unexpected hA).restrict

variable {inner inner' : Power → Read Expr} [∀ power, Read.Forward (inner power)]
  (hinner : ∀ power, A.Sim A.expr (inner power) (inner' power)) {left left' : Expr}

include hinner

/-- An operator is known by its spelling, so it is the same for both readers. -/
theorem readUnary : A.SimAt (·.isSpelled = true) A.expr (Expr.readUnary inner)
    (Expr.readUnary inner') := by
  refine advance.bind fun operator operator' ⟨htoken, hspelled⟩ => ?_
  refine (hinner .unary).bind fun argument argument' hargument => give ?_
  rw [hA.value_of_isSpelled htoken hspelled]
  exact hA.unary hargument (hA.hull (hA.token_span htoken) (hA.expr_span hargument))

/-- An expression in parentheses. -/
theorem readGrouping : A.Sim A.expr (Expr.readGrouping inner) (Expr.readGrouping inner') := by
  refine advance.bind fun _ _ _ => ?_
  refine (hinner .default).bind fun content content' hcontent => ?_
  exact (expect hA ")").bind fun _ _ _ => give hcontent

/-- An array of corresponding elements. -/
theorem readArray [∀ power, Read.Forward (inner' power)] :
    A.Sim A.expr (Expr.readArray inner) (Expr.readArray inner') := by
  refine advance.bind fun opening opening' hopening => ?_
  refine (separated hA (atClose hA "]") (hinner .default)).bind fun elements elements' helements =>
    ?_
  refine (expect hA "]").bind fun _ _ _ => ?_
  exact (spanFrom hA (hA.token_span hopening.1)).bind fun span span' hspan =>
    give (hA.array helements hspan)

/-- A property, whose key is a name or a string. -/
theorem readProperty :
    A.Sim A.Property (Expr.readProperty inner) (Expr.readProperty inner') := by
  refine current_bind inferInstance fun token other htoken => ?_
  rw [← hA.kind htoken]
  split
  · refine advance.bind fun key key' hkey => ?_
    refine (expect hA ":").bind fun _ _ _ => ?_
    refine (hinner .default).bind fun value value' hvalue => give ?_
    exact ⟨⟨key, key', hkey.1, rfl, rfl⟩, hvalue,
      hA.join (hA.token_span hkey.1) (hA.expr_span hvalue)⟩
  · exact (unexpectedDetailed hA _).restrict

/-- An object of corresponding properties. -/
theorem readObject [∀ power, Read.Forward (inner' power)] :
    A.Sim A.expr (Expr.readObject inner) (Expr.readObject inner') := by
  refine advance.bind fun opening opening' hopening => ?_
  refine (separated hA (atClose hA "\x7d") (readProperty hA hinner)).bind
    fun properties properties' hproperties => ?_
  refine (expect hA "\x7d").bind fun _ _ _ => ?_
  exact (spanFrom hA (hA.token_span hopening.1)).bind fun span span' hspan =>
    give (hA.object hproperties hspan)

/-- Every way an expression may begin. -/
theorem readLead [∀ power, Read.Forward (inner' power)] (inMatch : Bool) {token : Token}
    {form : LeadForm} (hform : Grammar.leadOf? token = some form) :
    A.SimAt (· = token) A.expr (Expr.readLead (A.here inMatch) inner form)
      (Expr.readLead (A.there inMatch) inner' form) := by
  cases form with
  | primary => exact (readPrimary hA inMatch).restrict
  | unary =>
      refine (readUnary hA hinner).narrow ?_
      rintro _ rfl
      exact Grammar.isSpelled_of_leadOf?_unary hform
  | grouping => exact (readGrouping hA hinner).restrict
  | array => exact (readArray hA hinner).restrict
  | object => exact (readObject hA hinner).restrict

variable (hleft : A.expr left left')

include hleft

/-- An assignment. Both readers find the left side assignable, or neither does. -/
theorem readAssignment :
    A.Sim A.expr (Expr.readAssignment inner left) (Expr.readAssignment inner' left') := by
  unfold Expr.readAssignment
  rw [← hA.assignable hleft]
  split
  · refine advance.bind fun _ _ _ => ?_
    refine (hinner .default).bind fun value value' hvalue => give ?_
    exact hA.assignment hleft hvalue (hA.hull (hA.expr_span hleft) (hA.expr_span hvalue))
  · exact fail fun _ _ => hA.failure (hA.refl _ (by decide)) (hA.expr_span hleft)

/-- A logical operator, which is spelled in the same way in both. -/
theorem readLogical (power : Power) :
    A.SimAt (·.isSpelled = true) A.expr (Expr.readLogical inner left power)
      (Expr.readLogical inner' left' power) := by
  refine advance.bind fun operator operator' ⟨htoken, hspelled⟩ => ?_
  refine (hinner power).bind fun right right' hright => give ?_
  rw [hA.value_of_isSpelled htoken hspelled]
  exact hA.logical hleft hright (hA.hull (hA.expr_span hleft) (hA.expr_span hright))

/-- A binary operator, which is spelled in the same way in both. -/
theorem readBinary (power : Power) :
    A.SimAt (·.isSpelled = true) A.expr (Expr.readBinary inner left power)
      (Expr.readBinary inner' left' power) := by
  refine advance.bind fun operator operator' ⟨htoken, hspelled⟩ => ?_
  refine (hinner power).bind fun right right' hright => give ?_
  rw [hA.value_of_isSpelled htoken hspelled]
  exact hA.binary hleft hright (hA.hull (hA.expr_span hleft) (hA.expr_span hright))

/-- A call with corresponding arguments. -/
theorem readCall [∀ power, Read.Forward (inner' power)] :
    A.Sim A.expr (Expr.readCall inner left) (Expr.readCall inner' left') := by
  refine advance.bind fun _ _ _ => ?_
  refine (separated hA (atClose hA ")") (hinner .default)).bind
    fun arguments arguments' harguments => ?_
  refine (expect hA ")").bind fun _ _ _ => ?_
  exact (spanFrom hA (hA.expr_span hleft)).bind fun span span' hspan =>
    give (hA.call hleft harguments hspan)

omit hinner [∀ power, Read.Forward (inner power)] in
/-- The name behind a dot. -/
theorem readMember : A.Sim A.expr (Expr.readMember left) (Expr.readMember left') := by
  refine advance.bind fun _ _ _ => ?_
  refine current_bind inferInstance fun token other htoken => ?_
  rw [← hA.kind htoken]
  split
  · refine advance.bind fun property property' ⟨hproperty, _⟩ => give ?_
    exact hA.member hleft hproperty (hA.hull (hA.expr_span hleft) (hA.token_span hproperty))
  · exact (unexpectedDetailed hA _).restrict

/-- Every way an expression may go on. -/
theorem readTail [∀ power, Read.Forward (inner' power)] {token : Token} (hspelled : token.isSpelled)
    (power : Power) (form : TailForm) :
    A.SimAt (· = token) A.expr (Expr.readTail inner left power form)
      (Expr.readTail inner' left' power form) := by
  have hcurrent : ∀ current, current = token → current.isSpelled = true := by
    rintro _ rfl
    exact hspelled
  cases form with
  | assignment => exact (readAssignment hA hinner hleft).restrict
  | logical => exact (readLogical hA hinner hleft power).narrow hcurrent
  | binary => exact (readBinary hA hinner hleft power).narrow hcurrent
  | call => exact (readCall hA hinner hleft).restrict
  | member => exact (readMember hA hleft).restrict

end Forms

end SimAt

/-! ## Expressions -/

/-- Corresponding tokens bind tighter than a power both or neither. -/
theorem LawfulTokens.tighterTail?_eq (hA : A.LawfulTokens) (inMatch : Bool) (power : Power)
    {token other : Token} (h : A.token token other) :
    Expr.tighterTail? (A.here inMatch) power token =
      Expr.tighterTail? (A.there inMatch) power other := by
  have hgrammar : (A.here inMatch).grammar = .standard := hA.grammar
  have hgrammar' : (A.there inMatch).grammar = .standard := hA.grammar_other
  rw [Expr.tighterTail?, Expr.tighterTail?, hgrammar, hgrammar']
  exact congrArg (Option.filter _) (hA.tail?_eq h)

mutual

/-- Corresponding tokens are read into corresponding expressions. -/
theorem Lawful.sim_expr (hA : A.Lawful) (inMatch : Bool) (levels : Nat) (power : Power) :
    A.Sim A.expr (Expr.read (A.here inMatch) levels power)
      (Expr.read (A.there inMatch) levels power) := by
  cases levels with
  | zero =>
      rw [Expr.read, Expr.read]
      exact .tooDeep hA inMatch
  | succ levels =>
      have hforward : Read.Forward (Expr.read (A.here inMatch) (levels + 1) power) := inferInstance
      rw [Expr.read] at hforward ⊢
      rw [Expr.read]
      refine .current_bind hforward fun token other htoken => ?_
      have hgrammar : (A.here inMatch).grammar = .standard := hA.grammar
      have hgrammar' : (A.there inMatch).grammar = .standard := hA.grammar_other
      rw [hgrammar, hgrammar']
      simp only [Grammar.standard, ← hA.lead?_eq htoken]
      cases hform : Grammar.leadOf? token with
      | none => exact (SimAt.unexpected hA).restrict
      | some form =>
          have hinner (power : Power) := hA.sim_expr inMatch levels power
          refine (SimAt.readLead hA hinner inMatch hform).bind fun left left' hleft => ?_
          exact hA.sim_chain inMatch levels power hleft

/-- The same for what goes on with an expression that was read. -/
theorem Lawful.sim_chain (hA : A.Lawful) (inMatch : Bool) (levels : Nat) (power : Power)
    {left left' : Expr} (hleft : A.expr left left') :
    A.Sim A.expr (Expr.readChain (A.here inMatch) levels power left)
      (Expr.readChain (A.there inMatch) levels power left') := by
  have hforward : Read.Forward (Expr.readChain (A.here inMatch) levels power left) := inferInstance
  rw [Expr.readChain.eq_def] at hforward ⊢
  rw [Expr.readChain.eq_def]
  refine .current_bind hforward fun token other htoken => ?_
  rw [← hA.tighterTail?_eq inMatch power htoken]
  cases htail : Expr.tighterTail? (A.here inMatch) power token with
  | none => exact (SimAt.give hleft).restrict
  | some entry =>
      cases levels with
      | zero => exact (SimAt.tooDeep hA inMatch).restrict
      | succ levels =>
          have hinner (power : Power) := hA.sim_expr inMatch levels power
          have hspelled : token.isSpelled = true := by
            obtain ⟨htail, -⟩ := (Expr.tighterTail?_eq_some_iff hA.grammar).1 htail
            exact Grammar.isSpelled_of_tailOf? htail
          refine (SimAt.readTail hA hinner hleft hspelled entry.1 entry.2).bind
            fun joined joined' hjoined => ?_
          exact hA.sim_chain inMatch levels power hjoined

end

end Alignment

end ScriptLint
