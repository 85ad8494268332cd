import ScriptLint.Proofs.Reasoning.Forms

/-!
# Readers with different limits

A reader that may open fewer levels than another one either fails with its nesting error or does
exactly what the other one does. The nesting error is fatal, so no recovery swallows it, and nothing
but the levels that are left depends on the limit.
-/

namespace ScriptLint

/-- The error of a reader that may not open more than `limit` levels. -/
def Error.IsLimit (limit : Nat) (error : Error) : Prop :=
  error.cause = .recursionLimit limit ∧ error.fatal = true

/-- The surroundings with another limit on nesting. -/
def Context.withLimit (context : Context) (limit : Nat) : Context :=
  { context with limit := limit }

namespace Read

variable {α β : Type}

/-- At this reading the step gives up for want of levels. -/
def Exhausts (limit : Nat) (step : Read α) (reading : Reading) : Prop :=
  ∃ error later, step reading = .error error later ∧ error.IsLimit limit

/-- Wherever it is run, the first step gives up for want of levels or does what the second one does,
and what it gives has the property. -/
def Agrees (limit : Nat) (P : α → Prop) (first second : Read α) : Prop :=
  ∀ reading, Exhausts limit first reading ∨
    first reading = second reading ∧ ∀ value later, first reading = .ok value later → P value

variable {limit : Nat} {P : α → Prop} {Q : β → Prop}

/-- A reader without a level left gives up for want of levels. -/
theorem exhausts_tooDeep (context : Context) (reading : Reading) :
    Exhausts context.limit (tooDeep context : Read α) reading :=
  ⟨_, _, rfl, rfl, rfl⟩

/-- Readers that agree step by step agree on the steps together. -/
theorem Agrees.bind {first second : Read α} {rest others : α → Read β}
    (hfirst : Agrees limit P first second)
    (hrest : ∀ value, P value → Agrees limit Q (rest value) (others value)) :
    Agrees limit Q (first >>= rest) (second >>= others) := by
  intro reading
  rcases hfirst reading with ⟨error, later, herror, hlimit⟩ | ⟨heq, hvalue⟩
  · exact .inl ⟨error, later, by rw [bind_apply, herror], hlimit⟩
  · unfold Exhausts
    rw [bind_apply, bind_apply, ← heq]
    cases hrun : first reading with
    | ok value later => exact hrest value (hvalue value later hrun) later
    | error error later => exact .inr ⟨rfl, by simp⟩

/-- Making an error fatal keeps the agreement. -/
theorem Agrees.fatally {first second : Read α} (h : Agrees limit P first second) :
    Agrees limit P (Read.fatally first) (Read.fatally second) := by
  intro reading
  rcases h reading with ⟨error, later, herror, hlimit⟩ | ⟨heq, hvalue⟩
  · exact .inl ⟨error.escalate, later, by rw [Read.fatally, herror], hlimit.1, rfl⟩
  · refine .inr ⟨by rw [Read.fatally, Read.fatally, heq], ?_⟩
    intro value later hrun
    unfold Read.fatally at hrun
    cases hfirst : first reading with
    | ok given after =>
        rw [hfirst] at hrun
        cases hrun
        exact hvalue _ _ hfirst
    | error error after => simp [hfirst] at hrun

/-- What `recovering` does with the outcome of the step. -/
theorem recovering_apply (context : Context) (step : Read α) (reading : Reading) :
    recovering context step reading =
      match step reading with
      | .ok value later => .ok (some value) later
      | .error error later =>
          if error.fatal then .error error later
          else .ok none
            (Reading.resync context reading.position
              { later with errors := later.errors.push (.ofError error) }) := by
  show (get >>= _ : Read _) reading = _
  rw [bind_apply]
  show (attempt step >>= _ : Read _) reading = _
  rw [bind_apply, attempt]
  cases step reading with
  | ok value later => rfl
  | error error later =>
      show (if error.fatal = true then throw error else _ : Read _) later =
        if error.fatal = true then _ else _
      split <;> rfl

/-- So does recovering, because the nesting error is fatal and passes through. -/
theorem Agrees.recovering {first second : Read α} (context : Context)
    (h : Agrees limit P first second) :
    Agrees limit (∀ value ∈ ·, P value) (Read.recovering context first)
      (Read.recovering context second) := by
  intro reading
  unfold Exhausts
  rw [recovering_apply, recovering_apply]
  rcases h reading with ⟨error, later, herror, hlimit⟩ | ⟨heq, hvalue⟩
  · refine .inl ⟨error, later, ?_, hlimit⟩
    rw [herror]
    exact if_pos hlimit.2
  · refine .inr ⟨by rw [heq], ?_⟩
    intro found later hrun
    cases hfirst : first reading with
    | ok given after =>
        rw [hfirst] at hrun
        cases hrun
        simpa using hvalue _ _ hfirst
    | error error after =>
        rw [hfirst] at hrun
        dsimp only at hrun
        split at hrun <;> cases hrun
        simp

end Read

/-- The logic of readers with different limits. -/
def StepLogic.agrees (limit : Nat) : StepLogic where
  Always := Read.Agrees limit
  Ahead := Read.Agrees limit
  give hvalue := fun reading => .inr ⟨rfl, fun _ _ h => by cases h; exact hvalue⟩
  andThen := Read.Agrees.bind
  look _ := fun _ => .inr ⟨rfl, fun _ _ _ => trivial⟩
  advance := fun _ => .inr ⟨rfl, fun _ _ _ => trivial⟩
  fail _ := fun _ => .inr ⟨rfl, fun _ _ h => by cases h⟩
  record _ := fun _ => .inr ⟨rfl, fun _ _ _ => trivial⟩
  fatally := Read.Agrees.fatally
  recovering := Read.Agrees.recovering
  bounded h := fun reading => h (reading.ahead.length + 1) reading
  aheadLook view h := Read.Agrees.bind (P := fun _ => True)
    (fun _ => .inr ⟨rfl, fun _ _ _ => trivial⟩) fun value _ => h value
  aheadAdvance := fun _ => .inr ⟨rfl, fun _ _ _ => trivial⟩
  aheadFail _ := fun _ => .inr ⟨rfl, fun _ _ h => by cases h⟩
  aheadFatally := Read.Agrees.fatally
  aheadAndThen := Read.Agrees.bind

/-- The property that every statement has fits all properties of expressions. -/
theorem Stmt.closed_true (E : Expr → Prop) : Stmt.Closed E (fun _ => True) := by
  constructor <;> intros <;> trivial

/-- Recovery does not look at the limit. -/
theorem Reading.skipOver_withLimit (context : Context) (limit : Nat) (behind ahead : List Token) :
    Reading.skipOver (context.withLimit limit) behind ahead =
      Reading.skipOver context behind ahead := by
  induction ahead generalizing behind with
  | nil => rfl
  | cons token rest ih =>
      rw [Reading.skipOver, Reading.skipOver, ih]
      rfl

/-- Where skipping stops does not depend on the limit. -/
theorem Read.recovering_withLimit {α : Type} (context : Context) (limit : Nat) (step : Read α) :
    Read.recovering (context.withLimit limit) step = Read.recovering context step := by
  have hresync : Reading.resync (context.withLimit limit) = Reading.resync context := by
    funext start reading
    simp only [Reading.resync, Reading.skipAhead, Reading.skipOver_withLimit]
  funext reading
  rw [Read.recovering_apply, Read.recovering_apply, hresync]

/-- A statement form looks at the limit only through the statements inside it. -/
theorem Stmt.readForm_withLimit (context : Context) (limit : Nat) (inner : Stmt.Inner)
    (form : StmtForm) :
    Stmt.readForm (context.withLimit limit) inner form =
      Stmt.readForm context { inner with stmt := fun c => inner.stmt (c.withLimit limit) }
        form := by
  have hrecovered : ∀ context : Context, inner.recovered (context.withLimit limit) =
      Stmt.Inner.recovered { inner with stmt := fun c => inner.stmt (c.withLimit limit) } context :=
    fun context => Read.recovering_withLimit context limit _
  have harm : inner.arm (context.withLimit limit).enterMatch =
      Stmt.Inner.arm { inner with stmt := fun c => inner.stmt (c.withLimit limit) }
        context.enterMatch := by
    show inner.arm (context.enterMatch.withLimit limit) = _
    unfold Stmt.Inner.arm
    rw [Read.recovering_withLimit, hrecovered]
  cases form <;> simp only [Stmt.readForm, hrecovered, harm]
  rfl

section Readers

variable (context : Context) (other : Nat)

mutual

/-- With fewer levels an expression is read the same way, unless the levels run out. -/
theorem Expr.read_agrees {levels more : Nat} (hle : levels ≤ more) (power : Power) :
    Read.Agrees context.limit (fun _ => True) (Expr.read context levels power)
      (Expr.read (context.withLimit other) more power) := by
  cases levels with
  | zero =>
      rw [Expr.read]
      exact fun reading => .inl (Read.exhausts_tooDeep context reading)
  | succ levels =>
      obtain ⟨more, rfl⟩ : ∃ m, more = m + 1 := ⟨more - 1, by omega⟩
      have hless : levels ≤ more := by omega
      rw [Expr.read, Expr.read]
      refine Read.Agrees.bind (StepLogic.agrees context.limit).current fun token _ => ?_
      rw [show (context.withLimit other).grammar = context.grammar from rfl]
      cases context.grammar.lead? token with
      | none => exact (StepLogic.agrees context.limit).unexpected
      | some form =>
          refine Read.Agrees.bind ((StepLogic.agrees context.limit).read_lead context
            (fun _ _ => trivial) (fun _ _ => trivial)
            (fun power => Expr.read_agrees hless power) form) fun left _ => ?_
          exact Expr.readChain_agrees hless power left

/-- With fewer levels a chain of operators is read the same way, unless the levels run out. -/
theorem Expr.readChain_agrees {levels more : Nat} (hle : levels ≤ more) (power : Power)
    (left : Expr) :
    Read.Agrees context.limit (fun _ => True) (Expr.readChain context levels power left)
      (Expr.readChain (context.withLimit other) more power left) := by
  rw [Expr.readChain, Expr.readChain]
  refine Read.Agrees.bind (StepLogic.agrees context.limit).current fun token _ => ?_
  rw [show Expr.tighterTail? (context.withLimit other) power token =
    Expr.tighterTail? context power token from rfl]
  cases Expr.tighterTail? context power token with
  | none => exact (StepLogic.agrees context.limit).give trivial
  | some entry =>
      cases levels with
      | zero => exact fun reading => .inl (Read.exhausts_tooDeep context reading)
      | succ levels =>
          obtain ⟨more, rfl⟩ : ∃ m, more = m + 1 := ⟨more - 1, by omega⟩
          have hless : levels ≤ more := by omega
          refine Read.Agrees.bind ((StepLogic.agrees context.limit).read_tail
            (fun _ _ => trivial) (fun power => Expr.read_agrees hless power) entry.1 entry.2)
            fun joined _ => ?_
          exact Expr.readChain_agrees hless power joined

end

mutual

/-- With fewer levels a statement is read the same way, unless the levels run out. -/
theorem Stmt.read_agrees {levels more : Nat} (hle : levels ≤ more) (context : Context) :
    Read.Agrees context.limit (fun _ => True) (Stmt.read levels context)
      (Stmt.read more (context.withLimit other)) := by
  cases levels with
  | zero =>
      rw [Stmt.read]
      exact fun reading => .inl (Read.exhausts_tooDeep context reading)
  | succ levels =>
      obtain ⟨more, rfl⟩ : ∃ m, more = m + 1 := ⟨more - 1, by omega⟩
      have hless : levels ≤ more := by omega
      have hexpr := Expr.read_agrees context other hless .default
      rw [Stmt.read, Stmt.read]
      refine Read.Agrees.bind (StepLogic.agrees context.limit).current fun token _ => ?_
      rw [show (context.withLimit other).grammar = context.grammar from rfl]
      cases context.grammar.statement? token with
      | none => exact (StepLogic.agrees context.limit).read_expression (Stmt.closed_true _) hexpr
      | some form =>
          show Read.Agrees _ _ (Stmt.readForm context _ form) (Stmt.readForm _ _ form)
          rw [Stmt.readForm_withLimit]
          refine (StepLogic.agrees context.limit).read_form (Stmt.closed_true fun _ => True) context
            ?_ ?_ ?_ form
          · exact hexpr
          · exact fun inMatch => Stmt.read_agrees hless { context with inMatch := inMatch }
          · exact Stmt.readElseIf_agrees hless context

/-- With fewer levels a conditional behind `else` is read the same way, unless the levels run
out. -/
theorem Stmt.readElseIf_agrees {levels more : Nat} (hle : levels ≤ more) (context : Context) :
    Read.Agrees context.limit (fun _ => True) (Stmt.readElseIf levels context)
      (Stmt.readElseIf more (context.withLimit other)) := by
  cases levels with
  | zero =>
      rw [Stmt.readElseIf]
      exact fun reading => .inl (Read.exhausts_tooDeep context reading)
  | succ levels =>
      obtain ⟨more, rfl⟩ : ∃ m, more = m + 1 := ⟨more - 1, by omega⟩
      have hless : levels ≤ more := by omega
      rw [Stmt.readElseIf, Stmt.readElseIf, Read.recovering_withLimit]
      exact (StepLogic.agrees context.limit).read_if_else (Stmt.closed_true _)
        (Expr.read_agrees context other hless .default)
        (Read.Agrees.recovering context (Stmt.read_agrees hless context))
        (Stmt.readElseIf_agrees hless context)

end

/-- With fewer levels a program is read the same way, unless the levels run out. -/
theorem Program.readStatements_agrees {levels more : Nat} (hle : levels ≤ more) :
    Read.Agrees context.limit (fun _ => True) (Program.readStatements context levels)
      (Program.readStatements (context.withLimit other) more) := by
  have hstmt : Read.Agrees context.limit (∀ value ∈ ·, True) (Stmt.readRecovering levels context)
      (Stmt.readRecovering more (context.withLimit other)) := by
    unfold Stmt.readRecovering
    rw [Read.recovering_withLimit]
    exact Read.Agrees.recovering context (Stmt.read_agrees other hle context)
  exact (StepLogic.agrees context.limit).weaken
    ((StepLogic.agrees context.limit).read_statements hstmt) fun _ _ => trivial

end Readers

end ScriptLint
