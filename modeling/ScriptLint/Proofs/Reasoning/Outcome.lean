import ScriptLint.Proofs.Nesting.Supply

/-!
# What a reader gives

The logic of what steps give, whatever they are run on. An expression that is read is not higher
than `Expr.reach` of the levels. If every expression is read with a property, and a property of
statements follows from it, every statement is read with that one. Along with it goes that no step
moves the mark.
-/

namespace ScriptLint

namespace Read

variable {α β : Type} {P : α → Prop} {Q : β → Prop}

/-- The outcome of a step that kept the mark and gave nothing but values with the property. -/
def Keeps (P : α → Prop) (step : Read α) : Prop :=
  ∀ reading, match step reading with
    | .ok value later => P value ∧ later.mark = reading.mark
    | .error _ later => later.mark = reading.mark

/-- A success gives a value with the property and keeps the mark. -/
theorem Keeps.of_ok {step : Read α} (h : Keeps P step) {reading later : Reading} {value : α}
    (hrun : step reading = .ok value later) : P value ∧ later.mark = reading.mark := by
  have hkeeps := h reading
  rwa [hrun] at hkeeps

/-- Less may be said of the values. -/
theorem Keeps.mono {step : Read α} {R : α → Prop} (h : Keeps P step)
    (hweak : ∀ value, P value → R value) : Keeps R step := by
  intro reading
  have hkeeps := h reading
  cases hrun : step reading with
  | error error later => rwa [hrun] at hkeeps
  | ok value later =>
      rw [hrun] at hkeeps
      exact ⟨hweak value hkeeps.1, hkeeps.2⟩

/-- One step behind another. -/
theorem Keeps.bind {first : Read α} {rest : α → Read β} (hfirst : Keeps P first)
    (hrest : ∀ value, P value → Keeps Q (rest value)) : Keeps Q (first >>= rest) := by
  intro reading
  have hkeeps := hfirst reading
  rw [bind_apply]
  cases hrun : first reading with
  | error error later =>
      rw [hrun] at hkeeps
      exact hkeeps
  | ok value later =>
      rw [hrun] at hkeeps
      obtain ⟨hvalue, hmark⟩ := hkeeps
      rw [← hmark]
      exact hrest value hvalue later

/-- Making an error fatal does not change what is given. -/
theorem Keeps.fatally {step : Read α} (h : Keeps P step) : Keeps P (Read.fatally step) := by
  intro reading
  have hkeeps := h reading
  unfold Read.fatally
  cases hrun : step reading <;> simpa [hrun] using hkeeps

/-- Recovering gives the value of the step or none. -/
theorem Keeps.recovering {step : Read α} (context : Context) (h : Keeps P step) :
    Keeps (∀ value ∈ ·, P value) (Read.recovering context step) := by
  intro reading
  have hkeeps := h reading
  rw [recovering_apply]
  cases hrun : step reading with
  | ok value later =>
      rw [hrun] at hkeeps
      exact ⟨by simpa using hkeeps.1, hkeeps.2⟩
  | error error later =>
      rw [hrun] at hkeeps
      dsimp only
      split
      next heq =>
          split at heq
          · cases heq
          · cases heq
            exact ⟨by simp, (Reading.resync_mark context _ _).trans hkeeps⟩
      next heq =>
          split at heq
          · cases heq
            exact hkeeps
          · cases heq

end Read

/-- The logic of what steps give. -/
def StepLogic.keeps : StepLogic where
  Always P step _ := Read.Keeps P step
  Ahead P step _ := Read.Keeps P step
  give hvalue := fun _ => ⟨hvalue, rfl⟩
  andThen := Read.Keeps.bind
  look _ := fun _ => ⟨trivial, rfl⟩
  advance := fun reading => ⟨trivial, reading.next_mark⟩
  fail _ := fun _ => rfl
  record _ := fun _ => ⟨trivial, rfl⟩
  fatally := Read.Keeps.fatally
  recovering := Read.Keeps.recovering
  bounded h := fun reading => h (reading.ahead.length + 1) reading
  aheadLook view h := fun reading => h (view reading) reading
  aheadAdvance := fun reading => ⟨trivial, reading.next_mark⟩
  aheadFail _ := fun _ => rfl
  aheadFatally := Read.Keeps.fatally
  aheadAndThen := Read.Keeps.bind

/-! ## Expressions -/

/-- The height that an expression read with a number of levels may have. -/
def Expr.reach : Nat → Nat
  | 0 => 0
  | levels + 1 => reach levels + (levels + 1)

/-- More levels reach higher. -/
theorem Expr.reach_mono {levels more : Nat} (h : levels ≤ more) : reach levels ≤ reach more := by
  induction h with
  | refl => exact Nat.le_refl _
  | step _ ih => exact Nat.le_trans ih (Nat.le_add_right _ _)

mutual

/-- An expression is not higher than the levels allow. -/
theorem Expr.read_keeps (context : Context) (levels : Nat) (power : Power) :
    Read.Keeps (·.height ≤ Expr.reach levels) (Expr.read context levels power) := by
  cases levels with
  | zero =>
      rw [Expr.read]
      exact fun _ => rfl
  | succ levels =>
      let logic := StepLogic.keeps
      show logic.Ahead (·.height ≤ Expr.reach levels + (levels + 1))
        (Expr.read context (levels + 1) power) (Expr.read context (levels + 1) power)
      rw [Expr.read]
      refine logic.aheadLook Reading.current fun token => ?_
      cases context.grammar.lead? token with
      | none => exact logic.ahead_unexpected
      | some form =>
          -- What the chain starts with is one node higher than what is inside it.
          have hlead : logic.Ahead (·.height ≤ Expr.reach levels + 1)
              (Expr.readLead context (Expr.read context levels) form)
              (Expr.readLead context (Expr.read context levels) form) := by
            refine logic.read_lead context (fun expr => Expr.height_le_of_children) ?_ ?_ form
            · exact fun expr hexpr => Nat.le_succ_of_le hexpr
            · exact fun power => Expr.read_keeps context levels power
          refine logic.aheadAndThen hlead fun left hleft => ?_
          have hchain := Expr.readChain_keeps context levels power hleft (Nat.le_succ _)
          rwa [Nat.add_assoc, Nat.add_comm 1] at hchain

/-- Each operator of a chain makes the expression one node higher, as long as its operands are not
higher than what is on its left. -/
theorem Expr.readChain_keeps (context : Context) (levels : Nat) (power : Power) {left : Expr}
    {bound : Nat} (hleft : left.height ≤ bound) (hbound : Expr.reach levels ≤ bound) :
    Read.Keeps (·.height ≤ bound + levels) (Expr.readChain context levels power left) := by
  let logic := StepLogic.keeps
  show logic.Ahead _ (Expr.readChain context levels power left)
    (Expr.readChain context levels power left)
  rw [Expr.readChain.eq_def]
  refine logic.aheadLook Reading.current fun token => ?_
  cases Expr.tighterTail? context power token with
  | none => exact logic.give (Nat.le_add_right_of_le hleft)
  | some entry =>
      cases levels with
      | zero => exact fun _ => rfl
      | succ levels =>
          have hless : Expr.reach levels ≤ bound :=
            Nat.le_trans (Expr.reach_mono (Nat.le_succ levels)) hbound
          have htail : logic.Ahead (·.height ≤ bound + 1)
              (Expr.readTail (Expr.read context levels) left entry.1 entry.2)
              (Expr.readTail (Expr.read context levels) left entry.1 entry.2) := by
            refine logic.read_tail (fun expr hchildren => Expr.height_le_of_children ?_)
              (fun power => Expr.read_keeps context levels power) entry.1 entry.2
            intro child hchild
            rcases hchildren child hchild with rfl | hinner
            · exact hleft
            · exact Nat.le_trans hinner hless
          refine logic.aheadAndThen htail fun joined hjoined => ?_
          have hchain := Expr.readChain_keeps context levels power hjoined
            (Nat.le_succ_of_le hless)
          rwa [Nat.add_assoc, Nat.add_comm 1] at hchain

end

/-! ## Statements -/

section Statements

variable {E : Expr → Prop} {S : Stmt → Prop} (closed : Stmt.Closed E S)

include closed

mutual

/-- Every statement is read with the property that follows from the one of its expressions. -/
theorem Stmt.read_keeps (levels : Nat) (context : Context)
    (hexpr : ∀ (context : Context) (inner : Nat), inner < levels →
      Read.Keeps E (Expr.read context inner .default)) :
    Read.Keeps S (Stmt.read levels context) := by
  cases levels with
  | zero =>
      rw [Stmt.read]
      exact fun _ => rfl
  | succ levels =>
      have hinner : ∀ (context : Context) (inner : Nat), inner < levels →
          Read.Keeps E (Expr.read context inner .default) :=
        fun context inner hlt => hexpr context inner (Nat.lt_succ_of_lt hlt)
      let logic := StepLogic.keeps
      show logic.Ahead _ (Stmt.read (levels + 1) context) (Stmt.read (levels + 1) context)
      rw [Stmt.read]
      refine logic.aheadLook Reading.current fun token => ?_
      cases context.grammar.statement? token with
      | none => exact logic.read_expression closed (hexpr context levels (Nat.lt_succ_self _))
      | some form =>
          refine logic.read_form closed context ?_ ?_ ?_ form
          · exact hexpr context levels (Nat.lt_succ_self _)
          · exact fun inMatch => Stmt.read_keeps levels { context with inMatch := inMatch } hinner
          · exact Stmt.readElseIf_keeps levels context hinner

/-- The same for a conditional behind an `else`. -/
theorem Stmt.readElseIf_keeps (levels : Nat) (context : Context)
    (hexpr : ∀ (context : Context) (inner : Nat), inner < levels →
      Read.Keeps E (Expr.read context inner .default)) :
    Read.Keeps S (Stmt.readElseIf levels context) := by
  cases levels with
  | zero =>
      rw [Stmt.readElseIf]
      exact fun _ => rfl
  | succ levels =>
      have hinner : ∀ (context : Context) (inner : Nat), inner < levels →
          Read.Keeps E (Expr.read context inner .default) :=
        fun context inner hlt => hexpr context inner (Nat.lt_succ_of_lt hlt)
      let logic := StepLogic.keeps
      show logic.Ahead _ (Stmt.readElseIf (levels + 1) context)
        (Stmt.readElseIf (levels + 1) context)
      rw [Stmt.readElseIf]
      refine logic.read_if_else closed ?_ ?_ ?_
      · exact hexpr context levels (Nat.lt_succ_self _)
      · exact Read.Keeps.recovering context (Stmt.read_keeps levels context hinner)
      · exact Stmt.readElseIf_keeps levels context hinner

end

/-- Every statement of a program is read with the property that follows from the one of its
expressions. -/
theorem Program.readStatements_keeps (context : Context) (levels : Nat)
    (hexpr : ∀ (context : Context) (inner : Nat), inner < levels →
      Read.Keeps E (Expr.read context inner .default)) :
    Read.Keeps (∀ stmt ∈ ·, S stmt) (Program.readStatements context levels) := by
  let logic := StepLogic.keeps
  have hstmt : logic.Always (∀ stmt ∈ ·, S stmt) (Stmt.readRecovering levels context)
      (Stmt.readRecovering levels context) :=
    Read.Keeps.recovering context (Stmt.read_keeps closed levels context hexpr)
  exact logic.read_statements hstmt

end Statements

end ScriptLint
