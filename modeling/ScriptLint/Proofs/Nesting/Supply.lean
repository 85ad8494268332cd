import ScriptLint.Proofs.Nesting.Limit
import ScriptLint.Proofs.Reading.Passes

/-!
# How many levels are enough

Every level that is opened has a token of its own, except for two: the statement at the top and the
expression in it may be opened where nothing has been read yet. So a reader that may open two levels
more than there are tokens never fails for want of levels.
-/

namespace ScriptLint

namespace Read

variable {α β : Type}

/-- The outcome of a step that did not fail for want of levels, kept the mark, and left at most
`left` tokens ahead, or `held` if it failed. -/
def Ends (P : α → Prop) (mark : Token) (left held : Nat) : EStateM.Result Error Reading α → Prop
  | .ok value later => P value ∧ later.mark = mark ∧ later.ahead.length ≤ left
  | .error error later => (∀ limit, error.cause ≠ .recursionLimit limit) ∧ later.mark = mark ∧
      later.ahead.length ≤ held

/-- Where at most `tokens` tokens are ahead, the step does not fail for want of levels. -/
def Suffices (tokens : Nat) (P : α → Prop) (step : Read α) : Prop :=
  ∀ reading : Reading, reading.mark.kind = .eof → reading.ahead.length ≤ tokens →
    Ends P reading.mark tokens tokens (step reading)

/-- Where a token and at most `tokens` others are ahead, the step does not fail for want of levels,
and reads a token unless it fails. -/
def SufficesAhead (tokens : Nat) (P : α → Prop) (step : Read α) : Prop :=
  ∀ reading : Reading, reading.mark.kind = .eof → reading.ahead ≠ [] →
    reading.ahead.length ≤ tokens + 1 → Ends P reading.mark tokens (tokens + 1) (step reading)

variable {tokens : Nat} {P : α → Prop} {Q : β → Prop}

/-- More tokens may be left. -/
theorem Ends.mono {mark : Token} {left held more longer : Nat}
    {result : EStateM.Result Error Reading α} (h : Ends P mark left held result)
    (hleft : left ≤ more) (hheld : held ≤ longer) : Ends P mark more longer result := by
  cases result with
  | ok value later => exact ⟨h.1, h.2.1, Nat.le_trans h.2.2 hleft⟩
  | error error later => exact ⟨h.1, h.2.1, Nat.le_trans h.2.2 hheld⟩

/-- Levels that are enough for two steps are enough for one behind the other. -/
theorem Suffices.bind {first : Read α} {rest : α → Read β} (hfirst : Suffices tokens P first)
    (hrest : ∀ value, P value → Suffices tokens Q (rest value)) :
    Suffices tokens Q (first >>= rest) := by
  intro reading hmark hlength
  have hends := hfirst reading hmark hlength
  rw [bind_apply]
  cases hrun : first reading with
  | error error later =>
      rw [hrun] at hends
      exact hends
  | ok value later =>
      rw [hrun] at hends
      obtain ⟨hvalue, hsame, hleft⟩ := hends
      rw [← hsame]
      exact hrest value hvalue later (hsame ▸ hmark) hleft

/-- The same where a token is ahead of the first step. -/
theorem SufficesAhead.bind {first : Read α} {rest : α → Read β}
    (hfirst : SufficesAhead tokens P first)
    (hrest : ∀ value, P value → Suffices tokens Q (rest value)) :
    SufficesAhead tokens Q (first >>= rest) := by
  intro reading hmark hahead hlength
  have hends := hfirst reading hmark hahead hlength
  rw [bind_apply]
  cases hrun : first reading with
  | error error later =>
      rw [hrun] at hends
      exact hends
  | ok value later =>
      rw [hrun] at hends
      obtain ⟨hvalue, hsame, hleft⟩ := hends
      rw [← hsame]
      exact (hrest value hvalue later (hsame ▸ hmark) hleft).mono (Nat.le_refl _) (Nat.le_succ _)

/-- A step that has levels enough for every number of tokens up to `tokens`, and for none. -/
theorem Suffices.of_ahead {step : Read α}
    (hend : ∀ reading : Reading, reading.mark.kind = .eof → reading.ahead = [] →
      Ends P reading.mark 0 0 (step reading))
    (hahead : ∀ fewer, fewer < tokens → SufficesAhead fewer P step) : Suffices tokens P step := by
  intro reading hmark hlength
  by_cases hempty : reading.ahead = []
  · exact (hend reading hmark hempty).mono (Nat.zero_le _) (Nat.zero_le _)
  · have hpos := List.length_pos_iff.2 hempty
    exact (hahead (reading.ahead.length - 1) (by omega) reading hmark hempty (by omega)).mono
      (by omega) (by omega)

/-- Making an error fatal does not change how a step ends. -/
theorem Ends.escalate {mark : Token} {left held : Nat} {step : Read α} {reading : Reading}
    (h : Ends P mark left held (step reading)) :
    Ends P mark left held (Read.fatally step reading) := by
  unfold Read.fatally
  cases hrun : step reading with
  | ok value later =>
      rw [hrun] at h
      exact h
  | error error later =>
      rw [hrun] at h
      exact h

end Read

/-- Skipping never brings tokens back. -/
theorem Reading.length_skipOver_le (context : Context) (behind ahead : List Token) :
    (Reading.skipOver context behind ahead).2.length ≤ ahead.length := by
  induction ahead generalizing behind with
  | nil => exact Nat.le_refl _
  | cons token rest ih =>
      rw [Reading.skipOver]
      split
      · exact Nat.le_succ _
      split
      · exact Nat.le_refl _
      · exact Nat.le_succ_of_le (ih _)

/-- Taking a token leaves no more of them. -/
theorem Reading.length_next_le (reading : Reading) :
    reading.next.ahead.length ≤ reading.ahead.length := by
  unfold Reading.next
  split
  · exact Nat.le_refl _
  next h => simp [h]

/-- Taking a token keeps the mark. -/
theorem Reading.next_mark (reading : Reading) : reading.next.mark = reading.mark := by
  unfold Reading.next
  split <;> rfl

/-- Recovering leaves no more tokens. -/
theorem Reading.length_resync_le (context : Context) (start : Nat) (reading : Reading) :
    (reading.resync context start).ahead.length ≤ reading.ahead.length := by
  have hskip : ∀ r : Reading, (r.skipAhead context).ahead.length ≤ r.ahead.length :=
    fun r => Reading.length_skipOver_le context r.behind r.ahead
  unfold Reading.resync
  split
  · split
    · exact reading.length_next_le
    · exact Nat.le_trans (hskip _) reading.length_next_le
  · exact hskip reading

/-- Recovering keeps the mark. -/
theorem Reading.resync_mark (context : Context) (start : Nat) (reading : Reading) :
    (reading.resync context start).mark = reading.mark := by
  have hskip : ∀ r : Reading, (r.skipAhead context).mark = r.mark := fun _ => rfl
  unfold Reading.resync
  split
  · split
    · exact reading.next_mark
    · exact (hskip _).trans reading.next_mark
  · exact hskip reading

/-- Levels that are enough for a step are enough for recovering from it. -/
theorem Read.Suffices.recovering {α : Type} {tokens : Nat} {P : α → Prop} {step : Read α}
    (context : Context) (h : Read.Suffices tokens P step) :
    Read.Suffices tokens (∀ value ∈ ·, P value) (Read.recovering context step) := by
  intro reading hmark hlength
  have hends := h reading hmark hlength
  rw [Read.recovering_apply]
  cases hrun : step reading with
  | ok value later =>
      rw [hrun] at hends
      exact ⟨by simpa using hends.1, hends.2⟩
  | error error later =>
      rw [hrun] at hends
      dsimp only
      split
      · exact hends
      · refine ⟨by simp, ?_, ?_⟩
        · exact (Reading.resync_mark context _ _).trans hends.2.1
        · exact Nat.le_trans (Reading.length_resync_le context _ _) hends.2.2

/-- The logic of steps that have levels enough for `tokens` tokens. -/
def StepLogic.suffices (tokens : Nat) : StepLogic where
  Always P step _ := Read.Suffices tokens P step
  Ahead P step _ := Read.SufficesAhead tokens P step
  give hvalue := fun _ _ hlength => ⟨hvalue, rfl, hlength⟩
  andThen := Read.Suffices.bind
  look _ := fun _ _ hlength => ⟨trivial, rfl, hlength⟩
  advance := fun reading _ hlength =>
    ⟨trivial, reading.next_mark, Nat.le_trans reading.length_next_le hlength⟩
  fail herror := fun reading _ hlength => ⟨herror reading, rfl, hlength⟩
  record _ := fun _ _ hlength => ⟨trivial, rfl, hlength⟩
  fatally h := fun reading hmark hlength => (h reading hmark hlength).escalate
  recovering := Read.Suffices.recovering
  bounded h := fun reading => h (reading.ahead.length + 1) reading
  aheadLook view h := fun reading => h (view reading) reading
  aheadAdvance := by
    intro reading _ hahead hlength
    refine ⟨trivial, reading.next_mark, ?_⟩
    unfold Reading.next
    split
    next h => exact absurd h hahead
    next h => simpa [h] using hlength
  aheadFail herror := fun reading _ _ hlength => ⟨herror reading, rfl, hlength⟩
  aheadFatally h := fun reading hmark hahead hlength =>
    (h reading hmark hahead hlength).escalate
  aheadAndThen := Read.SufficesAhead.bind

variable {context : Context}

/-- The end mark goes on with no expression. -/
theorem Expr.tighterTail?_mark (hgrammar : context.grammar.StopsAtMark) {mark : Token}
    (hmark : mark.kind = .eof) (power : Power) :
    Expr.tighterTail? context power mark = none := by
  rw [Expr.tighterTail?, (hgrammar mark hmark).2.1]
  rfl

mutual

/-- Two levels more than there are tokens behind the first one are enough for an expression. -/
theorem Expr.read_sufficesAhead (hgrammar : context.grammar.StopsAtMark) {levels tokens : Nat}
    (hlevels : tokens + 2 ≤ levels) (power : Power) :
    Read.SufficesAhead tokens (fun _ => True) (Expr.read context levels power) := by
  obtain ⟨levels, rfl⟩ : ∃ n, levels = n + 1 := ⟨levels - 1, by omega⟩
  let logic := StepLogic.suffices tokens
  show logic.Ahead _ (Expr.read context (levels + 1) power)
    (Expr.read context (levels + 1) power)
  rw [Expr.read]
  refine logic.aheadLook Reading.current fun token => ?_
  cases context.grammar.lead? token with
  | none => exact logic.ahead_unexpected
  | some form =>
      have hinner : ∀ power, logic.Always (fun _ => True) (Expr.read context levels power)
          (Expr.read context levels power) :=
        fun power => Expr.read_suffices hgrammar (by omega) power
      refine logic.aheadAndThen (logic.read_lead context (fun _ _ => trivial)
        (fun _ _ => trivial) hinner form) fun left _ => ?_
      exact Expr.readChain_suffices hgrammar (by omega) power left

/-- One level more than there are tokens is enough for an expression. -/
theorem Expr.read_suffices (hgrammar : context.grammar.StopsAtMark) {levels tokens : Nat}
    (hlevels : tokens + 1 ≤ levels) (power : Power) :
    Read.Suffices tokens (fun _ => True) (Expr.read context levels power) := by
  refine Read.Suffices.of_ahead ?_ fun fewer hfewer =>
    Expr.read_sufficesAhead hgrammar (by omega) power
  intro reading hmark hempty
  obtain ⟨levels, rfl⟩ : ∃ n, levels = n + 1 := ⟨levels - 1, by omega⟩
  rw [Expr.read, Read.bind_apply]
  show Read.Ends _ _ _ _ ((match context.grammar.lead? reading.current with
    | none => Read.unexpected
    | some form => _ : Read Expr) reading)
  rw [Reading.current_of_ahead_nil hempty, (hgrammar _ hmark).1]
  exact (StepLogic.suffices 0).unexpected reading hmark (by simp [hempty])

/-- One level more than there are tokens is enough for a chain of operators. -/
theorem Expr.readChain_suffices (hgrammar : context.grammar.StopsAtMark) {levels tokens : Nat}
    (hlevels : tokens + 1 ≤ levels) (power : Power) (left : Expr) :
    Read.Suffices tokens (fun _ => True) (Expr.readChain context levels power left) := by
  obtain ⟨levels, rfl⟩ : ∃ n, levels = n + 1 := ⟨levels - 1, by omega⟩
  intro reading hmark hlength
  rw [Expr.readChain, Read.bind_apply]
  show Read.Ends _ _ _ _ ((match Expr.tighterTail? context power reading.current with
    | none => pure left
    | some (next, form) => _ : Read Expr) reading)
  cases htail : Expr.tighterTail? context power reading.current with
  | none => exact ⟨trivial, rfl, hlength⟩
  | some entry =>
      have hahead : reading.ahead ≠ [] :=
        Reading.ahead_ne_nil (Expr.tighterTail?_mark hgrammar hmark power) htail
      have hpos := List.length_pos_iff.2 hahead
      -- The operator is read, so the rest of the chain has one token less.
      let logic := StepLogic.suffices (reading.ahead.length - 1)
      have hchain : logic.Ahead (fun _ => True)
          (Expr.readTail (Expr.read context levels) left entry.1 entry.2 >>=
            Expr.readChain context levels power)
          (Expr.readTail (Expr.read context levels) left entry.1 entry.2 >>=
            Expr.readChain context levels power) := by
        have hinner : ∀ power, logic.Always (fun _ => True) (Expr.read context levels power)
            (Expr.read context levels power) :=
          fun power => Expr.read_suffices hgrammar (by omega) power
        refine logic.aheadAndThen (logic.read_tail (fun _ _ => trivial) hinner entry.1 entry.2)
          fun joined _ => ?_
        exact Expr.readChain_suffices hgrammar (by omega) power joined
      exact (hchain reading hmark hahead (by omega)).mono (by omega) (by omega)

end

/-- Behind the last token no conditional can be read, whatever the steps inside it do. -/
theorem Stmt.readIfElse_ends {expr : Read Expr} {stmt : Read (Option Stmt)} {elseIf : Read Stmt}
    {reading : Reading} (hmark : reading.mark.kind = .eof) (hempty : reading.ahead = []) :
    Read.Ends (fun _ => True) reading.mark 0 0 (Stmt.readIfElse expr stmt elseIf reading) := by
  have hnext : reading.next = reading := by simp [Reading.next, hempty]
  have hcurrent := Reading.current_of_ahead_nil hempty
  have hopen : reading.current.is "(" = false := by
    simp [hcurrent, Token.is, Token.isSpelled, hmark]
  have hrun : Stmt.readIfElse expr stmt elseIf reading =
      .error (.ofCause (.expectedToken "(" reading.current.display) reading.current.span)
        reading := by
    simp [Stmt.readIfElse, Stmt.readCondition, Read.expect, Read.bind_apply, Read.advance,
      Read.sees, Read.failWith, hnext, hopen]
  rw [hrun]
  exact ⟨fun _ => by simp [Error.ofCause], rfl, by simp [hempty]⟩

mutual

/-- Three levels more than there are tokens behind the first one are enough for a statement. -/
theorem Stmt.read_sufficesAhead {levels tokens : Nat} (hlevels : tokens + 3 ≤ levels)
    (context : Context) (hgrammar : context.grammar.StopsAtMark) :
    Read.SufficesAhead tokens (fun _ => True) (Stmt.read levels context) := by
  obtain ⟨levels, rfl⟩ : ∃ n, levels = n + 1 := ⟨levels - 1, by omega⟩
  let logic := StepLogic.suffices tokens
  show logic.Ahead _ (Stmt.read (levels + 1) context) (Stmt.read (levels + 1) context)
  rw [Stmt.read]
  refine logic.aheadLook Reading.current fun token => ?_
  cases context.grammar.statement? token with
  | none =>
      exact logic.read_expression (Stmt.closed_true _)
        (Expr.read_sufficesAhead hgrammar (by omega) .default)
  | some form =>
      refine logic.read_form (Stmt.closed_true fun _ => True) context ?_ ?_ ?_ form
      · exact Expr.read_suffices hgrammar (by omega) .default
      · exact fun inMatch =>
          Stmt.read_suffices (by omega) { context with inMatch := inMatch } hgrammar
      · exact Stmt.readElseIf_suffices (by omega) context hgrammar

/-- Two levels more than there are tokens are enough for a statement. -/
theorem Stmt.read_suffices {levels tokens : Nat} (hlevels : tokens + 2 ≤ levels)
    (context : Context) (hgrammar : context.grammar.StopsAtMark) :
    Read.Suffices tokens (fun _ => True) (Stmt.read levels context) := by
  refine Read.Suffices.of_ahead ?_ fun fewer hfewer =>
    Stmt.read_sufficesAhead (by omega) context hgrammar
  intro reading hmark hempty
  obtain ⟨levels, rfl⟩ : ∃ n, levels = n + 1 := ⟨levels - 1, by omega⟩
  have hcurrent := Reading.current_of_ahead_nil hempty
  rw [Stmt.read, Stmt.readBy, Read.bind_apply]
  show Read.Ends _ _ _ _ ((match context.grammar.statement? reading.current with
    | some form => _
    | none => Stmt.readExpression _ : Read Stmt) reading)
  rw [hcurrent, (hgrammar _ hmark).2.2]
  show Read.Ends _ _ _ _ ((ite _ _ Read.unexpected : Read Stmt) reading)
  rw [if_neg (by simp [hcurrent, hmark])]
  exact (StepLogic.suffices 0).unexpected reading hmark (by simp [hempty])

/-- Two levels more than there are tokens are enough for a conditional behind `else`. -/
theorem Stmt.readElseIf_suffices {levels tokens : Nat} (hlevels : tokens + 2 ≤ levels)
    (context : Context) (hgrammar : context.grammar.StopsAtMark) :
    Read.Suffices tokens (fun _ => True) (Stmt.readElseIf levels context) := by
  obtain ⟨levels, rfl⟩ : ∃ n, levels = n + 1 := ⟨levels - 1, by omega⟩
  rw [Stmt.readElseIf]
  refine Read.Suffices.of_ahead (fun _ => Stmt.readIfElse_ends) fun fewer hfewer => ?_
  let logic := StepLogic.suffices fewer
  show logic.Ahead _ (Stmt.readIfElse _ _ _) (Stmt.readIfElse (Expr.read context levels .default)
    (Read.recovering context (Stmt.read levels context)) (Stmt.readElseIf levels context))
  refine logic.read_if_else (Stmt.closed_true fun _ => True) ?_ ?_ ?_
  · exact Expr.read_suffices hgrammar (by omega) .default
  · exact Read.Suffices.recovering context (Stmt.read_suffices (by omega) context hgrammar)
  · exact Stmt.readElseIf_suffices (by omega) context hgrammar

end

/-- Two levels more than there are tokens are enough for a program. -/
theorem Program.readStatements_suffices {levels tokens : Nat} (hlevels : tokens + 2 ≤ levels)
    (context : Context) (hgrammar : context.grammar.StopsAtMark) :
    Read.Suffices tokens (fun _ => True) (Program.readStatements context levels) := by
  let logic := StepLogic.suffices tokens
  have hstmt : logic.Always (∀ value ∈ ·, True) (Stmt.readRecovering levels context)
      (Stmt.readRecovering levels context) :=
    Read.Suffices.recovering context (Stmt.read_suffices hlevels context hgrammar)
  exact logic.weaken (logic.read_statements hstmt) fun _ _ => trivial

end ScriptLint
