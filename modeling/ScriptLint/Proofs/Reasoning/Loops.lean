import ScriptLint.Proofs.Reasoning.Forward

/-!
# Loops and their bounds

The loops of the reader are given a bound, one more than the number of tokens ahead. Their items
read a token in every round, so any two bounds above the number of tokens ahead give the same: the
bound never decides what is read.
-/

namespace ScriptLint

namespace Read

variable {α : Type} {step : Read α}

/-- The step moves forward, and reads a token if one is ahead, unless it fails. -/
class Progress (step : Read α) : Prop extends Forward step where
  lt : ∀ {reading later : Reading} {value : α}, reading.ahead ≠ [] →
    step reading = .ok value later → later.ahead.length < reading.ahead.length

/-- A step that moves forward where a token is ahead makes progress. -/
theorem Progress.of_ahead {P : α → Prop} (h : StepLogic.forward.Ahead P step step) :
    Progress step :=
  have hprogresses : Progresses P step := h
  { Forward.of_always hprogresses.moves with lt := hprogresses.lt }

/-- A step that makes progress is one of the logic where a token is ahead. -/
theorem Progress.ahead (h : Progress step) :
    StepLogic.forward.Ahead (fun _ => True) step step :=
  (⟨h.moves, h.lt⟩ : Progresses (fun _ => True) step)

instance (context : Context) [hstep : Progress step] : Progress (recovering context step) :=
  .of_ahead (Progresses.recovering context hstep.ahead)

instance (levels : Nat) (context : Context) : Progress (Stmt.read levels context) :=
  .of_ahead (Stmt.read_progresses levels context)

instance {stop : Read Bool} {item : Read (Option α)} [Forward stop] [Forward item] (bound : Nat) :
    Forward (collectFrom stop item bound) := by
  induction bound with
  | zero => exact inferInstanceAs (Forward (pure []))
  | succ bound ih =>
      unfold collectFrom
      infer_instance

instance {stop : Read Bool} {item : Read α} [Forward stop] [Forward item] (bound : Nat) :
    Forward (separatedFrom stop item bound) := by
  induction bound with
  | zero => exact inferInstanceAs (Forward (pure []))
  | succ bound ih =>
      unfold separatedFrom
      infer_instance

/-- An arm begins with its keyword. -/
instance {expr : Read Expr} {single : Read Stmt} {stmt : Read (Option Stmt)} [Forward expr]
    [Forward single] [Forward stmt] : Progress (MatchArm.read expr single stmt) := by
  let logic := StepLogic.forward
  have hrest {rest : Token → Read MatchArm} [hforward : ∀ opening, Forward (rest opening)] :
      logic.Ahead (fun _ => True) (advance >>= rest) (advance >>= rest) :=
    logic.aheadAndThen logic.aheadAdvance fun opening _ => (hforward opening).moves
  refine .of_ahead (P := fun _ => True) (logic.aheadLook (·.current.is "case") fun seen => ?_)
  split
  · exact hrest
  refine logic.aheadLook (·.current.is "default") fun seen => ?_
  split
  · exact hrest
  · exact logic.aheadFail fun _ _ => by simp [Error.ofCause]

instance (levels : Nat) (context : Context) : Progress (Stmt.readRecovering levels context) :=
  inferInstanceAs (Progress (recovering context _))

instance (inner : Stmt.Inner) (context : Context) [Progress (inner.stmt context)] :
    Progress (inner.recovered context) :=
  inferInstanceAs (Progress (recovering context _))

instance (inner : Stmt.Inner) (context : Context) [Forward inner.expr]
    [Progress (inner.stmt context)] : Progress (inner.arm context) :=
  inferInstanceAs (Progress (recovering context _))

instance {arm : Read (Option MatchArm)} [harm : Forward arm] (seen : Bool) (bound : Nat) :
    Forward (MatchArm.collectFrom arm seen bound) :=
  have hhas (found : MatchArm) : StepLogic.ArmHas (fun _ => True) (fun _ => True) found := by
    cases found <;> simp [StepLogic.ArmHas]
  .of_always (StepLogic.forward.collect_arms (harm.always fun _ found _ => hhas found) seen bound)

/-- The step only looks, and it holds at the end of the tokens. -/
def Halts (stop : Read Bool) : Prop :=
  ∀ reading, ∃ halted, stop reading = .ok halted reading ∧ (reading.ahead = [] → halted = true)

/-- A loop up to a closing text halts at the end. -/
theorem halts_atClose (close : String) : Halts (atClose close) :=
  fun _ => ⟨_, rfl, fun hahead => by simp [hahead]⟩

/-- A loop over all tokens halts at the end. -/
theorem halts_not_hasTokens : Halts (Bool.not <$> hasTokens) :=
  fun _ => ⟨_, rfl, fun hahead => by simp [hahead]⟩

/-- A loop over all tokens halts only there, and reads nothing to find out. -/
theorem not_hasTokens_ok_iff {reading later : Reading} {halted : Bool} :
    (Bool.not <$> hasTokens) reading = .ok halted later ↔
      halted = reading.ahead.isEmpty ∧ later = reading := by
  show EStateM.Result.ok (!(!reading.ahead.isEmpty)) reading = .ok halted later ↔ _
  rw [Bool.not_not]
  exact pure_ok_iff

/-- The bound of the loop does not matter if it is above the number of tokens ahead. -/
def Steady (loop : Nat → Read α) : Prop :=
  ∀ (bound other : Nat) (reading : Reading), reading.Marked → reading.ahead.length < bound →
    reading.ahead.length < other → loop bound reading = loop other reading

/-- If the bounds do not matter in one round as long as they do not matter behind it, they do not
matter at all. A round may go on with another loop of the same family. -/
theorem steady_of_rounds {ι : Type} (loop : ι → Nat → Read α)
    (h : ∀ i bound other reading, reading.Marked →
      (∀ j later, reading.Reaches later → later.ahead.length < reading.ahead.length →
        loop j bound later = loop j other later) →
      loop i (bound + 1) reading = loop i (other + 1) reading) (i : ι) : Steady (loop i) := by
  intro bound
  induction bound generalizing i with
  | zero => exact fun _ _ _ hbound => absurd hbound (Nat.not_lt_zero _)
  | succ bound ih =>
      intro other reading hmark hbound hother
      obtain ⟨other, rfl⟩ := Nat.exists_eq_succ_of_ne_zero (Nat.ne_of_gt (Nat.zero_lt_of_lt hother))
      refine h i bound other reading hmark fun j later hreaches hlt => ih j other later ?_ ?_ ?_
      · exact hreaches.marked hmark
      · exact Nat.lt_of_lt_of_le hlt (Nat.le_of_lt_succ hbound)
      · exact Nat.lt_of_lt_of_le hlt (Nat.le_of_lt_succ hother)

/-- The bound of a loop over items does not matter, since every item reads a token. -/
theorem steady_collectFrom {stop : Read Bool} {item : Read (Option α)} (hstop : Halts stop)
    [hitem : Progress item] : Steady (collectFrom stop item) := by
  refine steady_of_rounds (fun _ : Unit => collectFrom stop item) ?_ ()
  intro _ bound other reading _ hlater
  obtain ⟨halted, hlook, hend⟩ := hstop reading
  rw [collectFrom, collectFrom, bind_of_ok hlook, bind_of_ok hlook]
  cases halted with
  | true => rfl
  | false =>
      have hahead : reading.ahead ≠ [] := fun hnone => Bool.noConfusion (hend hnone)
      simp only [Bool.false_eq_true, if_false, bind_apply]
      cases hrun : item reading with
      | error error later => rfl
      | ok found later =>
          dsimp only
          rw [hlater () later (hitem.moves.of_ok hrun).2 (hitem.lt hahead hrun)]

/-- A loop that halts at once gives no items. -/
theorem collect_of_halted {stop : Read Bool} {item : Read (Option α)} {reading : Reading}
    (hlook : stop reading = .ok true reading) : collect stop item reading = .ok [] reading := by
  rw [collect, bounded, collectFrom, bind_of_ok hlook]
  rfl

/-- One round of a loop, and the loop again behind it. -/
theorem collect_of_item {stop : Read Bool} {item : Read (Option α)} {reading later : Reading}
    {found : Option α} (hstop : Halts stop) [hitem : Progress item] (hmark : reading.Marked)
    (hlook : stop reading = .ok false reading) (hrun : item reading = .ok found later) :
    collect stop item reading = ((found.toList ++ ·) <$> collect stop item) later := by
  have hahead : reading.ahead ≠ [] := by
    obtain ⟨halted, hlook', hend⟩ := hstop reading
    rw [hlook] at hlook'
    cases hlook'
    exact fun hnone => Bool.noConfusion (hend hnone)
  have hreaches := (hitem.moves.of_ok hrun).2
  have hsame : collectFrom stop item reading.ahead.length later = collect stop item later :=
    steady_collectFrom hstop _ _ later (hreaches.marked hmark) (hitem.lt hahead hrun)
      (Nat.lt_succ_self _)
  rw [map_eq_bind, bind_apply, ← hsame, collect, bounded, collectFrom, bind_of_ok hlook]
  simp only [Bool.false_eq_true, if_false]
  rw [bind_of_ok hrun, bind_apply]

/-- What a loop has done if it succeeds. -/
theorem collect_ok_cases {stop : Read Bool} {item : Read (Option α)} {reading later : Reading}
    {values : List α} (hstop : Halts stop) [Progress item] (hmark : reading.Marked)
    (h : collect stop item reading = .ok values later) :
    (stop reading = .ok true reading ∧ values = [] ∧ later = reading) ∨
      ∃ found middle rest, stop reading = .ok false reading ∧ item reading = .ok found middle ∧
        collect stop item middle = .ok rest later ∧ values = found.toList ++ rest := by
  obtain ⟨halted, hlook, -⟩ := hstop reading
  cases halted with
  | true =>
      rw [collect_of_halted hlook] at h
      cases h
      exact .inl ⟨hlook, rfl, rfl⟩
  | false =>
      cases hrun : item reading with
      | error error middle =>
          rw [collect, bounded, collectFrom, bind_of_ok hlook] at h
          simp [bind_apply, hrun] at h
      | ok found middle =>
          rw [collect_of_item hstop hmark hlook hrun, map_ok_iff] at h
          obtain ⟨rest, hrest, hvalues⟩ := h
          exact .inr ⟨found, middle, rest, hlook, rfl, hrest, hvalues⟩

/-- A loop that ends in an error has failed at one of its items. -/
theorem collect_error {stop : Read Bool} {item : Read (Option α)}
    {reading later : Reading} {error : Error} (hstop : Halts stop)
    (h : collect stop item reading = .error error later) :
    ∃ middle, item middle = .error error later := by
  have hrounds : ∀ (bound : Nat) (reading : Reading),
      collectFrom stop item bound reading = .error error later →
        ∃ middle, item middle = .error error later := by
    intro bound
    induction bound with
    | zero => exact fun reading hrun => by cases hrun
    | succ bound ih =>
        intro reading hrun
        obtain ⟨halted, hlook, -⟩ := hstop reading
        rw [collectFrom, bind_of_ok hlook] at hrun
        cases halted with
        | true => cases hrun
        | false =>
            rcases bind_error_cases hrun with hitem | ⟨found, middle, -, hrest⟩
            · exact ⟨reading, hitem⟩
            · rcases bind_error_cases hrest with hloop | ⟨others, last, -, hlast⟩
              · exact ih middle hloop
              · cases hlast
  exact hrounds _ reading h

/-- Items with commas between them may read nothing, but a comma is always read. -/
theorem steady_separatedFrom {stop : Read Bool} {item : Read α} [hstop : Forward stop]
    [hitem : Forward item] : Steady (separatedFrom stop item) := by
  refine steady_of_rounds (fun _ : Unit => separatedFrom stop item) ?_ ()
  intro _ bound other reading hmark hlater
  simp only [separatedFrom, bind_apply]
  cases hlook : stop reading with
  | error error middle => rfl
  | ok halted middle =>
      have hmiddle := (hstop.moves.of_ok hlook).2
      cases halted with
      | true => rfl
      | false =>
          simp only [Bool.false_eq_true, if_false, bind_apply]
          cases hrun : item middle with
          | error error later => rfl
          | ok found later =>
              have hreaches := hmiddle.trans (hitem.moves.of_ok hrun).2
              dsimp only
              cases haccept : accept "," later with
              | error error last => rfl
              | ok comma last =>
                  obtain ⟨hcomma, hlast⟩ := accept_ok_iff.1 haccept
                  cases comma with
                  | false => rfl
                  | true =>
                      have hahead := Reading.ahead_ne_nil_of_is (hreaches.marked hmark) hcomma.symm
                      have hlt := Reading.length_next_lt hahead
                      have hle := hreaches.length_le
                      rw [if_pos rfl] at hlast
                      subst hlast
                      simp only [if_true, bind_apply]
                      rw [hlater () later.next (hreaches.trans later.reaches_next) (by omega)]

/-- Arms are read in a loop of their own, whose rounds differ in what they do with an arm. -/
theorem steady_arms {arm : Read (Option MatchArm)} [harm : Progress arm] (seen : Bool) :
    Steady (MatchArm.collectFrom arm seen) := by
  refine steady_of_rounds (MatchArm.collectFrom arm) ?_ seen
  intro seen bound other reading _ hlater
  obtain ⟨halted, hlook, hend⟩ := halts_atClose "\x7d" reading
  rw [MatchArm.collectFrom, MatchArm.collectFrom, bind_of_ok hlook, bind_of_ok hlook]
  cases halted with
  | true => rfl
  | false =>
      have hahead : reading.ahead ≠ [] := fun hnone => Bool.noConfusion (hend hnone)
      simp only [Bool.false_eq_true, if_false, bind_apply]
      cases hrun : arm reading with
      | error error later => rfl
      | ok found later =>
          have hreaches := (harm.moves.of_ok hrun).2
          have hlt := harm.lt hahead hrun
          match found with
          | none => exact hlater seen later hreaches hlt
          | some (.test content) =>
              simp only [bind_apply]
              rw [hlater seen later hreaches hlt]
          | some (.otherwise body keyword) =>
              cases seen with
              | true =>
                  -- The error recorded for the second default arm keeps the place.
                  exact hlater true _ (hreaches.trans (later.reaches_record _)) hlt
              | false =>
                  simp only [Bool.false_eq_true, if_false, bind_apply]
                  rw [hlater true later hreaches hlt]

end Read

end ScriptLint
