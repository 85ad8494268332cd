import ScriptLint.Proofs.Reasoning.Loops

/-!
# Loops without a bound

`Read.Loops round state reading outcome` says that a loop which runs its round over and over, with
no bound, comes to an end and gives the outcome. In every round but the last one it reads a token,
and it fails with nothing but a fatal error. The bounded loops of the reader are such loops: those
over statements, over the arms of a `match`, and over a whole program.
-/

namespace ScriptLint

namespace Read

variable {α σ : Type} {reading : Reading}

/-- At this reading the step moves forward, or else its error is fatal. -/
def AdvancesAt (step : Read α) (reading : Reading) : Prop :=
  match step reading with
  | .ok _ later => reading.position < later.position
  | .error error _ => error.fatal = true

/-- The step fails with nothing but fatal errors. -/
def FailsFatally (step : Read α) : Prop :=
  ∀ ⦃reading later : Reading⦄ ⦃error : Error⦄, step reading = .error error later →
    error.fatal = true

/-- What is recovered from fails with a fatal error only. -/
theorem failsFatally_recovering (context : Context) (step : Read α) :
    FailsFatally (recovering context step) :=
  fun _ _ _ hrun => (recovering_error_cases hrun).2

/-- The runs of a loop. A round gives the state of the next one, or else the result. -/
inductive Loops (round : σ → Read (σ ⊕ α)) :
    σ → Reading → EStateM.Result Error Reading α → Prop
  | stops {state : σ} {reading later : Reading} {result : α}
      (hround : round state reading = .ok (.inr result) later) :
      Loops round state reading (.ok result later)
  | fails {state : σ} {reading later : Reading} {error : Error}
      (hround : round state reading = .error error later) (hfatal : error.fatal = true) :
      Loops round state reading (.error error later)
  | goesOn {state next : σ} {reading later : Reading} {outcome : EStateM.Result Error Reading α}
      (hround : round state reading = .ok (.inl next) later)
      (hlt : reading.position < later.position) (hrest : Loops round next later outcome) :
      Loops round state reading outcome

/-- A loop that gives a result has done so in its last round. -/
theorem Loops.last_round {round : σ → Read (σ ⊕ α)} {state : σ}
    {outcome : EStateM.Result Error Reading α} (h : Loops round state reading outcome)
    {result : α} {later : Reading} (houtcome : outcome = .ok result later) :
    ∃ last place, round last place = .ok (.inr result) later := by
  induction h with
  | stops hround =>
      cases houtcome
      exact ⟨_, _, hround⟩
  | fails hround hfatal => cases houtcome
  | goesOn hround hlt hrest ih => exact ih houtcome

/-- A reading with fewer tokens ahead is further on. -/
theorem position_lt_of_length_lt {later : Reading} (hreaches : reading.Reaches later)
    (hlt : later.ahead.length < reading.ahead.length) : reading.position < later.position := by
  have hsum := hreaches.position_add
  omega

/-- A step that reads a token, or fails with a fatal error, moves forward where a token is ahead. -/
theorem Progress.advancesAt {step : Read α} [hstep : Progress step] (hfatal : FailsFatally step)
    (hahead : reading.ahead ≠ []) : AdvancesAt step reading := by
  unfold AdvancesAt
  cases hrun : step reading with
  | ok value later =>
      exact position_lt_of_length_lt (hstep.moves.of_ok hrun).2 (hstep.lt hahead hrun)
  | error error later => exact hfatal hrun

/-- A round that goes on has read a token, and one that fails does so with a fatal error. -/
structure Advances (round : σ → Read (σ ⊕ α)) : Prop where
  goes_on : ∀ {state next : σ} {reading later : Reading},
    round state reading = .ok (.inl next) later →
    reading.Reaches later ∧ later.ahead.length < reading.ahead.length
  fails : ∀ state, FailsFatally (round state)

/-- A loop that is a round, and the loop with a smaller bound behind it, never reaches a bound above
the number of tokens ahead. -/
theorem Advances.loops {round : σ → Read (σ ⊕ α)} (h : Advances round) (loop : σ → Nat → Read α)
    (hunrolls : ∀ state bound, loop state (bound + 1) =
      round state >>= Sum.elim (fun next => loop next bound) pure) {bound : Nat}
    (hbound : reading.ahead.length < bound) (state : σ) :
    Loops round state reading (loop state bound reading) := by
  induction bound generalizing reading state with
  | zero => exact absurd hbound (Nat.not_lt_zero _)
  | succ bound ih =>
      rw [hunrolls, bind_apply]
      cases hround : round state reading with
      | error error later => exact .fails hround (h.fails state hround)
      | ok found later =>
          cases found with
          | inr result => exact .stops hround
          | inl next =>
              obtain ⟨hreaches, hlt⟩ := h.goes_on hround
              have hposition := position_lt_of_length_lt hreaches hlt
              exact .goesOn hround hposition (ih (by omega) next)

/-- One round of a loop over items: the items found so far, and one more unless it is discarded. -/
def collectRound (stop : Read Bool) (item : Read (Option α)) (found : List α) :
    Read (List α ⊕ List α) := do
  if ← stop then return .inr found
  let next ← item
  return .inl (found ++ next.toList)

/-- A loop over items does one round and goes on. -/
theorem collectFrom_unrolls (stop : Read Bool) (item : Read (Option α)) (found : List α)
    (bound : Nat) : (found ++ ·) <$> collectFrom stop item (bound + 1) =
      collectRound stop item found >>=
        Sum.elim (fun next => (next ++ ·) <$> collectFrom stop item bound) pure := by
  rw [collectFrom, collectRound]
  simp only [map_bind, bind_assoc]
  congr 1
  funext halted
  cases halted with
  | true => simp
  | false => simp

/-- A round over items reads a token, unless it is the last one. -/
theorem advances_collectRound {stop : Read Bool} {item : Read (Option α)} (hstop : Halts stop)
    [hitem : Progress item] (hfatal : FailsFatally item) :
    Advances (collectRound stop item) := by
  constructor
  · intro found next reading later hround
    obtain ⟨halted, hlook, hend⟩ := hstop reading
    rw [collectRound, bind_of_ok hlook] at hround
    cases halted with
    | true => cases hround
    | false =>
        have hahead : reading.ahead ≠ [] := fun hnone => Bool.noConfusion (hend hnone)
        obtain ⟨value, middle, hrun, hlast⟩ := bind_ok_iff.1 hround
        obtain ⟨-, rfl⟩ := pure_ok_iff.1 hlast
        exact ⟨(hitem.moves.of_ok hrun).2, hitem.lt hahead hrun⟩
  · intro found reading later error hround
    obtain ⟨halted, hlook, -⟩ := hstop reading
    rw [collectRound, bind_of_ok hlook] at hround
    cases halted with
    | true => cases hround
    | false =>
        rcases bind_error_cases hround with hrun | ⟨value, middle, -, hlast⟩
        · exact hfatal hrun
        · cases hlast

/-- A loop over items that are recovered from is a loop without a bound. -/
theorem loops_collect {stop : Read Bool} {item : Read (Option α)} (hstop : Halts stop)
    [Progress item] (hfatal : FailsFatally item) (reading : Reading) :
    Loops (collectRound stop item) [] reading (collect stop item reading) := by
  have hloop := (advances_collectRound hstop hfatal).loops
    (fun found bound => (found ++ ·) <$> collectFrom stop item bound)
    (collectFrom_unrolls stop item) (Nat.lt_succ_self reading.ahead.length) []
  simpa [collect, bounded] using hloop

end Read

namespace MatchArm

open Read

/-- One round of the loop over the arms of a `match`: the tested arms found so far, and the default
arm if there was one. The first default arm counts. -/
def round (arm : Read (Option MatchArm)) (found : List (MatchCase Stmt) × Option Stmt) :
    Read ((List (MatchCase Stmt) × Option Stmt) ⊕ (List (MatchCase Stmt) × Option Stmt)) := do
  if ← atClose "\x7d" then return .inr found
  match ← arm with
  | none => return .inl found
  | some (.test content) => return .inl (found.1 ++ [content], found.2)
  | some (.otherwise body keyword) =>
      if found.2.isSome then
        record (.ofError (.ofCause .duplicateDefault keyword))
        return .inl found
      else return .inl (found.1, some body)

/-- The arms found by a loop, behind those found before it. -/
def join (found later : List (MatchCase Stmt) × Option Stmt) :
    List (MatchCase Stmt) × Option Stmt :=
  (found.1 ++ later.1, found.2.or later.2)

theorem join_eq (found : List (MatchCase Stmt) × Option Stmt) :
    join found = fun later => (found.1 ++ later.1, found.2.or later.2) := rfl

/-- A loop over arms does one round and goes on with what has been found. -/
theorem collectFrom_unrolls (arm : Read (Option MatchArm))
    (found : List (MatchCase Stmt) × Option Stmt) (bound : Nat) :
    join found <$> collectFrom arm found.2.isSome (bound + 1) =
      round arm found >>= Sum.elim
        (fun next => join next <$> collectFrom arm next.2.isSome bound) pure := by
  obtain ⟨cases, fallback⟩ := found
  rw [collectFrom, round]
  simp only [map_bind, bind_assoc]
  congr 1
  funext halted
  cases halted with
  | true => simp [join]
  | false =>
      simp only [Bool.false_eq_true, if_false, map_bind, bind_assoc]
      congr 1
      funext next
      cases next with
      | none => simp
      | some found =>
          cases found with
          | test content => simp [join_eq]
          | otherwise body keyword =>
              cases fallback with
              | none => simp [join_eq]
              | some earlier => simp

/-- A round over arms reads a token, unless it is the last one. -/
theorem advances_round {arm : Read (Option MatchArm)} [harm : Progress arm]
    (hfatal : FailsFatally arm) : Advances (round arm) := by
  constructor
  · rintro ⟨cases, fallback⟩ next reading later hround
    obtain ⟨halted, hlook, hend⟩ := halts_atClose "\x7d" reading
    rw [round, bind_of_ok hlook] at hround
    cases halted with
    | true => cases hround
    | false =>
        have hahead : reading.ahead ≠ [] := fun hnone => Bool.noConfusion (hend hnone)
        obtain ⟨value, middle, hrun, hlast⟩ := bind_ok_iff.1 hround
        have hreaches := (harm.moves.of_ok hrun).2
        have hlt := harm.lt hahead hrun
        -- What is done with an arm keeps the place.
        have hplace : middle.Reaches later ∧ later.ahead = middle.ahead := by
          cases value with
          | none =>
              cases hlast
              exact ⟨.refl _, rfl⟩
          | some found =>
              cases found with
              | test content =>
                  cases hlast
                  exact ⟨.refl _, rfl⟩
              | otherwise body keyword =>
                  cases fallback with
                  | none =>
                      cases hlast
                      exact ⟨.refl _, rfl⟩
                  | some earlier =>
                      cases hlast
                      exact ⟨middle.reaches_record _, rfl⟩
        exact ⟨hreaches.trans hplace.1, by rwa [hplace.2]⟩
  · rintro ⟨cases, fallback⟩ reading later error hround
    obtain ⟨halted, hlook, -⟩ := halts_atClose "\x7d" reading
    rw [round, bind_of_ok hlook] at hround
    cases halted with
    | true => cases hround
    | false =>
        rcases bind_error_cases hround with hrun | ⟨value, middle, -, hlast⟩
        · exact hfatal hrun
        · cases value with
          | none => cases hlast
          | some found =>
              cases found with
              | test content => cases hlast
              | otherwise body keyword => cases fallback <;> cases hlast

/-- The loop over arms that are recovered from is a loop without a bound. -/
theorem loops_collectFrom {arm : Read (Option MatchArm)} [Progress arm]
    (hfatal : FailsFatally arm) (reading : Reading) :
    Loops (round arm) ([], none) reading (bounded (collectFrom arm false) reading) := by
  have hloop := (advances_round hfatal).loops
    (fun found bound => join found <$> collectFrom arm found.2.isSome bound)
    (collectFrom_unrolls arm) (Nat.lt_succ_self reading.ahead.length) ([], none)
  have hjoin : join ([], none) = id := by
    funext ⟨cases, fallback⟩
    rfl
  simpa [hjoin, bounded] using hloop

end MatchArm

namespace Program

open Read (Loops collectRound)

/-- The loop over the statements of a program comes to an end without a bound. -/
theorem loops_readStatements (context : Context) (levels : Nat) (reading : Reading) :
    Loops (collectRound (Bool.not <$> Read.hasTokens) (Stmt.readRecovering levels context)) []
      reading (readStatements context levels reading) :=
  Read.loops_collect Read.halts_not_hasTokens (Read.failsFatally_recovering context _) reading

/-- A program that is read has been read up to the end mark. -/
theorem ahead_eq_nil_of_readStatements {context : Context} {levels : Nat}
    {reading later : Reading} {stmts : List Stmt}
    (h : readStatements context levels reading = .ok stmts later) : later.ahead = [] := by
  obtain ⟨found, place, hround⟩ := (loops_readStatements context levels reading).last_round h
  obtain ⟨halted, middle, hlook, hrest⟩ := Read.bind_ok_iff.1 hround
  obtain ⟨rfl, rfl⟩ := Read.not_hasTokens_ok_iff.1 hlook
  cases hempty : middle.ahead.isEmpty with
  | true =>
      rw [hempty] at hrest
      cases hrest
      exact List.isEmpty_iff.1 hempty
  | false =>
      rw [hempty] at hrest
      obtain ⟨next, last, -, hlast⟩ := Read.bind_ok_iff.1 hrest
      cases hlast

end Program

end ScriptLint
