import ScriptLint.Proofs.Nesting.Supply

/-!
# Readings move forward

`reading.Reaches later` says that `later` is further on among the same tokens, with the same mark
and the same errors, or more of them. No step ever moves in another way, whether it fails or not.
Where a token is ahead, a statement or an expression that is read has read a token, and so has a
step that is recovered from: its error does not stop the loop around it.
-/

namespace ScriptLint

namespace Reading

/-- The later reading is further on, or at the same place. -/
structure Reaches (reading later : Reading) : Prop where
  tokens : ∃ passed, reading.ahead = passed ++ later.ahead ∧
    later.behind = passed.reverse ++ reading.behind
  mark : later.mark = reading.mark
  errors : ∃ reports, later.errors = reading.errors ++ reports

variable {reading middle later : Reading}

/-- A reading is as far on as itself. -/
theorem Reaches.refl (reading : Reading) : reading.Reaches reading :=
  ⟨⟨[], rfl, rfl⟩, rfl, #[], by simp⟩

/-- One way behind another. -/
theorem Reaches.trans (hfirst : reading.Reaches middle) (hsecond : middle.Reaches later) :
    reading.Reaches later := by
  obtain ⟨⟨passed, hahead, hbehind⟩, hmark, reports, herrors⟩ := hfirst
  obtain ⟨⟨more, hahead', hbehind'⟩, hmark', others, herrors'⟩ := hsecond
  refine ⟨⟨passed ++ more, ?_, ?_⟩, hmark'.trans hmark, reports ++ others, ?_⟩
  · rw [hahead, hahead', List.append_assoc]
  · rw [hbehind', hbehind, List.reverse_append, List.append_assoc]
  · rw [herrors', herrors, Array.append_assoc]

/-- There are never more tokens ahead later on. -/
theorem Reaches.length_le (h : reading.Reaches later) :
    later.ahead.length ≤ reading.ahead.length := by
  obtain ⟨passed, hahead, _⟩ := h.tokens
  simp [hahead]

/-- A reading that is further on has more tokens behind it. -/
theorem Reaches.position_add (h : reading.Reaches later) :
    later.position + later.ahead.length = reading.position + reading.ahead.length := by
  obtain ⟨passed, hahead, hbehind⟩ := h.tokens
  simp only [position, hahead, hbehind, List.length_append, List.length_reverse]
  omega

/-- The mark stays where it is. -/
theorem Reaches.marked (h : reading.Reaches later) (hmark : reading.Marked) : later.Marked := by
  unfold Marked
  rw [h.mark]
  exact hmark

/-- Taking a token moves forward. -/
theorem reaches_next (reading : Reading) : reading.Reaches reading.next := by
  unfold next
  split
  · exact Reaches.refl reading
  next token rest hahead => exact ⟨⟨[token], by simp [hahead], rfl⟩, rfl, #[], by simp⟩

/-- Taking a token leaves one less ahead, if there is one. -/
theorem length_next_lt (h : reading.ahead ≠ []) :
    reading.next.ahead.length < reading.ahead.length := by
  cases hahead : reading.ahead with
  | nil => exact absurd hahead h
  | cons token rest => simp [next, hahead]

/-- Skipping to a place where statements start again moves forward. -/
theorem reaches_skipAhead (context : Context) (reading : Reading) :
    reading.Reaches (reading.skipAhead context) := by
  -- What is skipped goes from one list to the other, token by token.
  have hskip : ∀ ahead behind : List Token, ∃ passed,
      ahead = passed ++ (skipOver context behind ahead).2 ∧
        (skipOver context behind ahead).1 = passed.reverse ++ behind := by
    intro ahead
    induction ahead with
    | nil => exact fun behind => ⟨[], rfl, rfl⟩
    | cons token rest ih =>
        intro behind
        rw [skipOver]
        split
        · exact ⟨[token], rfl, rfl⟩
        split
        · exact ⟨[], rfl, rfl⟩
        · obtain ⟨passed, hahead, hbehind⟩ := ih (token :: behind)
          exact ⟨token :: passed, by rw [List.cons_append, ← hahead], by simp [hbehind]⟩
  exact ⟨hskip reading.ahead reading.behind, rfl, #[], by simp [skipAhead]⟩

/-- At the end there is nothing to skip. -/
theorem skipAhead_of_nil (context : Context) (h : reading.ahead = []) :
    reading.skipAhead context = reading := by
  cases reading
  cases h
  rfl

/-- One round of skipping. -/
theorem skipAhead_of_cons (context : Context) {token : Token} {tokens : List Token}
    (h : reading.ahead = token :: tokens) :
    reading.skipAhead context =
      if token.is ";" then reading.next
      else if context.isRestart token then reading
      else reading.next.skipAhead context := by
  cases reading
  cases h
  simp only [skipAhead, skipOver, next]
  split
  · rfl
  split
  · rfl
  · rfl

/-- Recovering from an error moves forward. -/
theorem reaches_resync (context : Context) (start : Nat) (reading : Reading) :
    reading.Reaches (reading.resync context start) := by
  unfold resync
  split
  · split
    · exact reading.reaches_next
    · exact reading.reaches_next.trans (reaches_skipAhead context _)
  · exact reaches_skipAhead context reading

/-- The way back after an error skips a token, if none has been read. -/
theorem length_resync_lt (context : Context) (reading : Reading) (h : reading.ahead ≠ []) :
    (reading.resync context reading.position).ahead.length < reading.ahead.length := by
  have hnext := length_next_lt h
  unfold resync
  rw [if_pos rfl]
  split
  · exact hnext
  · exact Nat.lt_of_le_of_lt (reaches_skipAhead context _).length_le hnext

/-- Recording an error keeps the place. -/
theorem reaches_record (reading : Reading) (error : ParseError) :
    reading.Reaches { reading with errors := reading.errors.push error } :=
  ⟨⟨[], rfl, rfl⟩, rfl, #[error], by simp⟩

end Reading

namespace Read

variable {α β : Type} {P : α → Prop} {Q : β → Prop} {step : Read α} {reading later : Reading}
  {value : α} {error : Error}

/-- Wherever it is run, the step moves forward, whether it fails or not, and what it gives has the
property. -/
def Moves (P : α → Prop) (step : Read α) : Prop :=
  ∀ reading, match step reading with
    | .ok value later => P value ∧ reading.Reaches later
    | .error _ later => reading.Reaches later

/-- The step moves forward, and reads a token if one is ahead, unless it fails. -/
structure Progresses (P : α → Prop) (step : Read α) : Prop where
  moves : Moves P step
  lt : ∀ {reading later : Reading} {value : α}, reading.ahead ≠ [] →
    step reading = .ok value later → later.ahead.length < reading.ahead.length

/-- A step that succeeds has moved forward. -/
theorem Moves.of_ok (h : Moves P step) (hrun : step reading = .ok value later) :
    P value ∧ reading.Reaches later := by
  have hmoves := h reading
  rwa [hrun] at hmoves

/-- A step that fails has moved forward as well. -/
theorem Moves.of_error (h : Moves P step) (hrun : step reading = .error error later) :
    reading.Reaches later := by
  have hmoves := h reading
  rwa [hrun] at hmoves

/-- Steps that move forward, one behind the other. -/
theorem Moves.bind {rest : α → Read β} (h : Moves P step)
    (hrest : ∀ value, P value → Moves Q (rest value)) : Moves Q (step >>= rest) := by
  intro reading
  rw [bind_apply]
  cases hrun : step reading with
  | error error later => exact h.of_error hrun
  | ok value later =>
      obtain ⟨hvalue, hreaches⟩ := h.of_ok hrun
      dsimp only
      cases hnext : rest value later with
      | ok result last =>
          obtain ⟨hresult, hlast⟩ := (hrest value hvalue).of_ok hnext
          exact ⟨hresult, hreaches.trans hlast⟩
      | error error last => exact hreaches.trans ((hrest value hvalue).of_error hnext)

/-- Making an error fatal does not change how a step moves. -/
theorem Moves.fatally (h : Moves P step) : Moves P (Read.fatally step) := by
  intro reading
  unfold Read.fatally
  cases hrun : step reading with
  | ok value later => exact h.of_ok hrun
  | error error later => exact h.of_error hrun

/-- Nothing is done about a step that succeeds. -/
theorem recovering_of_ok (context : Context) {reading later : Reading} {value : α}
    (h : step reading = .ok value later) :
    recovering context step reading = .ok (some value) later := by
  rw [recovering_apply, h]

/-- An error that is not fatal is recorded, and tokens are skipped up to a place to start again. -/
theorem recovering_of_error (context : Context) {reading later : Reading} {error : Error}
    (h : step reading = .error error later) (hfatal : error.fatal = false) :
    recovering context step reading = .ok none (Reading.resync context reading.position
      { later with errors := later.errors.push (.ofError error) }) := by
  simp [recovering_apply, h, hfatal]

/-- A fatal error is not recovered from. -/
theorem recovering_of_fatal (context : Context) {reading later : Reading} {error : Error}
    (h : step reading = .error error later) (hfatal : error.fatal = true) :
    recovering context step reading = .error error later := by
  simp [recovering_apply, h, hfatal]

/-- What a step that is recovered from has done if the reading goes on. -/
theorem recovering_ok_cases {context : Context} {reading last : Reading} {found : Option α}
    (h : recovering context step reading = .ok found last) :
    (∃ value, found = some value ∧ step reading = .ok value last) ∨
      ∃ error later, found = none ∧ step reading = .error error later ∧ error.fatal = false ∧
        last = Reading.resync context reading.position
          { later with errors := later.errors.push (.ofError error) } := by
  cases hstep : step reading with
  | ok value later =>
      rw [recovering_of_ok context hstep] at h
      cases h
      exact .inl ⟨value, rfl, rfl⟩
  | error error later =>
      cases hfatal : error.fatal with
      | true =>
          rw [recovering_of_fatal context hstep hfatal] at h
          cases h
      | false =>
          rw [recovering_of_error context hstep hfatal] at h
          cases h
          exact .inr ⟨error, later, rfl, rfl, hfatal, rfl⟩

/-- Only fatal errors are not recovered from. -/
theorem recovering_error_cases {context : Context} {reading last : Reading} {error : Error}
    (h : recovering context step reading = .error error last) :
    step reading = .error error last ∧ error.fatal = true := by
  cases hstep : step reading with
  | ok value later =>
      rw [recovering_of_ok context hstep] at h
      cases h
  | error failure later =>
      cases hfatal : failure.fatal with
      | true =>
          rw [recovering_of_fatal context hstep hfatal] at h
          cases h
          exact ⟨rfl, hfatal⟩
      | false =>
          rw [recovering_of_error context hstep hfatal] at h
          cases h

/-- Recovering from a step that moves forward moves forward. -/
theorem Moves.recovering (context : Context) (h : Moves P step) :
    Moves (∀ value ∈ ·, P value) (Read.recovering context step) := by
  intro reading
  rw [recovering_apply]
  cases hrun : step reading with
  | ok value later =>
      obtain ⟨hvalue, hreaches⟩ := h.of_ok hrun
      exact ⟨by simpa using hvalue, hreaches⟩
  | error error later =>
      have hreaches := h.of_error hrun
      cases hfatal : error.fatal with
      | true => simpa [hfatal] using hreaches
      | false =>
          have hskipped := Reading.reaches_resync context reading.position
            { later with errors := later.errors.push (.ofError error) }
          simpa [hfatal] using (hreaches.trans (later.reaches_record _)).trans hskipped

/-- A token is read if the first step reads one. -/
theorem Progresses.bind {rest : α → Read β} (h : Progresses P step)
    (hrest : ∀ value, P value → Moves Q (rest value)) : Progresses Q (step >>= rest) := by
  refine ⟨h.moves.bind hrest, ?_⟩
  intro reading last result hahead hrun
  rw [bind_apply] at hrun
  cases hstep : step reading with
  | error error later => simp [hstep] at hrun
  | ok value later =>
      rw [hstep] at hrun
      have hlast := ((hrest value (h.moves.of_ok hstep).1).of_ok hrun).2
      exact Nat.lt_of_le_of_lt hlast.length_le (h.lt hahead hstep)

/-- Making an error fatal does not change what a step reads. -/
theorem Progresses.fatally (h : Progresses P step) : Progresses P (Read.fatally step) := by
  refine ⟨h.moves.fatally, ?_⟩
  intro reading later value hahead hrun
  unfold Read.fatally at hrun
  cases hstep : step reading with
  | ok given after =>
      rw [hstep] at hrun
      cases hrun
      exact h.lt hahead hstep
  | error error after => simp [hstep] at hrun

/-- A step that is recovered from reads a token, whether it fails or not, unless its error is
fatal. -/
theorem Progresses.recovering (context : Context) (h : Progresses P step) :
    Progresses (∀ value ∈ ·, P value) (Read.recovering context step) := by
  refine ⟨h.moves.recovering context, ?_⟩
  intro reading last found hahead hrun
  rcases recovering_ok_cases hrun with ⟨value, -, hstep⟩ | ⟨error, later, -, hstep, -, rfl⟩
  · exact h.lt hahead hstep
  · have hreaches := h.moves.of_error hstep
    have hplaces := hreaches.position_add
    have hle := hreaches.length_le
    have hskip := (Reading.reaches_resync context reading.position
      { later with errors := later.errors.push (.ofError error) }).length_le
    by_cases hplace : later.position = reading.position
    · -- Nothing was read, so the way back skips the first token.
      have hne : later.ahead ≠ [] := by
        rw [← List.length_pos_iff] at hahead ⊢
        omega
      have hlt := Reading.length_resync_lt context
        { later with errors := later.errors.push (.ofError error) } hne
      rw [← hplace]
      exact Nat.lt_of_lt_of_le hlt hle
    · dsimp only at hskip
      omega

end Read

/-- The logic of moving forward. -/
def StepLogic.forward : StepLogic where
  Always P step _ := Read.Moves P step
  Ahead P step _ := Read.Progresses P step
  give hvalue := fun reading => ⟨hvalue, .refl reading⟩
  andThen := Read.Moves.bind
  look _ := fun reading => ⟨trivial, .refl reading⟩
  advance := fun reading => ⟨trivial, reading.reaches_next⟩
  fail _ := fun reading => .refl reading
  record error := fun reading => ⟨trivial, reading.reaches_record error⟩
  fatally := Read.Moves.fatally
  recovering := Read.Moves.recovering
  bounded h := fun reading => h (reading.ahead.length + 1) reading
  aheadLook view h :=
    ⟨fun reading => (h (view reading)).moves reading, fun hahead hrun => (h _).lt hahead hrun⟩
  aheadAdvance := by
    refine ⟨fun reading => ⟨trivial, reading.reaches_next⟩, fun hahead hrun => ?_⟩
    cases hrun
    exact Reading.length_next_lt hahead
  aheadFail _ := ⟨fun reading => .refl reading, fun _ hrun => by cases hrun⟩
  aheadFatally := Read.Progresses.fatally
  aheadAndThen := Read.Progresses.bind

/-! ## Readers -/

mutual

/-- Reading an expression moves forward. -/
theorem Expr.read_progresses (context : Context) (levels : Nat) (power : Power) :
    Read.Progresses (fun _ => True) (Expr.read context levels power) := by
  let logic := StepLogic.forward
  cases levels with
  | zero =>
      rw [Expr.read]
      exact ⟨fun reading => .refl reading, fun _ hrun => by cases hrun⟩
  | succ levels =>
      show logic.Ahead _ (Expr.read context (levels + 1) power)
        (Expr.read context (levels + 1) power)
      rw [Expr.read]
      refine logic.aheadLook Reading.current fun token => ?_
      cases context.grammar.lead? token with
      | none => exact logic.ahead_unexpected
      | some form =>
          have hinner (power : Power) : logic.Always (fun _ => True)
              (Expr.read context levels power) (Expr.read context levels power) :=
            (Expr.read_progresses context levels power).moves
          refine logic.aheadAndThen (P := fun _ => True) (logic.read_lead context
            (fun _ _ => trivial) (fun _ _ => trivial) hinner form) fun left _ => ?_
          exact Expr.readChain_moves context levels power left

/-- Reading a chain of operators moves forward. -/
theorem Expr.readChain_moves (context : Context) (levels : Nat) (power : Power) (left : Expr) :
    Read.Moves (fun _ => True) (Expr.readChain context levels power left) := by
  let logic := StepLogic.forward
  show logic.Always _ (Expr.readChain context levels power left)
    (Expr.readChain context levels power left)
  rw [Expr.readChain.eq_def]
  refine logic.andThen logic.current fun token _ => ?_
  cases Expr.tighterTail? context power token with
  | none => exact logic.give trivial
  | some entry =>
      cases levels with
      | zero => exact fun reading => .refl reading
      | succ levels =>
          have hinner (power : Power) : logic.Always (fun _ => True)
              (Expr.read context levels power) (Expr.read context levels power) :=
            (Expr.read_progresses context levels power).moves
          have htail : Read.Progresses (fun _ => True)
              (Expr.readTail (Expr.read context levels) left entry.1 entry.2) :=
            logic.read_tail (fun _ _ => trivial) hinner entry.1 entry.2
          refine htail.moves.bind fun joined _ => ?_
          exact Expr.readChain_moves context levels power joined

end

mutual

/-- Reading a statement moves forward. -/
theorem Stmt.read_progresses (levels : Nat) (context : Context) :
    Read.Progresses (fun _ => True) (Stmt.read levels context) := by
  let logic := StepLogic.forward
  cases levels with
  | zero =>
      rw [Stmt.read]
      exact ⟨fun reading => .refl reading, fun _ hrun => by cases hrun⟩
  | succ levels =>
      have hexpr := Expr.read_progresses context levels .default
      show logic.Ahead _ (Stmt.read (levels + 1) context) (Stmt.read (levels + 1) context)
      rw [Stmt.read]
      refine logic.aheadLook Reading.current fun token => ?_
      cases context.grammar.statement? token with
      | none => exact logic.read_expression (Stmt.closed_true _) hexpr
      | some form =>
          refine logic.read_form (Stmt.closed_true fun _ => True) context ?_ ?_ ?_ form
          · exact hexpr.moves
          · intro inMatch
            exact (Stmt.read_progresses levels { context with inMatch := inMatch }).moves
          · exact (Stmt.readElseIf_progresses levels context).moves

/-- Reading a conditional behind `else` moves forward. -/
theorem Stmt.readElseIf_progresses (levels : Nat) (context : Context) :
    Read.Progresses (fun _ => True) (Stmt.readElseIf levels context) := by
  let logic := StepLogic.forward
  cases levels with
  | zero =>
      rw [Stmt.readElseIf]
      exact ⟨fun reading => .refl reading, fun _ hrun => by cases hrun⟩
  | succ levels =>
      show logic.Ahead _ (Stmt.readElseIf (levels + 1) context)
        (Stmt.readElseIf (levels + 1) context)
      rw [Stmt.readElseIf]
      refine logic.read_if_else (Stmt.closed_true fun _ => True) ?_ ?_ ?_
      · exact (Expr.read_progresses context levels .default).moves
      · exact (Stmt.read_progresses levels context).moves.recovering context
      · exact (Stmt.readElseIf_progresses levels context).moves

end

/-! ## Steps in general -/

namespace Read

variable {α β : Type} {step other : Read α}

/-- The step moves forward. For a step that is put together from others this is found by instance
search. -/
class Forward (step : Read α) : Prop where
  moves : Moves (fun _ => True) step

/-- A step of the logic moves forward, whatever it gives. -/
theorem Forward.of_always {P : α → Prop} (h : StepLogic.forward.Always P step step) :
    Forward step := by
  refine ⟨fun reading => ?_⟩
  have hmoves : Moves P step := h
  cases hrun : step reading with
  | ok value later => exact ⟨trivial, (hmoves.of_ok hrun).2⟩
  | error error later => exact hmoves.of_error hrun

/-- A step that moves forward is one of the logic. -/
theorem Forward.always {P : α → Prop} (h : Forward step) (hvalue : ∀ value, P value) :
    StepLogic.forward.Always P step step :=
  StepLogic.forward.weaken (P := fun _ => True) h.moves fun value _ => hvalue value

instance (value : α) : Forward (pure value : Read α) :=
  .of_always (P := fun _ => True) (StepLogic.forward.give trivial)

instance {rest : α → Read β} [hstep : Forward step] [hrest : ∀ value, Forward (rest value)] :
    Forward (step >>= rest) :=
  ⟨hstep.moves.bind fun value _ => (hrest value).moves⟩

instance {f : α → β} [hstep : Forward step] : Forward (f <$> step) := by
  rw [map_eq_bind]
  infer_instance

instance {p : Prop} [Decidable p] [hstep : Forward step] [hother : Forward other] :
    Forward (if p then step else other) := by
  split
  · exact hstep
  · exact hother

instance : Forward current :=
  .of_always StepLogic.forward.current

instance : Forward hasTokens :=
  .of_always (StepLogic.forward.look fun reading => !reading.ahead.isEmpty)

instance (text : String) : Forward (sees text) :=
  .of_always (StepLogic.forward.sees text)

instance (close : String) : Forward (atClose close) :=
  .of_always (StepLogic.forward.at_close close)

instance (start : Nat) : Forward (spanFrom start) :=
  .of_always (StepLogic.forward.span_from start)

instance (cause : Token → Cause) : Forward (failWith cause : Read α) :=
  ⟨fun reading => .refl reading⟩

instance : Forward (unexpected : Read α) :=
  inferInstanceAs (Forward (failWith _))

instance (detail : String) : Forward (unexpectedDetailed detail : Read α) :=
  inferInstanceAs (Forward (failWith _))

instance : Forward advance :=
  .of_always StepLogic.forward.advance

instance (text : String) : Forward (expect text) :=
  .of_always (StepLogic.forward.expect text)

instance (detail : String) : Forward (expectIdentifier detail) :=
  .of_always (StepLogic.forward.expect_identifier detail)

instance (text : String) : Forward (accept text) :=
  .of_always (StepLogic.forward.accept text)

instance (error : ParseError) : Forward (record error) :=
  .of_always (StepLogic.forward.record error)

instance [hstep : Forward step] : Forward (fatally step) :=
  ⟨hstep.moves.fatally⟩

instance [hstep : Forward step] : Forward (id step) :=
  hstep

instance (context : Context) [hstep : Forward step] : Forward (recovering context step) :=
  .of_always (hstep.moves.recovering context)

instance {step : Nat → Read α} [hstep : ∀ bound, Forward (step bound)] : Forward (bounded step) :=
  ⟨fun reading => (hstep (reading.ahead.length + 1)).moves reading⟩

instance {stop : Read Bool} {item : Read (Option α)} [hstop : Forward stop]
    [hitem : Forward item] : Forward (collect stop item) :=
  .of_always (StepLogic.forward.collect (P := fun _ => True) hstop.moves
    (hitem.always fun _ _ _ => trivial))

instance {stop : Read Bool} {item : Read α} [hstop : Forward stop] [hitem : Forward item] :
    Forward (separated stop item) :=
  .of_always (StepLogic.forward.separated (P := fun _ => True) hstop.moves
    (hitem.always fun _ => trivial))

instance (context : Context) (levels : Nat) (power : Power) :
    Forward (Expr.read context levels power) :=
  ⟨(Expr.read_progresses context levels power).moves⟩

instance (context : Context) (levels : Nat) (power : Power) (left : Expr) :
    Forward (Expr.readChain context levels power left) :=
  ⟨Expr.readChain_moves context levels power left⟩

instance (context : Context) : Forward (Expr.readPrimary context) :=
  .of_always (StepLogic.forward.read_primary (L := fun _ => True) context fun _ _ => trivial).moves

instance {inner : Power → Read Expr} [∀ power, Forward (inner power)] :
    Forward (Expr.readProperty inner) := by
  unfold Expr.readProperty
  infer_instance

instance (levels : Nat) (context : Context) : Forward (Stmt.read levels context) :=
  ⟨(Stmt.read_progresses levels context).moves⟩

instance (levels : Nat) (context : Context) : Forward (Stmt.readElseIf levels context) :=
  ⟨(Stmt.readElseIf_progresses levels context).moves⟩

instance : Forward Ty.read :=
  .of_always StepLogic.forward.read_type

instance : Forward VarDecl.readType := by
  unfold VarDecl.readType
  infer_instance

instance : Forward Stmt.readFunctionHeader :=
  .of_always StepLogic.forward.read_function_header

section Parts

variable {expr : Read Expr} {stmt : Read (Option Stmt)} {single elseIf : Read Stmt}
  [hexpr : Forward expr] [hstmt : Forward stmt] [hsingle : Forward single] [Forward elseIf]

instance (fatal : Bool) : Forward (Block.read fatal stmt) :=
  .of_always (StepLogic.forward.read_block (S := fun _ => True)
    (hstmt.always fun _ _ _ => trivial) fatal)

instance : Forward (Stmt.readBlock stmt) := by
  unfold Stmt.readBlock
  infer_instance

instance : Forward (VarDecl.readInitializer expr) := by
  unfold VarDecl.readInitializer
  infer_instance

instance : Forward (VarDecl.read expr) := by
  unfold VarDecl.read VarDecl.readKeyword
  infer_instance

instance : Forward (Stmt.readCondition expr) := by
  unfold Stmt.readCondition
  infer_instance

instance (close : String) : Forward (Stmt.readUnless close expr) := by
  unfold Stmt.readUnless
  infer_instance

instance : Forward (Stmt.readForInit expr) := by
  unfold Stmt.readForInit
  infer_instance

instance : Forward (Stmt.readForHeader expr) := by
  unfold Stmt.readForHeader
  infer_instance

instance : Forward (Stmt.readResult expr) := by
  unfold Stmt.readResult
  infer_instance

instance : Forward (Stmt.readAlternate stmt elseIf) := by
  unfold Stmt.readAlternate
  infer_instance

instance : Forward (CatchClause.read stmt) := by
  unfold CatchClause.read
  infer_instance

instance : Forward (Stmt.readHandler stmt) := by
  unfold Stmt.readHandler
  infer_instance

instance : Forward (FinallyClause.read stmt) := by
  unfold FinallyClause.read
  infer_instance

instance : Forward (Stmt.readFinalizer stmt) := by
  unfold Stmt.readFinalizer
  infer_instance

instance : Forward (MatchArm.readBody single stmt) := by
  unfold MatchArm.readBody
  infer_instance

instance : Forward (MatchArm.read expr single stmt) :=
  .of_always (StepLogic.forward.read_arm (Stmt.closed_true fun _ => True)
    (hexpr.always fun _ => trivial) (hsingle.always fun _ => trivial)
    (hstmt.always fun _ _ _ => trivial))

end Parts

end Read

end ScriptLint
