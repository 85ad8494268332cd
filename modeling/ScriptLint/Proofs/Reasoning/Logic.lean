import ScriptLint.Grammar.Context

/-!
# Logics of reading steps

Most properties of the reader hold because the primitive steps have them and the combinators keep
them. A `StepLogic` is such a property, stated of two steps at a time, so that it may also compare
two readers: `Always P first second` relates steps that give values with `P`, wherever they are run,
and `Ahead P first second` relates them where a token is ahead. Each combinator and each form of the
grammar then needs one lemma for all properties.

The expression and statement forms are in `Proofs.Reasoning.Forms`.
-/

namespace ScriptLint

namespace Read

/-- The step that only looks at the reading. -/
def look {α : Type} (view : Reading → α) : Read α :=
  fun reading => .ok (view reading) reading

/-- The step that fails with an error that depends on the reading. -/
def fail {α : Type} (error : Reading → Error) : Read α :=
  fun reading => .error (error reading) reading

variable {α β : Type}

/-- A step in front of another hands its value and its reading on, or else its error. -/
theorem bind_apply (first : Read α) (rest : α → Read β) (reading : Reading) :
    (first >>= rest) reading =
      match first reading with
      | .ok value later => rest value later
      | .error error later => .error error later := by
  show EStateM.bind first rest reading = _
  unfold EStateM.bind
  cases first reading <;> rfl

/-- Changing the value of a step is a second step that gives it. -/
theorem map_eq_bind (f : α → β) (step : Read α) : f <$> step = step >>= fun v => pure (f v) :=
  map_eq_pure_bind f step

/-- Asking for a text is a look, and then a token that is taken or an error. -/
theorem expect_eq (text : String) :
    expect text = look (·.current.is text) >>= fun seen =>
      if seen then advance
      else fail fun reading =>
        .ofCause (.expectedToken text reading.current.display) reading.current.span := rfl

/-- Accepting a text is a look, and then a token that is taken or left. -/
theorem accept_eq (text : String) :
    accept text = look (·.current.is text) >>= fun seen =>
      if seen then advance >>= fun _ => pure true else pure false := rfl

end Read

/-- A property of pairs of steps that the primitive steps have and the combinators keep. -/
structure StepLogic where
  /-- The steps are related wherever they are run, and what they give has the property. -/
  Always : {α : Type} → (α → Prop) → Read α → Read α → Prop
  /-- The steps are related where a token is ahead. -/
  Ahead : {α : Type} → (α → Prop) → Read α → Read α → Prop
  give : ∀ {α : Type} {P : α → Prop} {value : α}, P value → Always P (pure value) (pure value)
  andThen : ∀ {α β : Type} {P : α → Prop} {Q : β → Prop} {first second : Read α}
    {rest others : α → Read β}, Always P first second →
    (∀ value, P value → Always Q (rest value) (others value)) →
    Always Q (first >>= rest) (second >>= others)
  look : ∀ {α : Type} (view : Reading → α),
    Always (fun _ => True) (Read.look view) (Read.look view)
  advance : Always (fun _ => True) Read.advance Read.advance
  fail : ∀ {α : Type} {P : α → Prop} {error : Reading → Error},
    (∀ reading limit, (error reading).cause ≠ .recursionLimit limit) →
    Always P (Read.fail error) (Read.fail error)
  record : ∀ error, Always (fun _ => True) (Read.record error) (Read.record error)
  fatally : ∀ {α : Type} {P : α → Prop} {first second : Read α},
    Always P first second → Always P (Read.fatally first) (Read.fatally second)
  recovering : ∀ {α : Type} {P : α → Prop} {first second : Read α} (context : Context),
    Always P first second →
    Always (∀ value ∈ ·, P value) (Read.recovering context first) (Read.recovering context second)
  bounded : ∀ {α : Type} {P : α → Prop} {first second : Nat → Read α},
    (∀ bound, Always P (first bound) (second bound)) →
    Always P (Read.bounded first) (Read.bounded second)
  aheadLook : ∀ {α β : Type} {Q : β → Prop} {rest others : α → Read β} (view : Reading → α),
    (∀ value, Ahead Q (rest value) (others value)) →
    Ahead Q (Read.look view >>= rest) (Read.look view >>= others)
  aheadAdvance : Ahead (fun _ => True) Read.advance Read.advance
  aheadFail : ∀ {α : Type} {P : α → Prop} {error : Reading → Error},
    (∀ reading limit, (error reading).cause ≠ .recursionLimit limit) →
    Ahead P (Read.fail error) (Read.fail error)
  aheadFatally : ∀ {α : Type} {P : α → Prop} {first second : Read α},
    Ahead P first second → Ahead P (Read.fatally first) (Read.fatally second)
  /-- A step that reads the token ahead comes before steps that need none. -/
  aheadAndThen : ∀ {α β : Type} {P : α → Prop} {Q : β → Prop} {first second : Read α}
    {rest others : α → Read β}, Ahead P first second →
    (∀ value, P value → Always Q (rest value) (others value)) →
    Ahead Q (first >>= rest) (second >>= others)

namespace StepLogic

variable (logic : StepLogic) {α β : Type} {P : α → Prop} {Q : β → Prop}

/-- What a step gives may be weakened. -/
theorem weaken {R : α → Prop} {first second : Read α} (h : logic.Always P first second)
    (hweak : ∀ value, P value → R value) : logic.Always R first second := by
  rw [← bind_pure first, ← bind_pure second]
  exact logic.andThen h fun value hvalue => logic.give (hweak value hvalue)

/-- A value that is made from the one of a step. -/
theorem map {f : α → β} {first second : Read α} (h : logic.Always P first second)
    (hf : ∀ value, P value → Q (f value)) : logic.Always Q (f <$> first) (f <$> second) := by
  rw [Read.map_eq_bind, Read.map_eq_bind]
  exact logic.andThen h fun value hvalue => logic.give (hf value hvalue)

/-- The same where a token is ahead. -/
theorem ahead_map {f : α → β} {first second : Read α} (h : logic.Ahead P first second)
    (hf : ∀ value, P value → Q (f value)) : logic.Ahead Q (f <$> first) (f <$> second) := by
  rw [Read.map_eq_bind, Read.map_eq_bind]
  exact logic.aheadAndThen h fun value hvalue => logic.give (hf value hvalue)

/-- A look at the current token. -/
theorem current : logic.Always (fun _ => True) Read.current Read.current :=
  logic.look Reading.current

/-- A look for a text. -/
theorem sees (text : String) : logic.Always (fun _ => True) (Read.sees text) (Read.sees text) :=
  logic.look (·.current.is text)

/-- A look for a closing text or the end. -/
theorem at_close (close : String) :
    logic.Always (fun _ => True) (Read.atClose close) (Read.atClose close) :=
  logic.look fun reading => reading.current.is close || reading.ahead.isEmpty

/-- The span up to the token that was read last. -/
theorem span_from (start : Nat) :
    logic.Always (fun _ => True) (Read.spanFrom start) (Read.spanFrom start) :=
  logic.look (·.spanFrom start)

/-- A failure at the current token. -/
theorem unexpected : logic.Always P Read.unexpected Read.unexpected :=
  logic.fail fun _ _ => by simp [Error.ofCause]

/-- The same with a detail. -/
theorem unexpected_detailed (detail : String) :
    logic.Always P (Read.unexpectedDetailed detail) (Read.unexpectedDetailed detail) :=
  logic.fail fun _ _ => by simp [Error.ofCause]

theorem ahead_unexpected : logic.Ahead P Read.unexpected Read.unexpected :=
  logic.aheadFail fun _ _ => by simp [Error.ofCause]

/-- A text that must come now. -/
theorem expect (text : String) :
    logic.Always (fun _ => True) (Read.expect text) (Read.expect text) := by
  rw [Read.expect_eq]
  refine logic.andThen (logic.look _) fun seen _ => ?_
  split
  · exact logic.advance
  · exact logic.fail fun _ _ => by simp [Error.ofCause]

/-- A text that must come now, where a token is ahead: it is read, or there is an error. -/
theorem ahead_expect (text : String) :
    logic.Ahead (fun _ => True) (Read.expect text) (Read.expect text) := by
  rw [Read.expect_eq]
  refine logic.aheadLook _ fun seen => ?_
  split
  · exact logic.aheadAdvance
  · exact logic.aheadFail fun _ _ => by simp [Error.ofCause]

/-- A name that must come now. -/
theorem expect_identifier (detail : String) :
    logic.Always (fun _ => True) (Read.expectIdentifier detail) (Read.expectIdentifier detail) := by
  refine logic.andThen logic.current fun token _ => ?_
  split
  · exact logic.advance
  · exact logic.unexpected_detailed detail

/-- A text that may come now. -/
theorem accept (text : String) :
    logic.Always (fun _ => True) (Read.accept text) (Read.accept text) := by
  rw [Read.accept_eq]
  refine logic.andThen (logic.look _) fun seen _ => ?_
  split
  · exact logic.andThen logic.advance fun _ _ => logic.give trivial
  · exact logic.give trivial

/-- A list is read with the property that each of its items is read with. -/
theorem collect {stop : Read Bool} {first second : Read (Option α)}
    (hstop : logic.Always (fun _ => True) stop stop)
    (hitem : logic.Always (∀ value ∈ ·, P value) first second) :
    logic.Always (∀ value ∈ ·, P value) (Read.collect stop first) (Read.collect stop second) := by
  refine logic.bounded fun bound => ?_
  induction bound with
  | zero => exact logic.give (by simp)
  | succ bound ih =>
      refine logic.andThen hstop fun stopped _ => ?_
      split
      · exact logic.give (by simp)
      · refine logic.andThen hitem fun found hfound => ?_
        refine logic.andThen ih fun later hlater => logic.give ?_
        intro value hvalue
        rcases List.mem_append.1 hvalue with h | h
        · exact hfound value (Option.mem_toList.1 h)
        · exact hlater value h

/-- A list with commas is read with the property that each of its items is read with. -/
theorem separated {stop : Read Bool} {first second : Read α}
    (hstop : logic.Always (fun _ => True) stop stop) (hitem : logic.Always P first second) :
    logic.Always (∀ value ∈ ·, P value) (Read.separated stop first)
      (Read.separated stop second) := by
  refine logic.bounded fun bound => ?_
  induction bound with
  | zero => exact logic.give (by simp)
  | succ bound ih =>
      refine logic.andThen hstop fun stopped _ => ?_
      split
      · exact logic.give (by simp)
      · refine logic.andThen hitem fun found hfound => ?_
        refine logic.andThen (logic.accept ",") fun comma _ => ?_
        split
        · refine logic.andThen ih fun later hlater => logic.give ?_
          exact List.forall_mem_cons.2 ⟨hfound, hlater⟩
        · exact logic.give (by simpa using hfound)

end StepLogic

end ScriptLint
