import ScriptLint.Proofs.Nesting.Threshold
import ScriptLint.Proofs.Session.Operations
import ScriptLint.Proofs.Session.Rounds

/-!
# Sessions stay sound

An `Operation` is a step of the reader, or operations put together: one level deeper, inside a
`match`, or one behind the other. `Operation.runAll_sound` is the main result on them. No sequence
of operations goes back or beyond the end mark, changes the tokens, takes back an error or leaves
a counter changed. Recovery moves forward, so no loop of the reader needs its bound.
-/

namespace ScriptLint

/-- The steps of the reader. -/
inductive Action where
  | advance
  | expect (text : String)
  | expectIdentifier (detail : String)
  | record (error : ParseError)
  /-- Skips to the next statement, behind a statement that begins at the token numbered `start`. -/
  | skip (start : Nat)
  | type
  | expr (power : Power)
  | lead (form : LeadForm)
  | tail (left : Expr) (power : Power) (form : TailForm)
  | stmt
  | recovering
  | block (fatal : Bool)
  | statement (form : StmtForm)

namespace Action

/-- What an action does, given the levels that are left. -/
def step (levels : Nat) (context : Context) : Action → Read Unit
  | .advance => (fun _ => ()) <$> Read.advance
  | .expect text => (fun _ => ()) <$> Read.expect text
  | .expectIdentifier detail => (fun _ => ()) <$> Read.expectIdentifier detail
  | .record error => Read.record error
  | .skip start => Read.resync context start
  | .type => (fun _ => ()) <$> Ty.read
  | .expr power => (fun _ => ()) <$> Expr.read context levels power
  | .lead form => (fun _ => ()) <$> Expr.readLead context (Expr.read context levels) form
  | .tail left power form =>
      (fun _ => ()) <$> Expr.readTail (Expr.read context levels) left power form
  | .stmt => (fun _ => ()) <$> Stmt.read levels context
  | .recovering => (fun _ => ()) <$> Stmt.readRecovering levels context
  | .block fatal => (fun _ => ()) <$> Block.read fatal (Stmt.readRecovering levels context)
  | .statement form => (fun _ => ()) <$> Stmt.readForm context (Stmt.inner context levels) form

/-- Every action moves forward. -/
instance (levels : Nat) (context : Context) (action : Action) :
    Read.Forward (action.step levels context) := by
  let logic := StepLogic.forward
  have hexpr (power : Power) : logic.Always (fun _ => True) (Expr.read context levels power)
      (Expr.read context levels power) := (Expr.read_progresses context levels power).moves
  cases action with
  | lead form =>
      have hlead : Read.Forward (Expr.readLead context (Expr.read context levels) form) :=
        (Read.Progress.of_ahead (P := fun _ => True) (logic.read_lead context (fun _ _ => trivial)
          (fun _ _ => trivial) hexpr form)).toForward
      exact inferInstanceAs (Read.Forward (_ <$> _))
  | tail left power form =>
      have htail : Read.Forward (Expr.readTail (Expr.read context levels) left power form) :=
        (Read.Progress.of_ahead (P := fun _ => True) (logic.read_tail (fun _ _ => trivial) hexpr
          power form)).toForward
      exact inferInstanceAs (Read.Forward (_ <$> _))
  | statement form =>
      have hform : Read.Forward (Stmt.readForm context (Stmt.inner context levels) form) := by
        refine (Read.Progress.of_ahead (P := fun _ => True) (logic.read_form
          (Stmt.closed_true fun _ => True) context (hexpr .default) ?_ ?_ form)).toForward
        · exact fun inMatch => (Stmt.read_progresses levels _).moves
        · exact (Stmt.readElseIf_progresses levels context).moves
      exact inferInstanceAs (Read.Forward (_ <$> _))
  | skip start => exact ⟨fun reading => ⟨trivial, reading.reaches_resync context start⟩⟩
  | record error => exact inferInstanceAs (Read.Forward (Read.record error))
  | advance | expect | expectIdentifier | type | expr | stmt | recovering | block =>
      exact inferInstanceAs (Read.Forward (_ <$> _))

end Action

namespace Work

variable {α β : Type} {context : Context}

/-- Wherever it is run, the work keeps the tokens and the counters, whether it fails or not. -/
def Sound (work : Work α) : Prop :=
  ∀ session : Session, session.Keeps (work.after session)

/-- A step that moves forward is sound as a piece of work. -/
theorem sound_lift {step : Nat → Context → Read α}
    [hstep : ∀ levels context, Read.Forward (step levels context)] : Sound (lift context step) := by
  intro session
  unfold after lift
  cases hrun : step (context.limit - session.depth) (session.surroundings context)
      session.reading with
  | ok value later => exact ⟨((hstep _ _).moves.of_ok hrun).2, rfl, rfl⟩
  | error error later => exact ⟨(hstep _ _).moves.of_error hrun, rfl, rfl⟩

/-- What is done in front of work and behind it is done even if the work fails. -/
theorem after_around (enter leave : Session → Session) (work : Work α) (session : Session) :
    (around enter leave work).after session = leave (work.after (enter session)) := by
  unfold after around
  cases work (enter session) with
  | ok value later => rfl
  | error error later => rfl

/-- Sound work is sound one level deeper. -/
theorem Sound.nested {work : Work α} (h : Sound work) : Sound (Work.nested context work) := by
  intro session
  by_cases hlimit : context.limit ≤ session.depth
  · have hdeep (context : Context) : Read.Forward (Read.tooDeep context : Read α) :=
      ⟨fun reading => .refl reading⟩
    have hsame : (Work.nested context work).after session =
        (lift context fun _ => Read.tooDeep : Work α).after session := by
      unfold after Work.nested
      rw [if_pos hlimit]
    rw [hsame]
    exact sound_lift session
  · have hsame : (Work.nested context work).after session =
        (around (fun before => { before with depth := before.depth + 1 })
          (fun later => { later with depth := later.depth - 1 }) work).after session := by
      unfold after Work.nested
      rw [if_neg hlimit]
    rw [hsame, after_around]
    have hkeeps := h { session with depth := session.depth + 1 }
    refine ⟨hkeeps.reaches, ?_, hkeeps.matchDepth⟩
    show (work.after { session with depth := session.depth + 1 }).depth - 1 = session.depth
    rw [hkeeps.depth]
    rfl

/-- Sound work is sound inside a `match`. -/
theorem Sound.inMatch {work : Work α} (h : Sound work) : Sound (Work.inMatch work) := by
  intro session
  have hkeeps := h { session with matchDepth := session.matchDepth + 1 }
  unfold Work.inMatch
  rw [after_around]
  refine ⟨hkeeps.reaches, hkeeps.depth, ?_⟩
  show (work.after { session with matchDepth := session.matchDepth + 1 }).matchDepth - 1 =
    session.matchDepth
  rw [hkeeps.matchDepth]
  rfl

/-- Runs a piece of work whether or not the first one failed. -/
def regardless (first : Work α) (second : Work β) : Work β :=
  fun session => second (first.after session)

/-- One piece of work behind another, whether or not the first one fails. -/
theorem Sound.regardless {first : Work α} {second : Work β} (hfirst : Sound first)
    (hsecond : Sound second) : Sound (Work.regardless first second) :=
  fun session => (hfirst session).trans (hsecond (first.after session))

/-- One piece of work behind another that succeeds. -/
theorem Sound.bind {first : Work α} {rest : α → Work β} (hfirst : Sound first)
    (hrest : ∀ value, Sound (rest value)) : Sound (first >>= rest) := by
  intro session
  have hkeeps := hfirst session
  show session.Keeps (after (EStateM.bind first rest) session)
  unfold after at hkeeps
  unfold after EStateM.bind
  cases hrun : first session with
  | error error later => simpa [hrun] using hkeeps
  | ok value later =>
      rw [hrun] at hkeeps
      exact hkeeps.trans (hrest value later)

end Work

/-- Operations on a session. -/
inductive Operation where
  | perform (action : Action)
  /-- One level deeper. -/
  | nested (body : Operation)
  /-- As the arms of a `match` statement. -/
  | inMatch (body : Operation)
  /-- One behind the other, unless the first one fails. -/
  | andThen (first second : Operation)
  /-- One behind the other, whether or not the first one fails. -/
  | regardless (first second : Operation)

namespace Operation

/-- The work of an operation. -/
def run (context : Context) : Operation → Work Unit
  | .perform action => .lift context fun levels context => action.step levels context
  | .nested body => .nested context (body.run context)
  | .inMatch body => .inMatch (body.run context)
  | .andThen first second => first.run context >>= fun _ => second.run context
  | .regardless first second => .regardless (first.run context) (second.run context)

/-- The session behind a sequence of operations, whether or not some of them fail. -/
def runAll (context : Context) (operations : List Operation) (session : Session) : Session :=
  operations.foldl (fun reached operation => (operation.run context).after reached) session

/-- One operation is sound. -/
theorem run_sound (context : Context) (operation : Operation) :
    Work.Sound (operation.run context) := by
  induction operation with
  | perform action => exact Work.sound_lift
  | nested body ih => exact ih.nested
  | inMatch body ih => exact ih.inMatch
  | andThen first second hfirst hsecond => exact hfirst.bind fun _ => hsecond
  | regardless first second hfirst hsecond => exact hfirst.regardless hsecond

/-- So is a sequence of them. -/
theorem runAll_keeps (context : Context) (operations : List Operation) (session : Session) :
    session.Keeps (runAll context operations session) := by
  induction operations generalizing session with
  | nil => exact .refl session
  | cons operation rest ih => exact (run_sound context operation session).trans (ih _)

end Operation

namespace Session

variable {body : List Token} {mark : Token} {session later : Session}

/-- A session starts with all tokens. -/
theorem tokens_start (hbody : ∀ token ∈ body, token.kind ≠ .eof) (hmark : mark.kind = .eof) :
    (start (body ++ [mark])).tokens = body ++ [mark] := by
  unfold start
  rw [Reading.ofTokens_append hbody hmark]
  rfl

/-- The tokens around the cursor, and the mark behind them. -/
theorem split_of_tokens (h : session.tokens = body ++ [mark]) :
    session.reading.behind.reverse ++ session.reading.ahead = body ∧
      session.reading.mark = mark := by
  obtain ⟨hbody, hmark⟩ := List.append_inj' h rfl
  exact ⟨hbody, List.singleton_inj.1 hmark⟩

/-- A session does not go beyond the end mark. -/
theorem position_le_length (h : session.tokens = body ++ [mark]) :
    session.reading.position ≤ body.length := by
  rw [← (split_of_tokens h).1, List.length_append, List.length_reverse]
  exact Nat.le_add_right _ _

/-- In front of the end mark there is a token ahead. -/
theorem ahead_ne_nil (h : session.tokens = body ++ [mark]) (hmark : mark.kind = .eof)
    (hcurrent : session.reading.current.kind ≠ .eof) : session.reading.ahead ≠ [] := by
  intro hahead
  apply hcurrent
  rw [Reading.current, hahead]
  show session.reading.mark.kind = .eof
  rw [(split_of_tokens h).2, hmark]

/-- A session does not go back. -/
theorem Keeps.position_le (h : session.Keeps later) :
    session.reading.position ≤ later.reading.position := by
  have hsum := h.reaches.position_add
  have hle := h.reaches.length_le
  omega

end Session

namespace Operation

open Read (AdvancesAt Loops collectRound)

/-- For all tokens with one end mark behind them, and any grammar:

* a sequence of operations, whether they fail or not, never moves the cursor back or beyond the
  mark, keeps the tokens and both counters, and only adds errors behind those it finds, and the
  readers among the operations count like `nested` and `inMatch`;
* a statement that is recovered from moves the cursor forward, or its error is fatal, where a token
  is ahead;
* the loops over the statements of a block and over the arms of a `match` come to an end without a
  bound, and move the cursor forward in each round but the last, and so does the loop over the
  statements of a program, which ends at the mark if it does not fail. -/
theorem runAll_sound (context : Context) {body : List Token} {mark : Token}
    (hbody : ∀ token ∈ body, token.kind ≠ .eof) (hmark : mark.kind = .eof) :
    ((Session.start (body ++ [mark])).tokens = body ++ [mark] ∧
      (∀ (operations : List Operation) (session : Session), session.tokens = body ++ [mark] →
        let later := runAll context operations session
        later.tokens = body ++ [mark] ∧
          session.reading.position ≤ later.reading.position ∧
          later.reading.position ≤ body.length ∧
          (∃ reports : Array ParseError,
            later.reading.errors = session.reading.errors ++ reports) ∧
          later.depth = session.depth ∧ later.matchDepth = session.matchDepth) ∧
      Work.Counted context) ∧
    (∀ (levels : Nat) (session : Session), session.tokens = body ++ [mark] →
      session.reading.current.kind ≠ .eof →
      AdvancesAt (Stmt.readRecovering levels context) session.reading) ∧
    (∀ (levels : Nat) (reading : Reading),
      Loops (collectRound (Read.atClose "\x7d") (Stmt.readRecovering levels context)) [] reading
          (Read.collect (Read.atClose "\x7d") (Stmt.readRecovering levels context) reading) ∧
        Loops (MatchArm.round ((Stmt.inner context levels).arm context)) ([], none) reading
          (Stmt.readArms levels context reading)) ∧
    ∀ (settings : Settings) (source : String) (tokens : List Token),
      Token.tokenize settings source = .ok tokens →
      let surroundings := Context.ofSettings settings source.toList
      let outcome := Program.readStatements surroundings settings.maxDepth (.ofTokens tokens)
      Program.parse settings source = Program.outcome source.toList outcome ∧
        Loops (collectRound (Bool.not <$> Read.hasTokens)
          (Stmt.readRecovering settings.maxDepth surroundings)) [] (.ofTokens tokens) outcome ∧
        ∀ (stmts : List Stmt) (later : Reading), outcome = .ok stmts later →
          later.current.kind = .eof ∧ later.position + 1 = tokens.length := by
  refine ⟨⟨Session.tokens_start hbody hmark, ?_, Work.counted context⟩, ?_, ?_, ?_⟩
  · intro operations session htokens later
    have hkeeps : session.Keeps later := runAll_keeps context operations session
    have hsame : later.tokens = body ++ [mark] := hkeeps.tokens.trans htokens
    exact ⟨hsame, hkeeps.position_le, Session.position_le_length hsame, hkeeps.reaches.errors,
      hkeeps.depth, hkeeps.matchDepth⟩
  · intro levels session htokens hcurrent
    have hahead := Session.ahead_ne_nil htokens hmark hcurrent
    exact Read.Progress.advancesAt (Read.failsFatally_recovering context _) hahead
  · intro levels reading
    constructor
    · exact Read.loops_collect (Read.halts_atClose "\x7d")
        (Read.failsFatally_recovering context _) reading
    · have hstmt : Read.Progress ((Stmt.inner context levels).stmt context) :=
        inferInstanceAs (Read.Progress (Stmt.read levels context))
      have hexpr : Read.Forward (Stmt.inner context levels).expr :=
        inferInstanceAs (Read.Forward (Expr.read context levels .default))
      exact MatchArm.loops_collectFrom (Read.failsFatally_recovering context _) reading
  · intro settings source tokens htokens surroundings outcome
    refine ⟨Program.parse_eq_outcome htokens settings.maxDepth,
      Program.loops_readStatements surroundings settings.maxDepth _, ?_⟩
    intro stmts later houtcome
    obtain ⟨others, stop, rfl, -, hreading⟩ := Reading.ofTokens_tokenize htokens
    have hend := Program.ahead_eq_nil_of_readStatements houtcome
    have hforward : Read.Forward (Program.readStatements surroundings settings.maxDepth) :=
      inferInstanceAs (Read.Forward (Read.collect _ _))
    have hreaches := (hforward.moves.of_ok houtcome).2
    have hsum := hreaches.position_add
    rw [hreading] at hreaches hsum
    constructor
    · rw [Reading.current, hend]
      show later.mark.kind = .eof
      rw [hreaches.mark]
      rfl
    · simp only [hend, Reading.position, List.length_nil] at hsum ⊢
      simp only [List.length_append, List.length_singleton]
      omega

/-- In front of `{x` a statement is read one level deeper and inside a `match`. It fails where the
statement in the block finds no level left, and the counters are as before. -/
theorem runAll_sound_open_block :
    let body : List Token := [⟨.symbol, "\x7b", ⟨0, 1⟩⟩, ⟨.identifier, "x", ⟨1, 2⟩⟩]
    let context : Context := ⟨.standard, "\x7bx".toList, 2, false⟩
    let operation : Operation := .nested (.inMatch (.andThen (.perform .stmt) (.perform .advance)))
    let before := Session.start (body ++ [Token.endMark 2])
    let later := runAll context [operation] before
    (∀ token ∈ body, token.kind ≠ .eof) ∧ (Token.endMark 2).kind = .eof ∧
      (∃ reached : Session, operation.run context before =
        .error (.ofCause (.recursionLimit 2) ⟨1, 2⟩) reached) ∧
      later.tokens = body ++ [Token.endMark 2] ∧ before.reading.position ≤ later.reading.position ∧
      later.reading.position ≤ 2 ∧ later.depth = 0 ∧ later.matchDepth = 0 := by
  intro body context operation before later
  have hbody : ∀ token ∈ body, token.kind ≠ .eof := by decide
  have hmark : (Token.endMark 2).kind = .eof := rfl
  obtain ⟨⟨hstart, hruns, -⟩, -⟩ := runAll_sound context hbody hmark
  obtain ⟨htokens, hposition, hbound, -, hdepth, hmatch⟩ := hruns [operation] before hstart
  exact ⟨hbody, hmark, ⟨_, rfl⟩, htokens, hposition, hbound, hdepth, hmatch⟩

end Operation

end ScriptLint
