import ScriptLint.Proofs.Reasoning.Loops

/-!
# Sessions of operations

A `Session` is a reading together with two counters: the levels that are open, and the `match`
statements around. A piece of `Work` runs in a session. `Work.lift` runs a step of the reader with
the levels and the surroundings that the counters stand for; `Work.nested` and `Work.inMatch` count
up before a piece of work and down behind it, whether it fails or not.

`Work.Counted` says that the steps of the reader count in just this way: wherever one of them hands
another number of levels on, or enters the arms of a `match`, it is a piece of work that counts up
and down again.
-/

namespace ScriptLint

/-- A reader at work. -/
structure Session where
  reading : Reading
  /-- The number of levels that are open. -/
  depth : Nat
  /-- The number of `match` statements whose arms are being read. -/
  matchDepth : Nat

namespace Session

/-- A session at the start of a list of tokens. -/
def start (tokens : List Token) : Session :=
  ⟨.ofTokens tokens, 0, 0⟩

/-- All tokens of a session, the mark included. -/
def tokens (session : Session) : List Token :=
  session.reading.behind.reverse ++ session.reading.ahead ++ [session.reading.mark]

/-- What a step knows of its surroundings in a session. -/
def surroundings (context : Context) (session : Session) : Context :=
  { context with inMatch := 0 < session.matchDepth }

/-- The later session is further on among the same tokens, and its counters are the same. -/
structure Keeps (session later : Session) : Prop where
  reaches : session.reading.Reaches later.reading
  depth : later.depth = session.depth
  matchDepth : later.matchDepth = session.matchDepth

variable {session middle later : Session}

/-- A session that stays the same has kept everything. -/
theorem Keeps.refl (session : Session) : session.Keeps session :=
  ⟨.refl session.reading, rfl, rfl⟩

/-- What is kept twice is kept. -/
theorem Keeps.trans (hfirst : session.Keeps middle) (hsecond : middle.Keeps later) :
    session.Keeps later :=
  ⟨hfirst.reaches.trans hsecond.reaches, hsecond.depth.trans hfirst.depth,
    hsecond.matchDepth.trans hfirst.matchDepth⟩

/-- The tokens are kept, wherever the reading is in them. -/
theorem Keeps.tokens (h : session.Keeps later) : later.tokens = session.tokens := by
  obtain ⟨passed, hahead, hbehind⟩ := h.reaches.tokens
  simp [Session.tokens, hahead, hbehind, h.reaches.mark]

end Session

/-- Runs a step one level deeper, given the number of levels that may still be opened. -/
def Read.nested {α : Type} (context : Context) (levels : Nat) (step : Nat → Read α) : Read α :=
  match levels with
  | 0 => tooDeep context
  | levels + 1 => step levels

/-- A step in a session. -/
abbrev Work := EStateM Error Session

namespace Work

variable {α β : Type} {context : Context} {work other : Work α}

/-- The outcome of a step of the reader, in a session. -/
def resume (session : Session) : EStateM.Result Error Reading α → EStateM.Result Error Session α
  | .ok value later => .ok value { session with reading := later }
  | .error error later => .error error { session with reading := later }

/-- Runs a step of the reader with the levels that are left. -/
def lift (context : Context) (step : Nat → Context → Read α) : Work α :=
  fun session => resume session
    (step (context.limit - session.depth) (session.surroundings context) session.reading)

/-- Changes the session before a piece of work and behind it, whether it fails or not. -/
def around (enter leave : Session → Session) (work : Work α) : Work α :=
  fun session =>
    match work (enter session) with
    | .ok value later => .ok value (leave later)
    | .error error later => .error error (leave later)

/-- Opens a level for a piece of work, unless the limit is reached. -/
def nested (context : Context) (work : Work α) : Work α :=
  fun session =>
    if context.limit ≤ session.depth then lift context (fun _ => Read.tooDeep) session
    else
      around (fun before => { before with depth := before.depth + 1 })
        (fun later => { later with depth := later.depth - 1 }) work session

/-- Does a piece of work as the arms of a `match` statement. -/
def inMatch : Work α → Work α :=
  around (fun before => { before with matchDepth := before.matchDepth + 1 })
    (fun later => { later with matchDepth := later.matchDepth - 1 })

/-- The session behind a piece of work, whether it fails or not. -/
def after (work : Work α) (session : Session) : Session :=
  match work session with
  | .ok _ later => later
  | .error _ later => later

/-! ## Counting -/

/-- A step that opens a level does its work one level deeper. -/
theorem lift_nested (step : Nat → Context → Read α) :
    lift context (fun levels context => Read.nested context levels (step · context)) =
      nested context (lift context step) := by
  funext session
  by_cases hlimit : context.limit ≤ session.depth
  · have hnone : context.limit - session.depth = 0 := by omega
    rw [nested, if_pos hlimit, lift, lift, hnone]
    rfl
  · have hsome : context.limit - session.depth = context.limit - (session.depth + 1) + 1 := by omega
    rw [nested, if_neg hlimit, lift, hsome]
    show resume session (step (context.limit - (session.depth + 1)) (session.surroundings context)
      session.reading) = _
    unfold around lift
    dsimp only [Session.surroundings]
    cases step (context.limit - (session.depth + 1)) { context with
      inMatch := 0 < session.matchDepth } session.reading with
    | ok value later => rfl
    | error error later => rfl

/-- Inside the arms of a `match` a step knows that it is there. -/
theorem inMatch_lift (step : Nat → Context → Read α) :
    inMatch (lift context step) =
      lift context fun levels context => step levels context.enterMatch := by
  funext session
  have hinside : ({ session with matchDepth := session.matchDepth + 1 } : Session).surroundings
      context = (session.surroundings context).enterMatch := by
    simp [Session.surroundings, Context.enterMatch]
  unfold inMatch around lift
  rw [hinside]
  dsimp only
  cases step (context.limit - session.depth) (session.surroundings context).enterMatch
    session.reading with
  | ok value later => rfl
  | error error later => rfl

/-- Only the surroundings in a session matter. -/
theorem lift_congr {step other : Nat → Context → Read α} (h : ∀ (session : Session) (levels : Nat),
    step levels (session.surroundings context) = other levels (session.surroundings context)) :
    lift context step = lift context other := by
  funext session
  rw [lift, lift, h]

/-- Two steps lifted together are lifted one by one. -/
theorem lift_bind (step : Nat → Context → Read α) (rest : α → Nat → Context → Read β) :
    lift context (fun levels context =>
        step levels context >>= fun value => rest value levels context) =
      lift context step >>= fun value => lift context (rest value) := by
  funext session
  show resume session ((step _ _ >>= _) session.reading) = _
  rw [Read.bind_apply]
  show _ = EStateM.bind (lift context step) _ session
  unfold EStateM.bind lift
  cases step (context.limit - session.depth) (session.surroundings context) session.reading with
  | ok value later => rfl
  | error error later => rfl

end Work

namespace Expr

/-- The body of an expression: what it begins with, and the operators behind it. -/
def readBody (power : Power) (levels : Nat) (context : Context) : Read Expr := do
  match context.grammar.lead? (← Read.current) with
  | none => Read.unexpected
  | some form =>
      let left ← readLead context (read context levels) form
      readChain context levels power left

/-- An operator that goes on an expression, and the operators behind it. -/
def readLink (power : Power) (left : Expr) (next : Power) (form : TailForm) (levels : Nat)
    (context : Context) : Read Expr := do
  let joined ← readTail (read context levels) left next form
  readChain context levels power joined

/-- Reading an expression opens a level. -/
theorem read_eq_nested (power : Power) (levels : Nat) (context : Context) :
    read context levels power = Read.nested context levels (readBody power · context) := by
  cases levels with
  | zero =>
      rw [read]
      rfl
  | succ levels =>
      rw [read]
      rfl

/-- Going on with an expression opens a level for each operator. -/
theorem readChain_eq_nested (power : Power) (left : Expr) (levels : Nat) (context : Context) :
    readChain context levels power left = (do
      match tighterTail? context power (← Read.current) with
      | none => return left
      | some (next, form) =>
          Read.nested context levels (readLink power left next form · context)) := by
  rw [readChain.eq_def]
  cases levels with
  | zero => rfl
  | succ levels => rfl

mutual

/-- An expression is read in the same way inside the arms of a `match`. -/
theorem read_enterMatch (context : Context) (levels : Nat) (power : Power) :
    read context.enterMatch levels power = read context levels power := by
  cases levels with
  | zero =>
      rw [read, read]
      rfl
  | succ levels =>
      have hinner : read context.enterMatch levels = read context levels :=
        funext fun power => read_enterMatch context levels power
      rw [read, read]
      congr 1
      funext token
      rw [show context.enterMatch.grammar.lead? token = context.grammar.lead? token from rfl]
      cases context.grammar.lead? token with
      | none => rfl
      | some form =>
          have hlead : readLead context.enterMatch (read context.enterMatch levels) form =
              readLead context (read context levels) form := by
            rw [hinner]
            cases form <;> rfl
          show readLead _ _ _ >>= _ = _
          rw [hlead]
          congr 1
          funext left
          exact readChain_enterMatch context levels power left

/-- Expressions are read alike inside a `match` and outside. -/
theorem readChain_enterMatch (context : Context) (levels : Nat) (power : Power) (left : Expr) :
    readChain context.enterMatch levels power left = readChain context levels power left := by
  rw [readChain.eq_def, readChain.eq_def]
  congr 1
  funext token
  rw [show tighterTail? context.enterMatch power token = tighterTail? context power token from rfl]
  cases tighterTail? context power token with
  | none => rfl
  | some entry =>
      cases levels with
      | zero => rfl
      | succ levels =>
          have hinner : read context.enterMatch levels = read context levels :=
            funext fun power => read_enterMatch context levels power
          show readTail _ _ _ _ >>= _ = _
          rw [hinner]
          congr 1
          funext joined
          exact readChain_enterMatch context levels power joined

end

end Expr

namespace Stmt

/-- Reading a statement opens a level. -/
theorem read_eq_nested (levels : Nat) (context : Context) :
    read levels context =
      Read.nested context levels fun levels => readBy context (inner context levels) := by
  cases levels with
  | zero =>
      rw [read]
      rfl
  | succ levels =>
      rw [read]
      rfl

/-- So does reading a conditional behind an `else`. -/
theorem readElseIf_eq_nested (levels : Nat) (context : Context) :
    readElseIf levels context =
      Read.nested context levels fun levels => readForm context (inner context levels) .ifElse := by
  cases levels with
  | zero =>
      rw [readElseIf]
      rfl
  | succ levels =>
      rw [readElseIf]
      rfl

/-- Reads the arms of a `match` statement up to the closing brace. -/
def readArms (levels : Nat) (context : Context) :
    Read (List (MatchCase Stmt) × Option Stmt) :=
  Read.bounded (MatchArm.collectFrom ((inner context levels).arm context) false)

/-- The arms of a `match` are read inside it. -/
theorem readArms_enterMatch (levels : Nat) (context : Context) :
    readArms levels context.enterMatch = Read.bounded
      (MatchArm.collectFrom ((inner context levels).arm context.enterMatch) false) := by
  have hexpr : (inner context.enterMatch levels).expr = (inner context levels).expr :=
    Expr.read_enterMatch context levels .default
  unfold readArms Inner.arm
  rw [hexpr]
  rfl

end Stmt

/-- The steps of the reader open levels, and enter the arms of a `match`, by counting up and down
again. -/
structure Work.Counted (context : Context) : Prop where
  expr : ∀ power, lift context (fun levels context => Expr.read context levels power) =
    nested context (lift context (Expr.readBody power))
  chain : ∀ power left,
    lift context (fun levels context => Expr.readChain context levels power left) = do
      match Expr.tighterTail? context power (← lift context fun _ _ => Read.current) with
      | none => pure left
      | some (next, form) => nested context (lift context (Expr.readLink power left next form))
  stmt : lift context Stmt.read = nested context
    (lift context fun levels context => Stmt.readBy context (Stmt.inner context levels))
  elseIf : lift context Stmt.readElseIf = nested context
    (lift context fun levels context => Stmt.readForm context (Stmt.inner context levels) .ifElse)
  matchOn : lift context
      (fun levels context => Stmt.readForm context (Stmt.inner context levels) .matchOn) = do
    let opening ← lift context fun _ _ => Read.advance
    let discriminant ← lift context fun levels context =>
      Stmt.readCondition (Expr.read context levels .default)
    let _ ← lift context fun _ _ => Read.expect "\x7b"
    let (cases, fallback) ← inMatch (lift context Stmt.readArms)
    let _ ← lift context fun _ _ => Read.expect "\x7d"
    return .matchOn discriminant cases fallback
      (← lift context fun _ _ => Read.spanFrom opening.span.start)

/-- The reader counts its levels and its `match` statements. -/
theorem Work.counted (context : Context) : Counted context where
  expr power := by
    rw [← lift_nested]
    simp only [Expr.read_eq_nested]
  chain power left := by
    simp only [Expr.readChain_eq_nested]
    rw [lift_bind]
    congr 1
    funext token
    cases htail : Expr.tighterTail? context power token with
    | none =>
        show _ = lift context fun _ _ => pure left
        refine lift_congr fun session levels => ?_
        rw [show Expr.tighterTail? (session.surroundings context) power token = none from htail]
    | some entry =>
        refine (lift_congr fun session levels => ?_).trans (lift_nested _)
        rw [show Expr.tighterTail? (session.surroundings context) power token = some entry
          from htail]
  stmt := by
    rw [← lift_nested]
    exact congrArg (lift context) (funext fun levels => funext (Stmt.read_eq_nested levels))
  elseIf := by
    rw [← lift_nested]
    exact congrArg (lift context) (funext fun levels => funext (Stmt.readElseIf_eq_nested levels))
  matchOn := by
    simp only [inMatch_lift, Stmt.readArms_enterMatch]
    show lift context (fun levels context => Stmt.readMatch (Expr.read context levels .default)
      ((Stmt.inner context levels).arm context.enterMatch)) = _
    simp only [Stmt.readMatch, lift_bind]
    rfl

end ScriptLint
