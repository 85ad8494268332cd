import ScriptLint.Proofs.Reading.Clean
import ScriptLint.Proofs.Reasoning.Forward
import ScriptLint.Proofs.Sentence.Grammar

/-!
# The logic of runs

A step of the reader passes tokens and records errors, and then gives a value or raises an error.
An `Account` says what is known of a value by the tokens it was read from and the errors that were
recorded meanwhile. A `RunLogic` says which errors may be raised where, and which may be recorded.
`L.Judges G step` brings the two together: wherever the step is run, it raises and records only what
the logic `L` lets it, and what it gives has the account `G`.

There is one rule for each combinator. A form of the grammar is taken through them once, for all
logics and accounts, in the modules that follow. In the middle of a form `L.Follows front reported`
keeps what has been passed and recorded since its first token.
-/

namespace ScriptLint

/-- The causes of errors at a phrase that cannot stand where it stands. -/
def Cause.IsSyntax : Cause → Prop
  | .unexpectedToken _ => True
  | .unexpectedTokenDetailed _ _ => True
  | .expectedToken _ _ => True
  | .invalidAssignmentTarget => True
  | _ => False

/-- An error of syntax is not fatal from the start. -/
theorem Cause.IsSyntax.not_fatal {cause : Cause} (h : cause.IsSyntax) (span : Span) :
    (Error.ofCause cause span).fatal = false := by
  cases cause with
  | unexpectedToken | unexpectedTokenDetailed | expectedToken | invalidAssignmentTarget => rfl
  | _ => exact h.elim

/-- The keywords of the statements with a header. -/
def Token.headerKeywords : List String :=
  ["function", "class", "for"]

/-- A token that is spelled is no end mark. -/
theorem Token.kind_ne_eof_of_is {token : Token} {text : String} (h : token.is text = true) :
    token.kind ≠ .eof := by
  intro hkind
  simp [Token.is, Token.isSpelled, hkind] at h

/-! ## Ways through the tokens -/

namespace Reading

/-- Reading `tokens` and recording `reports` leads from the first reading to the second. -/
structure Goes (reading : Reading) (tokens : List Token) (reports : Array ParseError)
    (later : Reading) : Prop where
  ahead : reading.ahead = tokens ++ later.ahead
  behind : later.behind = tokens.reverse ++ reading.behind
  mark : later.mark = reading.mark
  errors : later.errors = reading.errors ++ reports

variable {reading middle later : Reading} {tokens more : List Token} {token : Token}
  {reports others : Array ParseError}

/-- A way of no tokens and no reports. -/
theorem Goes.refl (reading : Reading) : reading.Goes [] #[] reading :=
  ⟨rfl, rfl, rfl, by simp⟩

/-- Ways one behind the other make a way. -/
theorem Goes.trans (hfirst : reading.Goes tokens reports middle)
    (hsecond : middle.Goes more others later) :
    reading.Goes (tokens ++ more) (reports ++ others) later := by
  refine ⟨?_, ?_, hsecond.mark.trans hfirst.mark, ?_⟩
  · rw [hfirst.ahead, hsecond.ahead, List.append_assoc]
  · rw [hsecond.behind, hfirst.behind, List.reverse_append, List.append_assoc]
  · rw [hsecond.errors, hfirst.errors, Array.append_assoc]

/-- A way leads forward. -/
theorem Goes.reaches (h : reading.Goes tokens reports later) : reading.Reaches later :=
  ⟨⟨tokens, h.ahead, h.behind⟩, h.mark, reports, h.errors⟩

/-- Whatever is further on can be reached on a way. -/
theorem Reaches.exists_goes (h : reading.Reaches later) :
    ∃ tokens reports, reading.Goes tokens reports later := by
  obtain ⟨⟨tokens, hahead, hbehind⟩, hmark, reports, herrors⟩ := h
  exact ⟨tokens, reports, hahead, hbehind, hmark, herrors⟩

/-- To pass tokens is to record nothing on the way. -/
theorem goes_empty_iff : reading.Goes tokens #[] later ↔ reading.Passes tokens later := by
  constructor
  · rintro ⟨hahead, hbehind, hmark, herrors⟩
    exact ⟨hahead, hbehind, hmark, by simpa using herrors⟩
  · rintro ⟨hahead, hbehind, hmark, herrors⟩
    exact ⟨hahead, hbehind, hmark, by simpa using herrors⟩

/-- What has been passed is behind. -/
theorem Goes.mem_behind (h : reading.Goes tokens reports later) (hmem : token ∈ tokens) :
    token ∈ later.behind := by
  rw [h.behind]
  exact List.mem_append_left _ (List.mem_reverse.2 hmem)

/-- The span from the first token of a way to the last one. -/
theorem Goes.spanFrom (h : reading.Goes tokens reports later) (hfirst : tokens.head? = some token) :
    later.spanFrom token.span.start = Span.ofTokens tokens := by
  cases tokens with
  | nil => cases hfirst
  | cons first rest =>
      cases hfirst
      -- What was recorded makes no difference to the span.
      have hpasses : reading.Passes (token :: rest) { later with errors := reading.errors } :=
        ⟨h.ahead, h.behind, h.mark, rfl⟩
      exact hpasses.spanFrom

end Reading

/-! ## Accounts -/

/-- What is known of a value, by the tokens it was read from and the errors recorded meanwhile. -/
abbrev Account (α : Type) :=
  List Token → Array ParseError → α → Prop

namespace Account

variable {α : Type}

/-- Nothing was recorded, and the value is known by its tokens. -/
def Quiet (P : List Token → α → Prop) : Account α :=
  fun tokens reports value => reports = #[] ∧ P tokens value

/-- Of a step that is recovered from: a value, or nothing and an error that was recorded. -/
inductive Recovered (G : Account α) : Account (Option α) where
  | read {tokens : List Token} {reports : Array ParseError} {value : α} :
      G tokens reports value → Recovered G tokens reports (some value)
  | lost {tokens : List Token} {reports : Array ParseError} :
      reports ≠ #[] → Recovered G tokens reports none

/-- Values one behind the other. Between them tokens may have been given up, and then an error was
recorded. -/
inductive Collected (G : Account α) : Account (List α) where
  | nil : Collected G [] #[] []
  | cons {tokens more : List Token} {reports others : Array ParseError} {value : α}
      {values : List α} : G tokens reports value → Collected G more others values →
      Collected G (tokens ++ more) (reports ++ others) (value :: values)
  | skip (tokens : List Token) {more : List Token} {reports others : Array ParseError}
      {values : List α} : reports ≠ #[] → Collected G more others values →
      Collected G (tokens ++ more) (reports ++ others) values

/-- Where nothing was recorded, nothing was given up, and the values stand one behind the other. -/
theorem Collected.of_quiet {G : Account α} {P : List Token → α → Prop}
    {R : List Token → List α → Prop} {tokens : List Token} {reports : Array ParseError}
    {values : List α} (h : Collected G tokens reports values) (hnil : R [] [])
    (hcons : ∀ {tokens more value values}, P tokens value → R more values →
      R (tokens ++ more) (value :: values))
    (hgood : ∀ {tokens reports value}, G tokens reports value → reports = #[] → P tokens value)
    (hquiet : reports = #[]) : R tokens values := by
  induction h with
  | nil => exact hnil
  | cons hvalue _ ih =>
      obtain ⟨hfirst, hrest⟩ := Array.append_eq_empty_iff.1 hquiet
      exact hcons (hgood hvalue hfirst) (ih hrest)
  | skip _ hlost => exact absurd (Array.append_eq_empty_iff.1 hquiet).1 hlost

end Account

/-! ## Logics -/

/-- Which errors may be raised from a reading, and which may be recorded. -/
structure RunLogic (context : Context) where
  /-- The readings that are spoken about. -/
  admits : Reading → Prop
  /-- The errors that may be raised from a reading on. -/
  raises : Reading → Error → Prop
  /-- The errors that may be recorded. -/
  records : ParseError → Prop
  marked : ∀ {reading : Reading}, admits reading → reading.Marked
  admits_later : ∀ {reading later : Reading}, admits reading → reading.Reaches later → admits later
  raises_earlier : ∀ {reading later : Reading} {error : Error}, admits reading →
    reading.Reaches later → raises later error → raises reading error
  raises_here : ∀ {reading : Reading} {cause : Cause}, admits reading → cause.IsSyntax →
    raises reading (.ofCause cause reading.current.span)
  raises_limit : ∀ {reading : Reading}, admits reading →
    raises reading (.ofCause (.recursionLimit context.limit) reading.current.span)
  /-- An expression that has been read may be no target of an assignment. -/
  raises_target : ∀ {reading later : Reading} {level : Level} {tokens : List Token}
    {target : Expr}, admits reading → reading.Passes tokens later →
    Phrase context.sourceText level tokens target →
    raises reading (.ofCause .invalidAssignmentTarget target.span)
  /-- Behind the keyword of a header an error may be made fatal. -/
  raises_fatally : ∀ {reading : Reading} {keyword : Token} {error : Error}, admits reading →
    keyword ∈ reading.behind → keyword.isAny Token.headerKeywords = true →
    raises reading error → raises reading error.escalate
  records_raised : ∀ {reading : Reading} {error : Error}, admits reading → raises reading error →
    error.fatal = false → records (.ofError error)
  /-- A declaration that has been read may have no semicolon behind it. -/
  records_semicolon : ∀ {reading later : Reading} {tokens : List Token} {decl : VarDecl},
    admits reading → reading.Passes tokens later → Declaration context.sourceText tokens decl →
    records ⟨Cause.missingSemicolon.message, ⟨decl.span.stop, context.lineEnd decl.span.stop⟩⟩
  /-- The keyword of an arm that has been read may be that of a second default arm. -/
  records_default : ∀ {reading : Reading} {keyword : Token}, admits reading →
    keyword ∈ reading.behind → records (.ofError (.ofCause .duplicateDefault keyword.span))

namespace RunLogic

variable {context : Context}

/-- The logic that lets every error be raised and recorded. -/
def free (context : Context) : RunLogic context where
  admits := Reading.Marked
  raises _ _ := True
  records _ := True
  marked hmark := hmark
  admits_later hmark hreaches := hreaches.marked hmark
  raises_earlier _ _ _ := trivial
  raises_here _ _ := trivial
  raises_limit _ := trivial
  raises_target _ _ _ := trivial
  raises_fatally _ _ _ _ := trivial
  records_raised _ _ _ := trivial
  records_semicolon _ _ _ := trivial
  records_default _ _ := trivial

/-- The same logic inside the arms of a `match` statement. -/
def inMatch (L : RunLogic context) : RunLogic context.enterMatch where
  admits := L.admits
  raises := L.raises
  records := L.records
  marked := L.marked
  admits_later := L.admits_later
  raises_earlier := L.raises_earlier
  raises_here := L.raises_here
  raises_limit := L.raises_limit
  raises_target := L.raises_target
  raises_fatally := L.raises_fatally
  records_raised := L.records_raised
  records_semicolon := L.records_semicolon
  records_default := L.records_default

/-- The logic behind the keyword of a header. -/
def inside (L : RunLogic context) : RunLogic context where
  admits reading := L.admits reading ∧
    ∃ keyword ∈ reading.behind, keyword.isAny Token.headerKeywords = true
  raises := L.raises
  records := L.records
  marked hadmits := L.marked hadmits.1
  admits_later := by
    rintro reading later ⟨hadmits, keyword, hmem, hheader⟩ hreaches
    obtain ⟨passed, -, hbehind⟩ := hreaches.tokens
    refine ⟨L.admits_later hadmits hreaches, keyword, ?_, hheader⟩
    rw [hbehind]
    exact List.mem_append_right _ hmem
  raises_earlier hadmits := L.raises_earlier hadmits.1
  raises_here hadmits := L.raises_here hadmits.1
  raises_limit hadmits := L.raises_limit hadmits.1
  raises_target hadmits := L.raises_target hadmits.1
  raises_fatally hadmits := L.raises_fatally hadmits.1
  records_raised hadmits := L.records_raised hadmits.1
  records_semicolon hadmits := L.records_semicolon hadmits.1
  records_default hadmits := L.records_default hadmits.1

/-- The logic lets every error that may be raised be made fatal. -/
def Escalates (L : RunLogic context) : Prop :=
  ∀ {reading : Reading} {error : Error}, L.admits reading → L.raises reading error →
    L.raises reading error.escalate

/-- Behind the keyword of a header every error may be made fatal. -/
theorem inside_escalates (L : RunLogic context) : L.inside.Escalates := by
  rintro reading error ⟨hadmits, keyword, hmem, hheader⟩ hraises
  exact L.raises_fatally hadmits hmem hheader hraises

section Judgements

variable (L : RunLogic context) {α : Type}

/-- A way on which nothing is recorded but what may be. -/
def Way (start : Reading) (tokens : List Token) (reports : Array ParseError) (later : Reading) :
    Prop :=
  start.Goes tokens reports later ∧ ∀ report ∈ reports, L.records report

/-- What is known of the outcome of a step that began at `start`. -/
def Outcome (G : Account α) (start : Reading) : EStateM.Result Error Reading α → Prop
  | .ok value later => ∃ tokens reports, L.Way start tokens reports later ∧ G tokens reports value
  | .error error later => (∃ tokens reports, L.Way start tokens reports later) ∧
      L.raises start error

/-- Where the current token passes, the step raises and records what it may, and what it gives has
the account. -/
def JudgesAt (K : Token → Prop) (G : Account α) (step : Read α) : Prop :=
  ∀ ⦃reading : Reading⦄, L.admits reading → K reading.current → L.Outcome G reading (step reading)

/-- The same wherever the step is run. -/
abbrev Judges (G : Account α) (step : Read α) : Prop :=
  L.JudgesAt (fun _ => True) G step

/-- The step goes on where `front` has been passed and `reported` recorded, and the account is about
all that was passed and recorded since. -/
def FollowsAt (K : Token → Prop) (front : List Token) (reported : Array ParseError)
    (G : Account α) (step : Read α) : Prop :=
  ∀ ⦃start reading : Reading⦄, L.admits start → L.Way start front reported reading →
    K reading.current → L.Outcome G start (step reading)

/-- The same whatever the current token is. -/
abbrev Follows (front : List Token) (reported : Array ParseError) (G : Account α)
    (step : Read α) : Prop :=
  L.FollowsAt (fun _ => True) front reported G step

end Judgements

variable {L : RunLogic context} {α β : Type} {K : Token → Prop} {G : Account α} {H : Account β}
  {start reading middle later : Reading} {front tokens more : List Token}
  {reported reports others : Array ParseError} {step : Read α} {rest : α → Read β}

/-- A way leads forward. -/
theorem Way.reaches (h : L.Way start tokens reports later) : start.Reaches later :=
  h.1.reaches

/-- A way of no tokens and no reports. -/
theorem Way.refl (reading : Reading) : L.Way reading [] #[] reading :=
  ⟨.refl reading, by simp⟩

/-- Ways one behind the other make a way. -/
theorem Way.trans (hfirst : L.Way start tokens reports middle)
    (hsecond : L.Way middle more others later) :
    L.Way start (tokens ++ more) (reports ++ others) later := by
  refine ⟨hfirst.1.trans hsecond.1, fun report hreport => ?_⟩
  rcases Array.mem_append.1 hreport with hmem | hmem
  · exact hfirst.2 report hmem
  · exact hsecond.2 report hmem

/-- Nothing is recorded where tokens are passed. -/
theorem Way.of_passes (h : start.Passes tokens later) : L.Way start tokens #[] later :=
  ⟨Reading.goes_empty_iff.2 h, by simp⟩

/-- An account may be weakened. -/
theorem Outcome.mono {G' : Account α} {result : EStateM.Result Error Reading α}
    (h : L.Outcome G start result)
    (himp : ∀ {tokens reports value}, G tokens reports value → G' tokens reports value) :
    L.Outcome G' start result := by
  cases result with
  | error error later => exact h
  | ok value later =>
      obtain ⟨tokens, reports, hway, hgood⟩ := h
      exact ⟨tokens, reports, hway, himp hgood⟩

/-- A step in front of another is judged first, and the other one behind what it has passed. What is
raised further on counts as raised from the start. -/
theorem Outcome.bind (hadmits : L.admits start) (hway : L.Way start front reported reading)
    (hstep : L.Outcome G reading (step reading))
    (hrest : ∀ {tokens reports value later}, G tokens reports value →
      L.Way start (front ++ tokens) (reported ++ reports) later →
      L.Outcome H start (rest value later)) :
    L.Outcome H start ((step >>= rest) reading) := by
  rw [Read.bind_apply]
  cases hrun : step reading with
  | ok value later =>
      rw [hrun] at hstep
      obtain ⟨tokens, reports, hpassed, hgood⟩ := hstep
      exact hrest hgood (hway.trans hpassed)
  | error error later =>
      rw [hrun] at hstep
      obtain ⟨⟨tokens, reports, hpassed⟩, hraises⟩ := hstep
      exact ⟨⟨_, _, hway.trans hpassed⟩, L.raises_earlier hadmits hway.reaches hraises⟩

/-! ## Rules -/

/-- A form begins with nothing behind it. -/
theorem JudgesAt.begin (h : L.FollowsAt K [] #[] G step) : L.JudgesAt K G step :=
  fun reading hadmits hcurrent => h hadmits (Way.refl reading) hcurrent

/-- What is known of a step may be weakened. -/
theorem JudgesAt.mono {G' : Account α} (h : L.JudgesAt K G step)
    (himp : ∀ {tokens reports value}, G tokens reports value → G' tokens reports value) :
    L.JudgesAt K G' step :=
  fun _ hadmits hcurrent => (h hadmits hcurrent).mono himp

/-- What is judged where some tokens pass is judged where fewer do. -/
theorem JudgesAt.imp {K' : Token → Prop} (h : L.JudgesAt K G step)
    (himp : ∀ token, K' token → K token) : L.JudgesAt K' G step :=
  fun _ hadmits hcurrent => h hadmits (himp _ hcurrent)

/-- What is judged everywhere is judged where the current token passes. -/
theorem JudgesAt.of_judges (h : L.Judges G step) : L.JudgesAt K G step :=
  h.imp fun _ _ => trivial

/-- The first token that is passed is the one that was known. -/
theorem JudgesAt.headed {P : List Token → α → Prop} (h : L.JudgesAt K (.Quiet P) step) :
    L.JudgesAt K (.Quiet fun tokens value => P tokens value ∧ ∀ first ∈ tokens.head?, K first)
      step := by
  intro reading hadmits hcurrent
  have houtcome := h hadmits hcurrent
  cases hrun : step reading with
  | error error later =>
      rw [hrun] at houtcome
      exact houtcome
  | ok value later =>
      rw [hrun] at houtcome
      obtain ⟨tokens, reports, hway, hquiet, hvalue⟩ := houtcome
      refine ⟨tokens, reports, hway, hquiet, hvalue, fun first hfirst => ?_⟩
      obtain ⟨rest, rfl⟩ := List.head?_eq_some_iff.1 hfirst
      have hsame : reading.current = first := by simp [Reading.current, hway.1.ahead]
      exact hsame ▸ hcurrent

/-- What is judged everywhere is judged behind the keyword of a header. -/
theorem JudgesAt.inside (h : L.JudgesAt K G step) : L.inside.JudgesAt K G step :=
  fun _ hadmits hcurrent => h hadmits.1 hcurrent

/-- One step and then the others. -/
theorem FollowsAt.andThen (hstep : L.JudgesAt K G step)
    (hrest : ∀ tokens reports value, G tokens reports value →
      L.Follows (front ++ tokens) (reported ++ reports) H (rest value)) :
    L.FollowsAt K front reported H (step >>= rest) := by
  intro start reading hadmits hway hcurrent
  have hfirst := hstep (L.admits_later hadmits hway.reaches) hcurrent
  refine Outcome.bind hadmits hway hfirst fun hgood hpassed => ?_
  exact hrest _ _ _ hgood hadmits hpassed trivial

/-- A step that records nothing leaves the reports as they are. -/
theorem FollowsAt.quiet {P : List Token → α → Prop} (hstep : L.JudgesAt K (.Quiet P) step)
    (hrest : ∀ tokens value, P tokens value → L.Follows (front ++ tokens) reported H (rest value)) :
    L.FollowsAt K front reported H (step >>= rest) := by
  refine .andThen hstep fun tokens reports value hgood => ?_
  obtain ⟨rfl, hvalue⟩ := hgood
  rw [Array.append_empty]
  exact hrest tokens value hvalue

/-- A step behind the keyword of a header. -/
theorem FollowsAt.header {keyword : Token} (hkeyword : keyword ∈ front)
    (hheader : keyword.isAny Token.headerKeywords = true) (hstep : L.inside.JudgesAt K G step)
    (hrest : ∀ tokens reports value, G tokens reports value →
      L.Follows (front ++ tokens) (reported ++ reports) H (rest value)) :
    L.FollowsAt K front reported H (step >>= rest) := by
  intro start reading hadmits hway hcurrent
  have hinside : L.inside.admits reading :=
    ⟨L.admits_later hadmits hway.reaches, keyword, hway.1.mem_behind hkeyword, hheader⟩
  have hfirst : L.Outcome G reading (step reading) := hstep hinside hcurrent
  refine Outcome.bind hadmits hway hfirst fun hgood hpassed => ?_
  exact hrest _ _ _ hgood hadmits hpassed trivial

/-- The last step of a form gives its value. -/
theorem FollowsAt.give {value : α} (htokens : front = tokens) (hreports : reported = reports)
    (h : G tokens reports value) : L.FollowsAt K front reported G (pure value) := by
  subst htokens hreports
  exact fun _ _ _ hway _ => ⟨front, reported, hway, h⟩

/-- The value of the last step of a form may be put into another one. -/
theorem FollowsAt.map {f : α → β} (hstep : L.JudgesAt K G step)
    (himp : ∀ {tokens reports value}, G tokens reports value →
      H (front ++ tokens) (reported ++ reports) (f value)) :
    L.FollowsAt K front reported H (f <$> step) := by
  rw [Read.map_eq_bind]
  exact .andThen hstep fun tokens reports value hgood => .give rfl rfl (himp hgood)

/-- The value of the last step of a form may be that of the form. -/
theorem FollowsAt.last {G' : Account α} (hstep : L.JudgesAt K G step)
    (himp : ∀ {tokens reports value}, G tokens reports value →
      G' (front ++ tokens) (reported ++ reports) value) :
    L.FollowsAt K front reported G' step := by
  rw [← bind_pure step]
  exact .andThen hstep fun tokens reports value hgood => .give rfl rfl (himp hgood)

/-- The last step of a form takes the span of all its tokens. -/
theorem FollowsAt.close {first : Token} {make : Span → α} (hfirst : front.head? = some first)
    (htokens : front = tokens) (hreports : reported = reports)
    (h : G tokens reports (make (Span.ofTokens tokens))) :
    L.FollowsAt K front reported G
      (Read.spanFrom first.span.start >>= fun span => pure (make span)) := by
  subst htokens hreports
  intro start reading hadmits hway _
  refine ⟨front, reported, hway, ?_⟩
  rw [hway.1.spanFrom hfirst]
  exact h

/-! ## Steps over one token -/

/-- Looking at the current token makes it known. -/
theorem FollowsAt.look {rest : Token → Read β}
    (h : ∀ token, K token → L.FollowsAt (· = token) front reported H (rest token)) :
    L.FollowsAt K front reported H (Read.current >>= rest) :=
  fun _ reading hadmits hway hcurrent => h reading.current hcurrent hadmits hway rfl

/-- Whatever is asked of the reading. -/
theorem FollowsAt.ask {γ : Type} {view : Reading → γ} {rest : γ → Read β}
    (h : ∀ value, L.FollowsAt K front reported H (rest value)) :
    L.FollowsAt K front reported H (Read.look view >>= rest) :=
  fun _ reading hadmits hway hcurrent => h (view reading) hadmits hway hcurrent

/-- Whether the current token is one with a spelling. -/
theorem FollowsAt.sees {text : String} {rest : Bool → Read β}
    (htrue : L.FollowsAt (·.is text = true) front reported H (rest true))
    (hfalse : L.FollowsAt (·.is text = false) front reported H (rest false)) :
    L.FollowsAt K front reported H (Read.sees text >>= rest) := by
  intro start reading hadmits hway _
  have hlook : Read.sees text reading = .ok (reading.current.is text) reading := rfl
  rw [Read.bind_of_ok hlook]
  cases hseen : reading.current.is text with
  | true => exact htrue hadmits hway hseen
  | false => exact hfalse hadmits hway hseen

/-- A token that is no end mark is passed. -/
theorem FollowsAt.token {rest : Token → Read β} (hK : ∀ token, K token → token.kind ≠ .eof)
    (h : ∀ token, K token → L.Follows (front ++ [token]) reported H (rest token)) :
    L.FollowsAt K front reported H (Read.advance >>= rest) := by
  intro start reading hadmits hway hcurrent
  have hmark := L.marked (L.admits_later hadmits hway.reaches)
  have hpasses := Reading.passes_next (Reading.ahead_ne_nil_of_kind hmark (hK _ hcurrent))
  have hpassed := hway.trans (Way.of_passes hpasses)
  rw [Array.append_empty] at hpassed
  exact h reading.current hcurrent hadmits hpassed trivial

/-- A token with a spelling is passed. -/
theorem FollowsAt.keyword {text : String} {rest : Token → Read β}
    (h : ∀ token, token.is text = true → L.Follows (front ++ [token]) reported H (rest token)) :
    L.FollowsAt (·.is text = true) front reported H (Read.advance >>= rest) :=
  .token (fun _ his => Token.kind_ne_eof_of_is his) h

/-- A step that fails at the current token with an error of syntax. -/
theorem FollowsAt.fail {cause : Token → Cause} (hcause : ∀ token, (cause token).IsSyntax) :
    L.FollowsAt K front reported G (Read.failWith cause) := by
  intro start reading hadmits hway _
  have hraises := L.raises_here (L.admits_later hadmits hway.reaches) (hcause reading.current)
  exact ⟨⟨front, reported, hway⟩, L.raises_earlier hadmits hway.reaches hraises⟩

/-- No phrase begins with the current token. -/
theorem FollowsAt.unexpected : L.FollowsAt K front reported G Read.unexpected :=
  .fail fun _ => trivial

/-- The current token is not what is needed. -/
theorem FollowsAt.unexpectedDetailed {detail : String} :
    L.FollowsAt K front reported G (Read.unexpectedDetailed detail) :=
  .fail fun _ => trivial

/-- The nesting limit is reached. -/
theorem judges_tooDeep : L.JudgesAt K G (Read.tooDeep context) :=
  fun reading hadmits _ => ⟨⟨[], #[], Way.refl reading⟩, L.raises_limit hadmits⟩

/-- A fixed token is passed, or else it is missed. -/
theorem judges_expect (text : String) :
    L.Judges (.Quiet fun tokens token => tokens = [token] ∧ token.is text = true)
      (Read.expect text) := by
  intro reading hadmits _
  cases hrun : Read.expect text reading with
  | ok token later =>
      obtain ⟨his, hpasses⟩ := (Read.expect_passes (L.marked hadmits)).1 hrun
      exact ⟨[token], #[], Way.of_passes hpasses, rfl, rfl, his⟩
  | error error later =>
      rw [Read.expect_eq, Read.bind_of_ok (by rfl)] at hrun
      split at hrun
      · cases hrun
      · cases hrun
        exact ⟨⟨[], #[], Way.refl reading⟩, L.raises_here hadmits trivial⟩

/-- A name is passed, or else it is missed. -/
theorem judges_expectIdentifier (detail : String) :
    L.Judges (.Quiet fun tokens token => tokens = [token] ∧ token.kind = .identifier)
      (Read.expectIdentifier detail) := by
  intro reading hadmits _
  cases hrun : Read.expectIdentifier detail reading with
  | ok token later =>
      obtain ⟨hkind, hpasses⟩ := (Read.expectIdentifier_passes (L.marked hadmits)).1 hrun
      exact ⟨[token], #[], Way.of_passes hpasses, rfl, rfl, hkind⟩
  | error error later =>
      rw [Read.expectIdentifier, Read.bind_of_ok (by rfl)] at hrun
      split at hrun
      · cases hrun
      · cases hrun
        exact ⟨⟨[], #[], Way.refl reading⟩, L.raises_here hadmits trivial⟩

/-- A fixed token stands in front of the other steps. -/
theorem FollowsAt.expect {text : String} {rest : Token → Read β}
    (h : ∀ token, token.is text = true → L.Follows (front ++ [token]) reported H (rest token)) :
    L.FollowsAt K front reported H (Read.expect text >>= rest) := by
  refine .quiet (.of_judges (judges_expect text)) fun tokens token hgood => ?_
  obtain ⟨rfl, his⟩ := hgood
  exact h token his

/-- A name stands in front of the other steps. -/
theorem FollowsAt.name {detail : String} {rest : Token → Read β}
    (h : ∀ token, token.kind = .identifier →
      L.Follows (front ++ [token]) reported H (rest token)) :
    L.FollowsAt K front reported H (Read.expectIdentifier detail >>= rest) := by
  refine .quiet (.of_judges (judges_expectIdentifier detail)) fun tokens token hgood => ?_
  obtain ⟨rfl, hkind⟩ := hgood
  exact h token hkind

/-- A fixed token is passed if it is there. -/
theorem FollowsAt.accept {text : String} {rest : Bool → Read β}
    (htrue : ∀ token, token.is text = true → L.Follows (front ++ [token]) reported H (rest true))
    (hfalse : L.FollowsAt (·.is text = false) front reported H (rest false)) :
    L.FollowsAt K front reported H (Read.accept text >>= rest) := by
  have hpass : L.FollowsAt (·.is text = true) front reported H
      (Read.advance >>= fun _ => rest true) := .keyword htrue
  rw [Read.accept_eq, bind_assoc]
  exact .sees hpass hfalse

/-! ## Errors -/

/-- Where every error may be made fatal, a step may make its own ones so. -/
theorem JudgesAt.fatally (hescalates : L.Escalates) (h : L.JudgesAt K G step) :
    L.JudgesAt K G (Read.fatally step) := by
  intro reading hadmits hcurrent
  have houtcome := h hadmits hcurrent
  unfold Read.fatally
  cases hrun : step reading with
  | ok value later =>
      rw [hrun] at houtcome
      exact houtcome
  | error error later =>
      rw [hrun] at houtcome
      exact ⟨houtcome.1, hescalates hadmits houtcome.2⟩

/-- An error that is recovered from is recorded, and the tokens up to the next statement are given
up. -/
theorem JudgesAt.recovering (surroundings : Context) (h : L.JudgesAt K G step) :
    L.JudgesAt K (.Recovered G) (Read.recovering surroundings step) := by
  intro reading hadmits hcurrent
  have houtcome := h hadmits hcurrent
  cases hrun : step reading with
  | ok value later =>
      rw [hrun] at houtcome
      rw [Read.recovering_of_ok surroundings hrun]
      obtain ⟨tokens, reports, hway, hgood⟩ := houtcome
      exact ⟨tokens, reports, hway, .read hgood⟩
  | error error later =>
      rw [hrun] at houtcome
      obtain ⟨⟨tokens, reports, hway⟩, hraises⟩ := houtcome
      cases hfatal : error.fatal with
      | true =>
          rw [Read.recovering_of_fatal surroundings hrun hfatal]
          exact ⟨⟨tokens, reports, hway⟩, hraises⟩
      | false =>
          rw [Read.recovering_of_error surroundings hrun hfatal]
          have hrecord : L.Way later [] #[.ofError error]
              { later with errors := later.errors.push (.ofError error) } := by
            refine ⟨⟨rfl, rfl, rfl, by simp⟩, fun report hreport => ?_⟩
            rw [List.mem_singleton.1 (Array.mem_toList_iff.2 hreport)]
            exact L.records_raised hadmits hraises hfatal
          obtain ⟨skipped, others, hskip⟩ := (Reading.reaches_resync surroundings reading.position
            { later with errors := later.errors.push (.ofError error) }).exists_goes
          -- Skipping records nothing, so the error is the last thing that is reported.
          have hnone : others = #[] := by
            have herrors := hskip.errors
            rw [Reading.resync_errors] at herrors
            simpa using herrors
          subst hnone
          have hskipped := (hway.trans hrecord).trans ⟨hskip, by simp⟩
          exact ⟨_, _, hskipped, .lost (by simp)⟩

/-- An error is recorded. -/
theorem FollowsAt.record {report : ParseError} {rest : Unit → Read β}
    (hreport : ∀ {start reading}, L.admits start → L.Way start front reported reading →
      L.records report)
    (h : L.Follows front (reported.push report) H (rest ())) :
    L.FollowsAt K front reported H (Read.record report >>= rest) := by
  intro start reading hadmits hway _
  refine h hadmits ⟨?_, fun other hother => ?_⟩ trivial
  · obtain ⟨hahead, hbehind, hmark, herrors⟩ := hway.1
    exact ⟨hahead, hbehind, hmark, by simp [herrors]⟩
  · rcases Array.mem_push.1 hother with hbefore | rfl
    · exact hway.2 other hbefore
    · exact hreport hadmits hway

/-! ## Loops -/

/-- A loop is judged by its rounds. -/
theorem JudgesAt.bounded {step : Nat → Read α} (h : ∀ bound, L.JudgesAt K G (step bound)) :
    L.JudgesAt K G (Read.bounded step) :=
  fun reading hadmits hcurrent => h (reading.ahead.length + 1) hadmits hcurrent

/-- A loop that only looks whether it is over collects what its rounds give. -/
theorem judges_collect {view : Reading → Bool} {item : Read (Option α)}
    (hitem : L.Judges (.Recovered G) item) :
    L.Judges (.Collected G) (Read.collect (Read.look view) item) := by
  refine .bounded fun bound => ?_
  induction bound with
  | zero => exact .begin (.give rfl rfl .nil)
  | succ bound ih =>
      have hround : L.Follows [] #[] (.Collected G) (do
          let found ← item
          let later ← Read.collectFrom (Read.look view) item bound
          return found.toList ++ later) := by
        refine .andThen hitem fun tokens reports found hfound => ?_
        refine .andThen ih fun more others values hvalues => ?_
        cases hfound with
        | read hgood => exact .give (by simp) (by simp) (.cons hgood hvalues)
        | lost hlost => exact .give (by simp) (by simp) (.skip tokens hlost hvalues)
      refine .begin fun start reading hadmits hway _ => ?_
      rw [Read.collectFrom, Read.bind_of_ok (by rfl)]
      split
      · exact ⟨[], #[], hway, .nil⟩
      · exact hround hadmits hway trivial

end RunLogic

end ScriptLint
