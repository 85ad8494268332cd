import ScriptLint.Proofs.Placement.Phrases
import ScriptLint.Proofs.Reading.Over
import ScriptLint.Proofs.Run.Statements

/-!
# Fatal errors stand behind a header

An error in an expression, a type or a header is raised at a token that is still ahead, or at an
expression that has been read since, so it never stands before the token read last. Only the headers
of loops, functions and classes, and the braces behind them, make such an error fatal. By then the
keyword of the header has been read.
-/

namespace ScriptLint

/-- Whether a token is a keyword that makes the errors in the header behind it fatal. -/
def Token.opensHeader (token : Token) : Bool :=
  token.kind == .keyword && headerKeywords.contains token.value

/-- The tokens that are spelled like a keyword with a header are keywords. -/
def Token.HeadersKnown (tokens : List Token) : Prop :=
  ∀ token ∈ tokens, token.isAny headerKeywords = true → token.opensHeader = true

/-- The error is one of syntax and begins behind a keyword with a header. -/
def Error.InHeader (tokens : List Token) (error : Error) : Prop :=
  error.cause.IsSyntax ∧
    ∃ token ∈ tokens, token.opensHeader = true ∧ token.span.stop ≤ error.span.start

/-- The reading goes over the tokens, and its mark stands behind all of them. -/
structure Reading.Bounded (tokens : List Token) (reading : Reading) : Prop
    extends reading.Over tokens where
  before_mark : ∀ token ∈ tokens, token.span.stop ≤ reading.mark.span.start

namespace Reading.Bounded

variable {tokens passed : List Token} {reading later : Reading} {span : Span}

/-- Further on the mark stands behind the same tokens. -/
theorem reaches (h : reading.Bounded tokens) (hreaches : reading.Reaches later) :
    later.Bounded tokens := by
  refine ⟨h.toOver.reaches hreaches, ?_⟩
  rw [hreaches.mark]
  exact h.before_mark

/-- The current token begins behind the token read last, and so does the mark. -/
theorem previousEnd_le_current (h : reading.Bounded tokens) :
    reading.previousEnd ≤ reading.current.span.start := by
  cases hahead : reading.ahead with
  | nil =>
      have hcurrent : reading.current = reading.mark := by simp [current, hahead]
      rw [hcurrent]
      unfold previousEnd
      split
      · exact Nat.zero_le _
      next last rest hbehind =>
        exact h.before_mark last (h.toOver.mem_of_behind (by simp [hbehind]))
  | cons token rest =>
      have hcurrent : reading.current = token := by simp [current, hahead]
      rw [hcurrent]
      exact h.toOver.previousEnd_le_start (by simp [hahead])

/-- What has been read since begins behind the token that was read last before. -/
theorem previousEnd_le_among (h : reading.Bounded tokens) (hpasses : reading.Passes passed later)
    (hspan : span.Among passed) : reading.previousEnd ≤ span.start := by
  obtain ⟨token, hmem, hstart⟩ := hspan.starts
  rw [← hstart]
  refine h.toOver.previousEnd_le_start ?_
  rw [hpasses.ahead]
  exact List.mem_append_left _ hmem

end Reading.Bounded

namespace RunLogic

variable {tokens : List Token} {reading later : Reading} {error : Error}

/-- The error is that of the nesting limit, or it is not fatal and stands behind the token read
last, or it is fatal and stands in a header. -/
def Excused (tokens : List Token) (limit : Nat) (reading : Reading) (error : Error) : Prop :=
  error.IsLimit limit ∨
    (error.fatal = false ∧ error.cause.IsSyntax ∧ reading.previousEnd ≤ error.span.start) ∨
    error.fatal = true ∧ error.InHeader tokens

/-- What is excused further on is excused from the start. -/
theorem Excused.earlier {limit : Nat} (h : Excused tokens limit later error)
    (hover : reading.Over tokens) (hreaches : reading.Reaches later) :
    Excused tokens limit reading error := by
  rcases h with hlimit | ⟨hfatal, hcause, hstart⟩ | hheader
  · exact .inl hlimit
  · exact .inr (.inl ⟨hfatal, hcause, Nat.le_trans (hover.previousEnd_le hreaches) hstart⟩)
  · exact .inr (.inr hheader)

/-- Behind the keyword of a header an error may be made fatal. -/
theorem Excused.escalate {limit : Nat} (h : Excused tokens limit reading error)
    (hover : reading.Over tokens) {keyword : Token} (hmem : keyword ∈ reading.behind)
    (hopens : keyword.opensHeader = true) : Excused tokens limit reading error.escalate := by
  rcases h with hlimit | ⟨-, hcause, hstart⟩ | ⟨-, hheader⟩
  · exact .inl ⟨hlimit.1, rfl⟩
  · -- The error stands behind all that has been read, and so behind the keyword.
    exact .inr (.inr ⟨rfl, hcause, keyword, hover.mem_of_behind hmem, hopens,
      Nat.le_trans (hover.stop_le_previousEnd hmem) hstart⟩)
  · exact .inr (.inr ⟨rfl, hheader⟩)

/-- The logic of what reading may fail with. -/
def excusing (context : Context) (hknown : Token.HeadersKnown tokens) : RunLogic context where
  admits := Reading.Bounded tokens
  raises := Excused tokens context.limit
  records _ := True
  marked hbounded := hbounded.marked
  admits_later hbounded hreaches := hbounded.reaches hreaches
  raises_earlier hbounded hreaches hraises := hraises.earlier hbounded.toOver hreaches
  raises_here hbounded hcause :=
    .inr (.inl ⟨hcause.not_fatal _, hcause, hbounded.previousEnd_le_current⟩)
  raises_limit _ := .inl ⟨rfl, rfl⟩
  raises_target hbounded hpasses hphrase :=
    have hamong := hphrase.among (hbounded.toOver.inOrder_of_passes hpasses)
    .inr (.inl ⟨rfl, trivial, hbounded.previousEnd_le_among hpasses hamong⟩)
  raises_fatally hbounded hmem hheader hraises :=
    hraises.escalate hbounded.toOver hmem
      (hknown _ (hbounded.toOver.mem_of_behind hmem) hheader)
  records_raised _ _ _ := trivial
  records_semicolon _ _ _ := trivial
  records_default _ _ := trivial

end RunLogic

/-- The fatal errors of a list of statements are nesting errors, or stand behind a keyword with a
header. -/
theorem Program.readStatements_excused {tokens : List Token} (hknown : Token.HeadersKnown tokens)
    {context : Context} (hgrammar : context.grammar = .standard) {levels : Nat}
    {reading later : Reading} {error : Error} (hbounded : reading.Bounded tokens)
    (h : readStatements context levels reading = .error error later) (hfatal : error.fatal = true) :
    error.IsLimit context.limit ∨ error.InHeader tokens := by
  have houtcome := readStatements_judges (.excusing context hknown) hgrammar
    (Stmt.Accounts.free_closed context.sourceText) levels hbounded trivial
  rw [h] at houtcome
  rcases houtcome.2 with hlimit | ⟨hnot, -⟩ | ⟨-, hheader⟩
  · exact .inl hlimit
  · rw [hfatal] at hnot
    cases hnot
  · exact .inr hheader

end ScriptLint
