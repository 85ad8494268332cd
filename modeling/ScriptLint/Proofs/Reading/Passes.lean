import ScriptLint.Proofs.Reasoning.Logic

/-!
# The tokens between two readings

`reading.Passes tokens later` says that reading the tokens `tokens`, and recording nothing, leads
from `reading` to `later`. A step that succeeds is described by the tokens it passes; the lemmas
below do so for the primitive steps, in both directions.
-/

namespace ScriptLint

/-- The mark at the end of the tokens has no form, so no phrase begins or goes on there. -/
def Grammar.StopsAtMark (grammar : Grammar) : Prop :=
  ∀ token : Token, token.kind = .eof →
    grammar.lead? token = none ∧ grammar.tail? token = none ∧ grammar.statement? token = none

/-- The standard grammar has no form for the end mark. -/
theorem Grammar.standard_stopsAtMark : Grammar.standard.StopsAtMark := by
  intro token hkind
  simp [standard, leadOf?, tailOf?, statementOf?, Token.isSpelled, hkind]

/-- From `start` to the end of the token `last`, and never backwards. -/
def Span.upTo (start : Nat) (last : Token) : Span :=
  ⟨start, max last.span.stop start⟩

/-- The span of the tokens of a phrase. -/
def Span.ofTokens : List Token → Span
  | [] => ⟨0, 0⟩
  | first :: rest => Span.upTo first.span.start (rest.getLastD first)

namespace Reading

/-- Reading `tokens` leads from the first reading to the second. -/
structure Passes (reading : Reading) (tokens : List Token) (later : Reading) : Prop where
  ahead : reading.ahead = tokens ++ later.ahead
  behind : later.behind = tokens.reverse ++ reading.behind
  mark : later.mark = reading.mark
  errors : later.errors = reading.errors

/-- The reading has an end mark behind its last token. -/
def Marked (reading : Reading) : Prop :=
  reading.mark.kind = .eof

variable {reading middle later : Reading} {tokens more : List Token} {token : Token}

/-- Passing no token stays in place. -/
theorem Passes.refl (reading : Reading) : reading.Passes [] reading :=
  ⟨rfl, rfl, rfl, rfl⟩

/-- Tokens passed one behind the other. -/
theorem Passes.trans (hfirst : reading.Passes tokens middle) (hsecond : middle.Passes more later) :
    reading.Passes (tokens ++ more) later := by
  refine ⟨?_, ?_, hsecond.mark.trans hfirst.mark, hsecond.errors.trans hfirst.errors⟩
  · rw [hfirst.ahead, hsecond.ahead, List.append_assoc]
  · rw [hsecond.behind, hfirst.behind, List.reverse_append, List.append_assoc]

/-- The mark stays where it is. -/
theorem Passes.marked (h : reading.Passes tokens later) (hmark : reading.Marked) :
    later.Marked := by
  unfold Marked at *
  rw [h.mark, hmark]

/-- Only staying in place passes no token. -/
theorem passes_nil_iff : reading.Passes [] later ↔ later = reading := by
  constructor
  · rintro ⟨hahead, hbehind, hmark, herrors⟩
    cases reading
    cases later
    simp_all
  · rintro rfl
    exact Passes.refl later

/-- The first token that is passed is ahead and current. -/
theorem passes_cons_iff : reading.Passes (token :: tokens) later ↔
    reading.ahead ≠ [] ∧ reading.current = token ∧ reading.next.Passes tokens later := by
  constructor
  · rintro ⟨hahead, hbehind, hmark, herrors⟩
    refine ⟨by simp [hahead], by simp [current, hahead], ?_⟩
    simp only [next, hahead, List.cons_append]
    exact ⟨rfl, by simp [hbehind], hmark, herrors⟩
  · rintro ⟨hne, hcurrent, hpasses⟩
    cases hahead : reading.ahead with
    | nil => exact absurd hahead hne
    | cons first rest =>
        simp only [current, hahead, List.headD_cons] at hcurrent
        subst hcurrent
        simp only [next, hahead] at hpasses
        have hrest : rest = tokens ++ later.ahead := hpasses.ahead
        refine ⟨by rw [hahead, hrest]; rfl, ?_, hpasses.mark, hpasses.errors⟩
        rw [hpasses.behind, List.reverse_cons, List.append_assoc]
        rfl

/-- What passes two lists of tokens passes through a reading between them. -/
theorem passes_append_iff : reading.Passes (tokens ++ more) later ↔
    ∃ middle, reading.Passes tokens middle ∧ middle.Passes more later := by
  constructor
  · intro h
    refine ⟨⟨tokens.reverse ++ reading.behind, more ++ later.ahead, reading.mark,
      reading.errors⟩, ⟨by simp [h.ahead], rfl, rfl, rfl⟩, ?_⟩
    exact ⟨rfl, by simp [h.behind], h.mark, h.errors⟩
  · rintro ⟨middle, hfirst, hsecond⟩
    exact hfirst.trans hsecond

/-- Where a token is ahead, advancing passes it. -/
theorem passes_next (h : reading.ahead ≠ []) : reading.Passes [reading.current] reading.next :=
  passes_cons_iff.2 ⟨h, rfl, Passes.refl _⟩

/-- Two readings with the same tokens between one reading and each of them are the same. -/
theorem Passes.unique (hfirst : reading.Passes tokens middle)
    (hsecond : reading.Passes tokens later) : middle = later := by
  have hahead := List.append_cancel_left (hfirst.ahead.symm.trans hsecond.ahead)
  have hbehind := hfirst.behind.trans hsecond.behind.symm
  have hmark := hfirst.mark.trans hsecond.mark.symm
  have herrors := hfirst.errors.trans hsecond.errors.symm
  cases middle
  cases later
  simp_all

/-- With nothing ahead the mark is the current token. -/
theorem current_of_ahead_nil (h : reading.ahead = []) : reading.current = reading.mark := by
  simp [current, h]

/-- Where the current token has a form that the mark has not, a token is ahead. -/
theorem ahead_ne_nil {α : Type} {form? : Token → Option α} {form : α}
    (hmark : form? reading.mark = none) (h : form? reading.current = some form) :
    reading.ahead ≠ [] := by
  intro hempty
  rw [current_of_ahead_nil hempty, hmark] at h
  cases h

/-- A token that is no end mark is ahead of the mark. -/
theorem ahead_ne_nil_of_kind (hmark : reading.Marked) (h : reading.current.kind ≠ .eof) :
    reading.ahead ≠ [] := by
  intro hempty
  rw [current_of_ahead_nil hempty] at h
  exact h hmark

/-- A token that is spelled is ahead of the mark. -/
theorem ahead_ne_nil_of_is (hmark : reading.Marked) {text : String}
    (h : reading.current.is text = true) : reading.ahead ≠ [] := by
  refine ahead_ne_nil_of_kind hmark fun hkind => ?_
  simp [Token.is, Token.isSpelled, hkind] at h

/-- The token read last is the last of those that were passed. -/
theorem Passes.previousEnd (h : reading.Passes (token :: tokens) later) :
    later.previousEnd = (tokens.getLastD token).span.stop := by
  have hlast : ∀ (tokens : List Token) (token : Token) (rest : List Token),
      ∃ front, (token :: tokens).reverse ++ rest = tokens.getLastD token :: front := by
    intro tokens
    induction tokens with
    | nil => exact fun token rest => ⟨rest, rfl⟩
    | cons first tokens ih =>
        intro token rest
        obtain ⟨front, hfront⟩ := ih first (token :: rest)
        refine ⟨front, ?_⟩
        rw [List.getLastD_cons, ← hfront, @List.reverse_cons _ token (first :: tokens),
          List.append_assoc]
        rfl
  obtain ⟨front, hfront⟩ := hlast tokens token reading.behind
  rw [Reading.previousEnd, h.behind, hfront]

/-- The span from some place to the last token that was passed. -/
theorem Passes.spanFrom_upTo (h : reading.Passes (token :: tokens) later) (start : Nat) :
    later.spanFrom start = Span.upTo start (tokens.getLastD token) := by
  rw [Reading.spanFrom, h.previousEnd, Span.upTo]

/-- The span from the first token that was passed to the last one. -/
theorem Passes.spanFrom (h : reading.Passes (token :: tokens) later) :
    later.spanFrom token.span.start = Span.ofTokens (token :: tokens) :=
  h.spanFrom_upTo token.span.start

end Reading

/-! ## Primitive steps -/

namespace Read

variable {α β : Type} {reading later : Reading} {value : α} {text : String} {token : Token}

/-- Behind a success the rest goes on. -/
theorem bind_of_ok {first : Read α} {rest : α → Read β} (h : first reading = .ok value later) :
    (first >>= rest) reading = rest value later := by
  rw [bind_apply, h]

/-- Two steps succeed if the second one does behind the first. -/
theorem bind_ok_iff {first : Read α} {rest : α → Read β} {result : β} :
    (first >>= rest) reading = .ok result later ↔
      ∃ value middle, first reading = .ok value middle ∧ rest value middle = .ok result later := by
  rw [bind_apply]
  constructor
  · intro h
    cases hfirst : first reading with
    | ok value middle => exact ⟨value, middle, rfl, by rwa [hfirst] at h⟩
    | error error middle => simp [hfirst] at h
  · rintro ⟨value, middle, hfirst, hrest⟩
    rw [hfirst]
    exact hrest

/-- Of two steps, the first one fails, or else the second one does. -/
theorem bind_error_cases {first : Read α} {rest : α → Read β} {error : Error}
    (h : (first >>= rest) reading = .error error later) :
    first reading = .error error later ∨
      ∃ value middle, first reading = .ok value middle ∧
        rest value middle = .error error later := by
  rw [bind_apply] at h
  cases hfirst : first reading with
  | ok value middle =>
      rw [hfirst] at h
      exact .inr ⟨value, middle, rfl, h⟩
  | error failure middle =>
      rw [hfirst] at h
      cases h
      exact .inl rfl

/-- Giving a value changes nothing. -/
theorem pure_ok_iff {result : α} :
    (pure value : Read α) reading = .ok result later ↔ result = value ∧ later = reading := by
  show EStateM.Result.ok value reading = .ok result later ↔ _
  constructor
  · intro h
    cases h
    exact ⟨rfl, rfl⟩
  · rintro ⟨rfl, rfl⟩
    rfl

/-- A changed value is that of the step, changed. -/
theorem map_ok_iff {f : α → β} {step : Read α} {result : β} :
    (f <$> step) reading = .ok result later ↔
      ∃ value, step reading = .ok value later ∧ result = f value := by
  rw [map_eq_bind, bind_ok_iff]
  constructor
  · rintro ⟨value, middle, hstep, hpure⟩
    obtain ⟨rfl, rfl⟩ := pure_ok_iff.1 hpure
    exact ⟨value, hstep, rfl⟩
  · rintro ⟨value, hstep, rfl⟩
    exact ⟨value, later, hstep, rfl⟩

/-- A look changes nothing. -/
theorem look_ok_iff {view : Reading → α} :
    look view reading = .ok value later ↔ value = view reading ∧ later = reading :=
  pure_ok_iff

/-- Taking a token gives the current one. -/
theorem advance_ok_iff :
    advance reading = .ok token later ↔ token = reading.current ∧ later = reading.next := by
  show EStateM.Result.ok reading.current reading.next = .ok token later ↔ _
  constructor
  · intro h
    cases h
    exact ⟨rfl, rfl⟩
  · rintro ⟨rfl, rfl⟩
    rfl

/-- A text that is asked for is read iff it is the current token. -/
theorem expect_ok_iff : expect text reading = .ok token later ↔
    reading.current.is text = true ∧ token = reading.current ∧ later = reading.next := by
  rw [expect_eq, bind_of_ok (by rfl)]
  split
  next h => simp [h, advance_ok_iff]
  next h => simp [h, fail]

/-- Reading a fixed token passes it. -/
theorem expect_passes (hmark : reading.Marked) :
    expect text reading = .ok token later ↔
      token.is text = true ∧ reading.Passes [token] later := by
  rw [expect_ok_iff, Reading.passes_cons_iff, Reading.passes_nil_iff]
  constructor
  · rintro ⟨his, rfl, rfl⟩
    exact ⟨his, Reading.ahead_ne_nil_of_is hmark his, rfl, rfl⟩
  · rintro ⟨his, _, rfl, rfl⟩
    exact ⟨his, rfl, rfl⟩

/-- A name that is asked for is read iff the current token is one. -/
theorem expectIdentifier_ok_iff {detail : String} :
    expectIdentifier detail reading = .ok token later ↔
      reading.current.kind = .identifier ∧ token = reading.current ∧ later = reading.next := by
  show (current >>= fun token =>
    if token.kind = .identifier then advance else unexpectedDetailed detail) reading = _ ↔ _
  rw [bind_of_ok (by rfl)]
  split
  next h => simp [h, advance_ok_iff]
  next h => simp [h, unexpectedDetailed, failWith]

/-- Reading a name passes it. -/
theorem expectIdentifier_passes (hmark : reading.Marked) {detail : String} :
    expectIdentifier detail reading = .ok token later ↔
      token.kind = .identifier ∧ reading.Passes [token] later := by
  rw [expectIdentifier_ok_iff, Reading.passes_cons_iff, Reading.passes_nil_iff]
  constructor
  · rintro ⟨hkind, rfl, rfl⟩
    exact ⟨hkind, Reading.ahead_ne_nil_of_kind hmark (by simp [hkind]), rfl, rfl⟩
  · rintro ⟨hkind, _, rfl, rfl⟩
    exact ⟨hkind, rfl, rfl⟩

/-- A text that may come is read iff it is the current token. -/
theorem accept_ok_iff {seen : Bool} : accept text reading = .ok seen later ↔
    seen = reading.current.is text ∧ later = if seen then reading.next else reading := by
  rw [accept_eq, bind_of_ok (show look _ reading = .ok (reading.current.is text) reading from rfl)]
  cases reading.current.is text with
  | true =>
      show EStateM.Result.ok true reading.next = .ok seen later ↔ _
      constructor
      · intro h
        cases h
        exact ⟨rfl, rfl⟩
      · rintro ⟨rfl, rfl⟩
        rfl
  | false =>
      show EStateM.Result.ok false reading = .ok seen later ↔ _
      constructor
      · intro h
        cases h
        exact ⟨rfl, rfl⟩
      · rintro ⟨rfl, rfl⟩
        rfl

end Read

end ScriptLint
