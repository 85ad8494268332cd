import ScriptLint.Proofs.Alignment.Basic
import ScriptLint.Proofs.Reading.Clean
import ScriptLint.Proofs.Reasoning.Loops

/-!
# Aligned steps

Two readings are aligned if the tokens behind them and ahead of them correspond, apart from those
that the second one has in addition, and so do their errors. `A.Sim R first second` says that two
steps which are run on aligned readings end in the same way, with corresponding values or errors and
in aligned readings again. Where the second reader has more tokens, this is asked only if the first
one has not come to its end: what it looked at then was there for both.
-/

namespace ScriptLint

namespace Alignment

variable (A : Alignment) {α β : Type}

/-- Readings at corresponding places. -/
structure Aligned (reading other : Reading) : Prop where
  ahead : ∃ front, List.Forall₂ A.token reading.ahead front ∧ other.ahead = front ++ A.rest
  behind : ∃ front, List.Forall₂ A.token reading.behind front ∧ other.behind = front ++ A.before
  mark : A.after = none → A.token reading.mark other.mark
  marked : reading.Marked
  marked_other : other.Marked
  errors : ∃ reports, List.Forall₂ A.Report reading.errors.toList reports ∧
    other.errors.toList = A.earlier ++ reports

/-- The reading has not come to an end behind which the second reader goes on. -/
def Within (reading : Reading) : Prop :=
  A.after = none ∨ reading.ahead ≠ []

/-- Steps that end in the same way on aligned readings where the current token has a property,
unless the first one comes to an end behind which the second one goes on. -/
structure SimAt (p : Token → Prop) (R : α → α → Prop) (first second : Read α) : Prop where
  of_ok : ∀ {reading other later : Reading} {value : α}, A.Aligned reading other →
    p reading.current → first reading = .ok value later → A.Within later →
    ∃ value' later', second other = .ok value' later' ∧ R value value' ∧ A.Aligned later later'
  of_error : ∀ {reading other later : Reading} {error : Error}, A.Aligned reading other →
    p reading.current → first reading = .error error later → A.Within later →
    ∃ error' later', second other = .error error' later' ∧ A.Failure error error' ∧
      A.Aligned later later'

/-- Steps that end in the same way on aligned readings, unless the first one comes to an end behind
which the second one goes on. -/
abbrev Sim (R : α → α → Prop) (first second : Read α) : Prop :=
  A.SimAt (fun _ => True) R first second

variable {A} {reading other later : Reading}

/-! ## Aligned readings -/

/-- A reading that goes on to one that has not come to an end has not come to one itself. -/
theorem Within.of_reaches (h : A.Within later) (hreaches : reading.Reaches later) :
    A.Within reading := by
  refine h.imp_right fun hlater hnone => hlater ?_
  have hle := hreaches.length_le
  rw [hnone] at hle
  exact List.length_eq_zero_iff.1 (Nat.le_zero.1 hle)

namespace Aligned

/-- Where the first reading is within, both are at their end or both have a token ahead. -/
theorem ahead_cases (h : A.Aligned reading other) (hwithin : A.Within reading) :
    (reading.ahead = [] ∧ other.ahead = [] ∧ A.after = none) ∨
      ∃ token tokens partner partners, reading.ahead = token :: tokens ∧
        other.ahead = partner :: partners ++ A.rest ∧ A.token token partner ∧
        List.Forall₂ A.token tokens partners := by
  obtain ⟨front, hfront, hahead⟩ := h.ahead
  cases hcase : reading.ahead with
  | nil =>
      rw [hcase, List.forall₂_nil_left_iff] at hfront
      have hafter : A.after = none := hwithin.resolve_right fun hne => hne hcase
      exact .inl ⟨rfl, by simp [hahead, hfront, rest, hafter], hafter⟩
  | cons token tokens =>
      rw [hcase] at hfront
      obtain ⟨partner, partners, htoken, htokens, rfl⟩ := List.forall₂_cons_left_iff.1 hfront
      exact .inr ⟨token, tokens, partner, partners, rfl, hahead, htoken, htokens⟩

/-- The readers look at corresponding tokens. -/
theorem current (h : A.Aligned reading other) (hwithin : A.Within reading) :
    A.token reading.current other.current := by
  unfold Reading.current
  obtain ⟨hnone, hnone', hafter⟩ | ⟨token, tokens, partner, partners, hahead, hahead', htoken, -⟩ :=
    h.ahead_cases hwithin
  · rw [hnone, hnone']
    exact h.mark hafter
  · rw [hahead, hahead']
    exact htoken

/-- Taking a token keeps the readings aligned. -/
theorem next (h : A.Aligned reading other) (hwithin : A.Within reading) :
    A.Aligned reading.next other.next := by
  unfold Reading.next
  obtain ⟨hnone, hnone', -⟩ |
    ⟨token, tokens, partner, partners, hahead, hahead', htoken, htokens⟩ := h.ahead_cases hwithin
  · rw [hnone, hnone']
    exact h
  · obtain ⟨passed, hpassed, hbehind⟩ := h.behind
    rw [hahead, hahead', List.cons_append]
    exact ⟨⟨partners, htokens, rfl⟩, ⟨partner :: passed, .cons htoken hpassed, by simp [hbehind]⟩,
      h.mark, h.marked, h.marked_other, h.errors⟩

/-- Both readers have a token ahead, or neither has. -/
theorem ahead_isEmpty (h : A.Aligned reading other) (hwithin : A.Within reading) :
    reading.ahead.isEmpty = other.ahead.isEmpty := by
  obtain ⟨hnone, hnone', -⟩ | ⟨token, tokens, partner, partners, hahead, hahead', -⟩ :=
    h.ahead_cases hwithin
  · rw [hnone, hnone']
  · rw [hahead, hahead']
    rfl

/-- The second reader has the tokens in front in addition. -/
theorem position (h : A.Aligned reading other) :
    other.position = reading.position + A.before.length := by
  obtain ⟨passed, hpassed, hbehind⟩ := h.behind
  simp [Reading.position, hbehind, hpassed.length_eq]

/-- The last tokens that were taken end at corresponding places. -/
theorem ends (h : A.Aligned reading other) :
    A.Ends reading.previousEnd other.previousEnd := by
  obtain ⟨passed, hpassed, hbehind⟩ := h.behind
  unfold Reading.previousEnd
  rw [hbehind]
  cases hcase : reading.behind with
  | nil =>
      rw [hcase, List.forall₂_nil_left_iff] at hpassed
      rw [hpassed, List.nil_append]
      refine .inr ⟨rfl, ?_⟩
      cases A.before <;> rfl
  | cons token rest =>
      rw [hcase] at hpassed
      obtain ⟨partner, partners, htoken, -, rfl⟩ := List.forall₂_cons_left_iff.1 hpassed
      exact .inl ⟨token, partner, htoken, rfl, rfl⟩

/-- Corresponding reports keep readings aligned. -/
theorem push (h : A.Aligned reading other) {report report' : ParseError}
    (hreport : A.Report report report') :
    A.Aligned { reading with errors := reading.errors.push report }
      { other with errors := other.errors.push report' } := by
  obtain ⟨reports, hreports, herrors⟩ := h.errors
  refine ⟨h.ahead, h.behind, h.mark, h.marked, h.marked_other, reports ++ [report'], ?_, ?_⟩
  · rw [Array.toList_push]
    exact List.rel_append hreports (.cons hreport .nil)
  · rw [Array.toList_push, herrors, List.append_assoc]

/-- Aligned readings skip to corresponding places. -/
theorem skipAhead (hA : A.LawfulTokens) (inMatch : Bool) (h : A.Aligned reading other)
    (hwithin : A.Within (reading.skipAhead (A.here inMatch))) :
    A.Aligned (reading.skipAhead (A.here inMatch)) (other.skipAhead (A.there inMatch)) := by
  have hstart := hwithin.of_reaches (Reading.reaches_skipAhead (A.here inMatch) reading)
  -- The induction is on the tokens ahead; each round of the skipping is a `next`.
  induction hlength : reading.ahead.length generalizing reading other with
  | zero =>
      obtain ⟨hnone, hnone', -⟩ | ⟨token, tokens, partner, partners, hahead, -⟩ :=
        h.ahead_cases hstart
      · rwa [Reading.skipAhead_of_nil _ hnone, Reading.skipAhead_of_nil _ hnone']
      · simp [hahead] at hlength
  | succ length ih =>
      obtain ⟨hnone, -⟩ |
        ⟨token, tokens, partner, partners, hahead, hahead', htoken, htokens⟩ :=
        h.ahead_cases hstart
      · simp [hnone] at hlength
      have hnext := h.next hstart
      rw [Reading.skipAhead_of_cons _ hahead] at hwithin ⊢
      rw [Reading.skipAhead_of_cons _ hahead', ← hA.is_eq htoken, ← hA.isRestart_eq htoken]
      cases hsemicolon : token.is ";" with
      | true => exact hnext
      | false =>
          cases hrestart : (A.here inMatch).isRestart token with
          | true => exact h
          | false =>
              simp only [hsemicolon, hrestart, Bool.false_eq_true, if_false] at hwithin ⊢
              refine ih hnext hwithin ?_ ?_
              · exact hwithin.of_reaches (Reading.reaches_skipAhead _ _)
              · simpa [Reading.next, hahead] using hlength

/-- Aligned readings go on at corresponding places after an error. -/
theorem resync (hA : A.LawfulTokens) (inMatch : Bool) (start : Nat) (h : A.Aligned reading other)
    (hwithin : A.Within (reading.resync (A.here inMatch) start)) :
    A.Aligned (reading.resync (A.here inMatch) start)
      (other.resync (A.there inMatch) (start + A.before.length)) := by
  have hstart := hwithin.of_reaches (Reading.reaches_resync (A.here inMatch) start reading)
  unfold Reading.resync at hwithin ⊢
  rw [h.position, ← hA.is_eq (h.current hstart)]
  simp only [Nat.add_right_cancel_iff]
  split at hwithin
  next hplace =>
      rw [if_pos hplace, if_pos hplace]
      split at hwithin
      next hsemicolon =>
          rw [if_pos hsemicolon, if_pos hsemicolon]
          exact h.next hstart
      next hsemicolon =>
          rw [if_neg hsemicolon, if_neg hsemicolon]
          exact (h.next hstart).skipAhead hA inMatch hwithin
  next hplace =>
      rw [if_neg hplace, if_neg hplace]
      exact h.skipAhead hA inMatch hwithin

end Aligned

/-- Fresh errors correspond if their causes and spans do. -/
theorem Lawful.failure (hA : A.Lawful) {cause cause' : Cause} {span span' : Span}
    (hcause : A.cause cause cause') (hspan : A.span span span') :
    A.Failure (.ofCause cause span) (.ofCause cause' span') :=
  ⟨hcause, hspan, by simp only [Error.ofCause, hA.category hcause]⟩

/-- Corresponding errors are reported in corresponding ways. -/
theorem Failure.report {error error' : Error} (h : A.Failure error error') :
    A.Report (.ofError error) (.ofError error') :=
  ⟨error.cause, error'.cause, h.1, rfl, rfl, h.2.1⟩

/-! ## Rules for primitive steps -/

namespace SimAt

variable {p : Token → Prop} {R : α → α → Prop} {Q : β → β → Prop} {first second : Read α}

/-- Less may be said of the values. -/
theorem mono {S : α → α → Prop} (h : A.SimAt p R first second)
    (hweak : ∀ value value', R value value' → S value value') : A.SimAt p S first second where
  of_ok haligned hcurrent hrun hwithin := by
    obtain ⟨value', later', hrun', hvalue, hlater⟩ := h.of_ok haligned hcurrent hrun hwithin
    exact ⟨value', later', hrun', hweak _ _ hvalue, hlater⟩
  of_error := h.of_error

/-- More may be asked of the current token. -/
theorem narrow {q : Token → Prop} (h : A.SimAt p R first second) (hq : ∀ token, q token → p token) :
    A.SimAt q R first second :=
  ⟨fun haligned hcurrent => h.of_ok haligned (hq _ hcurrent),
    fun haligned hcurrent => h.of_error haligned (hq _ hcurrent)⟩

/-- Steps that correspond everywhere correspond at some tokens. -/
theorem restrict (h : A.Sim R first second) : A.SimAt p R first second :=
  h.narrow fun _ _ => trivial

/-- A value that is given outright. -/
theorem give {value value' : α} (h : R value value') : A.Sim R (pure value) (pure value') where
  of_ok := by
    intro reading other later given haligned _ hrun _
    cases hrun
    exact ⟨value', other, rfl, h, haligned⟩
  of_error _ _ hrun := by cases hrun

/-- Steps that only look. -/
theorem look {view view' : Reading → α}
    (h : ∀ {reading other}, A.Aligned reading other → A.Within reading →
      R (view reading) (view' other)) : A.Sim R (Read.look view) (Read.look view') where
  of_ok := by
    intro reading other later given haligned _ hrun hwithin
    cases hrun
    exact ⟨view' other, other, rfl, h haligned hwithin, haligned⟩
  of_error _ _ hrun := by cases hrun

/-- Steps that fail without reading. -/
theorem fail {error error' : Reading → Error}
    (h : ∀ {reading other}, A.Aligned reading other → A.Within reading →
      A.Failure (error reading) (error' other)) :
    A.Sim R (Read.fail error) (Read.fail error') where
  of_ok _ _ hrun := by cases hrun
  of_error := by
    intro reading other later given haligned _ hrun hwithin
    cases hrun
    exact ⟨error' other, other, rfl, h haligned hwithin, haligned⟩

/-- Taking a token gives the two that were looked at. -/
theorem advance : A.SimAt p (fun token other => A.token token other ∧ p token) Read.advance
    Read.advance where
  of_ok := by
    intro reading other later given haligned hcurrent hrun hwithin
    cases hrun
    have hstart := hwithin.of_reaches reading.reaches_next
    exact ⟨_, _, rfl, ⟨haligned.current hstart, hcurrent⟩, haligned.next hstart⟩
  of_error _ _ hrun := by cases hrun

/-- Corresponding errors are recorded behind those that are there. -/
theorem record {report report' : ParseError} (h : A.Report report report') :
    A.Sim Eq (Read.record report) (Read.record report') where
  of_ok := by
    intro reading other later given haligned _ hrun _
    cases hrun
    exact ⟨(), _, rfl, rfl, haligned.push h⟩
  of_error _ _ hrun := by cases hrun

/-! ## Rules for combinators -/

/-- What follows moves forward, so where the whole stays within, so did its first step. -/
theorem bind_of_forward {rest others : α → Read β} (hfirst : A.SimAt p R first second)
    (hforward : ∀ value, Read.Forward (rest value))
    (hrest : ∀ value value', R value value' → A.Sim Q (rest value) (others value')) :
    A.SimAt p Q (first >>= rest) (second >>= others) where
  of_ok := by
    intro reading other last result haligned hcurrent hrun hwithin
    obtain ⟨value, later, hstep, hnext⟩ := Read.bind_ok_iff.1 hrun
    have hmiddle := hwithin.of_reaches ((hforward value).moves.of_ok hnext).2
    obtain ⟨value', later', hstep', hvalue, hlater⟩ :=
      hfirst.of_ok haligned hcurrent hstep hmiddle
    rw [Read.bind_of_ok hstep']
    exact (hrest value value' hvalue).of_ok hlater trivial hnext hwithin
  of_error := by
    intro reading other last error haligned hcurrent hrun hwithin
    rw [Read.bind_apply] at hrun ⊢
    cases hstep : first reading with
    | error failure later =>
        rw [hstep] at hrun
        cases hrun
        obtain ⟨error', later', hstep', hfailure⟩ := hfirst.of_error haligned hcurrent hstep hwithin
        rw [hstep']
        exact ⟨error', later', rfl, hfailure⟩
    | ok value later =>
        rw [hstep] at hrun
        have hmiddle := hwithin.of_reaches ((hforward value).moves.of_error hrun)
        obtain ⟨value', later', hstep', hvalue, hlater⟩ :=
          hfirst.of_ok haligned hcurrent hstep hmiddle
        rw [hstep']
        exact (hrest value value' hvalue).of_error hlater trivial hrun hwithin

/-- One step behind another. The first one has not come to an end if the second one has not. -/
theorem bind {rest others : α → Read β} [hforward : ∀ value, Read.Forward (rest value)]
    (hfirst : A.SimAt p R first second)
    (hrest : ∀ value value', R value value' → A.Sim Q (rest value) (others value')) :
    A.SimAt p Q (first >>= rest) (second >>= others) :=
  hfirst.bind_of_forward hforward hrest

/-- In front of a step that only looks, the whole moves forward as what follows does. -/
theorem look_bind {view view' : Reading → α} {rest others : α → Read β}
    (hlook : A.Sim R (Read.look view) (Read.look view'))
    (hforward : Read.Forward (Read.look view >>= rest))
    (hrest : ∀ value value', R value value' → A.Sim Q (rest value) (others value')) :
    A.Sim Q (Read.look view >>= rest) (Read.look view' >>= others) where
  of_ok := by
    intro reading other later result haligned _ hrun hwithin
    have hstart := hwithin.of_reaches (hforward.moves.of_ok hrun).2
    obtain ⟨value', later', hstep', hvalue, hlater⟩ := hlook.of_ok haligned trivial rfl hstart
    rw [Read.bind_of_ok hstep']
    exact (hrest _ value' hvalue).of_ok hlater trivial hrun hwithin
  of_error := by
    intro reading other later error haligned _ hrun hwithin
    have hstart := hwithin.of_reaches (hforward.moves.of_error hrun)
    obtain ⟨value', later', hstep', hvalue, hlater⟩ := hlook.of_ok haligned trivial rfl hstart
    rw [Read.bind_of_ok hstep']
    exact (hrest _ value' hvalue).of_error hlater trivial hrun hwithin

/-- A value that is made from the one of a step. -/
theorem map {f g : α → β} (h : A.SimAt p R first second)
    (hf : ∀ value value', R value value' → Q (f value) (g value')) :
    A.SimAt p Q (f <$> first) (g <$> second) := by
  rw [Read.map_eq_bind, Read.map_eq_bind]
  exact h.bind fun value value' hvalue => give (hf value value' hvalue)

/-- A step that depends on the current token may rely on it when it reads that token. -/
theorem current_bind {rest others : Token → Read β}
    (hforward : Read.Forward (Read.current >>= rest))
    (h : ∀ token other, A.token token other → A.SimAt (· = token) Q (rest token) (others other)) :
    A.Sim Q (Read.current >>= rest) (Read.current >>= others) where
  of_ok := by
    intro reading other later value haligned _ hrun hwithin
    have hstart := hwithin.of_reaches (hforward.moves.of_ok hrun).2
    exact (h _ _ (haligned.current hstart)).of_ok haligned rfl hrun hwithin
  of_error := by
    intro reading other later error haligned _ hrun hwithin
    have hstart := hwithin.of_reaches (hforward.moves.of_error hrun)
    exact (h _ _ (haligned.current hstart)).of_error haligned rfl hrun hwithin

/-- Errors become fatal for both readers. -/
theorem fatally (h : A.SimAt p R first second) :
    A.SimAt p R (Read.fatally first) (Read.fatally second) where
  of_ok := by
    intro reading other later value haligned hcurrent hrun hwithin
    obtain ⟨value', later', hrun', hlater⟩ :=
      h.of_ok haligned hcurrent (Read.fatally_ok_iff.1 hrun) hwithin
    exact ⟨value', later', Read.fatally_ok_iff.2 hrun', hlater⟩
  of_error := by
    intro reading other later error haligned hcurrent hrun hwithin
    unfold Read.fatally at hrun ⊢
    cases hstep : first reading with
    | ok value after => simp [hstep] at hrun
    | error failure after =>
        rw [hstep] at hrun
        cases hrun
        obtain ⟨error', later', hstep', hfailure, hlater⟩ :=
          h.of_error haligned hcurrent hstep hwithin
        rw [hstep']
        exact ⟨error'.escalate, later', rfl, ⟨hfailure.1, hfailure.2.1, rfl⟩, hlater⟩

/-- Loops with different bounds correspond if they do so with the same one, since the bounds do not
matter. -/
theorem bounded {loop loop' : Nat → Read α} (hsteady : Read.Steady loop)
    (hsteady' : Read.Steady loop') (h : ∀ bound, A.Sim R (loop bound) (loop' bound)) :
    A.Sim R (Read.bounded loop) (Read.bounded loop') := by
  have hshare (reading other : Reading) (haligned : A.Aligned reading other) : ∃ bound,
      Read.bounded loop reading = loop bound reading ∧
        Read.bounded loop' other = loop' bound other := by
    let bound := max (reading.ahead.length + 1) (other.ahead.length + 1)
    refine ⟨bound, ?_, ?_⟩
    · exact hsteady _ _ reading haligned.marked (Nat.lt_succ_self _) (Nat.le_max_left _ _)
    · exact hsteady' _ _ other haligned.marked_other (Nat.lt_succ_self _) (Nat.le_max_right _ _)
  constructor
  · intro reading other later value haligned _ hrun hwithin
    obtain ⟨bound, hfirst, hsecond⟩ := hshare reading other haligned
    rw [hfirst] at hrun
    rw [hsecond]
    exact (h bound).of_ok haligned trivial hrun hwithin
  · intro reading other later error haligned _ hrun hwithin
    obtain ⟨bound, hfirst, hsecond⟩ := hshare reading other haligned
    rw [hfirst] at hrun
    rw [hsecond]
    exact (h bound).of_error haligned trivial hrun hwithin

theorem hasTokens : A.Sim Eq Read.hasTokens Read.hasTokens :=
  look fun haligned hwithin => by rw [haligned.ahead_isEmpty hwithin]

/-! ## Rules that need the laws -/

section Lawful

variable (hA : A.Lawful)

include hA

/-- A look for a text. -/
theorem sees (text : String) : A.Sim Eq (Read.sees text) (Read.sees text) :=
  look fun haligned hwithin => hA.is_eq (haligned.current hwithin) text

/-- A look for a closing text or the end. -/
theorem atClose (close : String) : A.Sim Eq (Read.atClose close) (Read.atClose close) :=
  look fun haligned hwithin => by
    rw [hA.is_eq (haligned.current hwithin), haligned.ahead_isEmpty hwithin]

/-- The span from corresponding places up to the last tokens. -/
theorem spanFrom {span span' : Span} (h : A.span span span') :
    A.Sim A.span (Read.spanFrom span.start) (Read.spanFrom span'.start) :=
  look fun haligned _ => hA.upTo h haligned.ends

/-- A failure at the current token, with a cause that may show it. -/
theorem failWith {cause cause' : Token → Cause}
    (h : ∀ {token other}, A.token token other → A.cause (cause token) (cause' other)) :
    A.Sim R (Read.failWith cause) (Read.failWith cause') :=
  fail fun haligned hwithin =>
    have htoken := haligned.current hwithin
    hA.failure (h htoken) (hA.token_span htoken)

theorem unexpected : A.Sim R Read.unexpected Read.unexpected :=
  failWith hA hA.unexpected

theorem unexpectedDetailed (detail : String) :
    A.Sim R (Read.unexpectedDetailed detail) (Read.unexpectedDetailed detail) :=
  failWith hA (hA.detailed detail)

/-- The limit on levels is the same for both readers. -/
theorem tooDeep (inMatch : Bool) :
    A.Sim R (Read.tooDeep (A.here inMatch)) (Read.tooDeep (A.there inMatch)) := by
  refine failWith hA fun _ => ?_
  show A.cause (.recursionLimit A.context.limit) (.recursionLimit A.other.limit)
  rw [hA.limit]
  exact hA.refl _ (by simp [Cause.category])

/-- A text that must come now, or else the token in its place is shown. -/
theorem expect (text : String) :
    A.Sim A.token (Read.expect text) (Read.expect text) := by
  refine (sees hA text).bind fun seen seen' hseen => ?_
  subst hseen
  cases seen with
  | true => exact advance.mono fun _ _ h => h.1
  | false => exact failWith hA (hA.expected text)

/-- A name that must come now. -/
theorem expectIdentifier (detail : String) :
    A.Sim A.token (Read.expectIdentifier detail) (Read.expectIdentifier detail) := by
  refine current_bind inferInstance fun token other htoken => ?_
  rw [← hA.kind htoken]
  split
  · exact advance.mono fun _ _ h => h.1
  · exact (unexpectedDetailed hA detail).restrict

/-- Taking a text if it is there. -/
theorem accept (text : String) : A.Sim Eq (Read.accept text) (Read.accept text) := by
  refine (sees hA text).bind fun seen seen' hseen => ?_
  subst hseen
  cases seen with
  | true => exact advance.bind fun _ _ _ => give rfl
  | false => exact give rfl

/-- Corresponding steps are recovered from in corresponding ways. -/
theorem recovering (inMatch : Bool) (h : A.Sim R first second) :
    A.Sim (Option.Rel R) (Read.recovering (A.here inMatch) first)
      (Read.recovering (A.there inMatch) second) where
  of_ok := by
    intro reading other last found haligned _ hrun hwithin
    rcases Read.recovering_ok_cases hrun with
      ⟨value, rfl, hstep⟩ | ⟨error, later, rfl, hstep, hfatal, rfl⟩
    · obtain ⟨value', later', hstep', hvalue, hlater⟩ := h.of_ok haligned trivial hstep hwithin
      exact ⟨some value', later', Read.recovering_of_ok _ hstep', .some hvalue, hlater⟩
    · have hmiddle := hwithin.of_reaches (Reading.reaches_resync _ _ _)
      obtain ⟨error', later', hstep', hfailure, hlater⟩ :=
        h.of_error haligned trivial hstep hmiddle
      have hrecovers := Read.recovering_of_error (A.there inMatch) hstep'
        (hfailure.2.2.symm.trans hfatal)
      rw [haligned.position] at hrecovers
      exact ⟨none, _, hrecovers, .none, (hlater.push hfailure.report).resync hA.toLawfulTokens
        inMatch reading.position hwithin⟩
  of_error := by
    intro reading other last error haligned _ hrun hwithin
    obtain ⟨hstep, hfatal⟩ := Read.recovering_error_cases hrun
    obtain ⟨error', later', hstep', hfailure, hlater⟩ := h.of_error haligned trivial hstep hwithin
    exact ⟨error', later', Read.recovering_of_fatal _ hstep' (hfailure.2.2.symm.trans hfatal),
      hfailure, hlater⟩

omit hA in
/-- Items one after the other, by induction on the bound of the loop. The readers stop at the same
place. -/
theorem collect {stop stop' : Read Bool} {item item' : Read (Option α)}
    (hstop : A.Sim Eq stop stop') (hhalts : Read.Halts stop) (hhalts' : Read.Halts stop')
    [Read.Forward stop] [Read.Progress item] [Read.Progress item']
    (hitem : A.Sim (Option.Rel R) item item') :
    A.Sim (List.Forall₂ R) (Read.collect stop item) (Read.collect stop' item') := by
  refine bounded (Read.steady_collectFrom hhalts) (Read.steady_collectFrom hhalts') fun bound => ?_
  induction bound with
  | zero => exact give .nil
  | succ bound ih =>
      refine hstop.bind fun halted halted' hhalted => ?_
      subst hhalted
      cases halted with
      | true => exact give .nil
      | false =>
          refine hitem.bind fun found found' hfound => ?_
          refine ih.bind fun later later' hlater => give ?_
          cases hfound with
          | none => exact hlater
          | some hvalue => exact .cons hvalue hlater

/-- Items with commas between them, one item for another. -/
theorem separated {stop stop' : Read Bool} {item item' : Read α} (hstop : A.Sim Eq stop stop')
    [Read.Forward stop] [Read.Forward stop'] [Read.Forward item] [Read.Forward item']
    (hitem : A.Sim R item item') :
    A.Sim (List.Forall₂ R) (Read.separated stop item) (Read.separated stop' item') := by
  refine bounded Read.steady_separatedFrom Read.steady_separatedFrom fun bound => ?_
  induction bound with
  | zero => exact give .nil
  | succ bound ih =>
      refine hstop.bind fun halted halted' hhalted => ?_
      subst hhalted
      cases halted with
      | true => exact give .nil
      | false =>
          refine hitem.bind fun found found' hfound => ?_
          refine (accept hA ",").bind fun comma comma' hcomma => ?_
          subst hcomma
          cases comma with
          | true => exact ih.bind fun later later' hlater => give (.cons hfound hlater)
          | false => exact give (.cons hfound .nil)

end Lawful

end SimAt

end Alignment

end ScriptLint
