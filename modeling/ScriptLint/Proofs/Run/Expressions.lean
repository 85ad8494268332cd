import ScriptLint.Proofs.Phrase.Soundness
import ScriptLint.Proofs.Run.Logic

/-!
# Runs over expressions

Reading an expression records nothing. What it raises, it raises at the current token, or at the
limit, or else at an expression that has been read and is no target of an assignment. `Silent` finds
this by instance search for the steps of an expression. Together with the phrases that are read it
is what the logic needs to know of expressions: `Expr.read_judges`.
-/

namespace ScriptLint

namespace RunLogic

variable {context : Context} {L : RunLogic context} {α β : Type}

/-- A step that records nothing, and raises only what it may. -/
class Silent (L : RunLogic context) (step : Read α) : Prop where
  judges : L.Judges (.Quiet fun _ _ => True) step

namespace Silent

variable {step other : Read α}

/-- A step that always succeeds and records nothing. -/
theorem of_ok (h : ∀ reading, ∃ value later, step reading = .ok value later ∧
    reading.Reaches later ∧ later.errors = reading.errors) : Silent L step := by
  refine ⟨fun reading _ _ => ?_⟩
  obtain ⟨value, later, hrun, ⟨⟨tokens, hahead, hbehind⟩, hmark, -⟩, herrors⟩ := h reading
  rw [hrun]
  exact ⟨tokens, #[], Way.of_passes ⟨hahead, hbehind, hmark, herrors⟩, rfl, trivial⟩

/-- A step that only looks at the reading. -/
theorem look (view : Reading → α) : Silent L (Read.look view) :=
  .of_ok fun reading => ⟨view reading, reading, rfl, .refl reading, rfl⟩

/-- A step that fails at the current token with an error of syntax. -/
theorem failWith {cause : Token → Cause} (h : ∀ token, (cause token).IsSyntax) :
    Silent L (Read.failWith cause : Read α) :=
  ⟨.begin (.fail h)⟩

instance : Silent L (Read.tooDeep context : Read α) :=
  ⟨judges_tooDeep⟩

/-- One silent step and then others. -/
theorem bind {rest : α → Read β} (hstep : Silent L step) (hrest : ∀ value, Silent L (rest value)) :
    Silent L (step >>= rest) := by
  refine ⟨.begin (.quiet hstep.judges fun tokens value _ => .last (hrest value).judges ?_)⟩
  rintro more others result ⟨rfl, -⟩
  exact ⟨rfl, trivial⟩

instance (value : α) : Silent L (pure value : Read α) :=
  .look fun _ => value

instance {rest : α → Read β} [hstep : Silent L step] [hrest : ∀ value, Silent L (rest value)] :
    Silent L (step >>= rest) :=
  .bind hstep hrest

instance {f : α → β} [Silent L step] : Silent L (f <$> step) := by
  rw [Read.map_eq_bind]
  infer_instance

instance {p : Prop} [Decidable p] [hstep : Silent L step] [hother : Silent L other] :
    Silent L (if p then step else other) := by
  split
  · exact hstep
  · exact hother

instance : Silent L Read.current :=
  .look Reading.current

instance (text : String) : Silent L (Read.sees text) :=
  .look (·.current.is text)

instance (close : String) : Silent L (Read.atClose close) :=
  .look fun reading => reading.current.is close || reading.ahead.isEmpty

instance (start : Nat) : Silent L (Read.spanFrom start) :=
  .look (·.spanFrom start)

instance : Silent L Read.advance :=
  .of_ok fun reading =>
    ⟨reading.current, reading.next, rfl, reading.reaches_next, reading.next_errors⟩

instance : Silent L (Read.unexpected : Read α) :=
  .failWith fun _ => trivial

instance (detail : String) : Silent L (Read.unexpectedDetailed detail : Read α) :=
  .failWith fun _ => trivial

instance (text : String) : Silent L (Read.expect text) :=
  ⟨(judges_expect text).mono fun hgood => ⟨hgood.1, trivial⟩⟩

instance (detail : String) : Silent L (Read.expectIdentifier detail) :=
  ⟨(judges_expectIdentifier detail).mono fun hgood => ⟨hgood.1, trivial⟩⟩

instance (text : String) : Silent L (Read.accept text) := by
  unfold Read.accept
  infer_instance

instance {stop : Read Bool} {item : Read α} [Silent L stop] [Silent L item] :
    Silent L (Read.separated stop item) := by
  have hloop (bound : Nat) : Silent L (Read.separatedFrom stop item bound) := by
    induction bound with
    | zero => exact inferInstanceAs (Silent L (pure []))
    | succ bound ih =>
        unfold Read.separatedFrom
        infer_instance
  exact ⟨.bounded fun bound => (hloop bound).judges⟩

end Silent

/-- A silent step that is sound for a relation between tokens and values. -/
theorem judges_of_sound {P : List Token → α → Prop} {step : Read α} [h : Silent L step]
    (hsound : ∀ reading value later, reading.Marked → step reading = .ok value later →
      ∃ tokens, reading.Passes tokens later ∧ P tokens value) :
    L.Judges (.Quiet P) step := by
  intro reading hadmits hcurrent
  have houtcome := h.judges hadmits hcurrent
  cases hrun : step reading with
  | ok value later =>
      obtain ⟨tokens, hpasses, hvalue⟩ := hsound reading value later (L.marked hadmits) hrun
      exact ⟨tokens, #[], Way.of_passes hpasses, rfl, hvalue⟩
  | error error later =>
      rw [hrun] at houtcome
      exact houtcome

end RunLogic

namespace Expr

open RunLogic

variable {context : Context} {L : RunLogic context} {inner : Power → Read Expr}

section Forms

variable [∀ power, Silent L (inner power)]

instance (surroundings : Context) : Silent L (readPrimary surroundings) := by
  unfold readPrimary
  refine .bind inferInstance fun token => ?_
  dsimp only
  split
  case h_2 => split <;> infer_instance
  all_goals infer_instance

instance : Silent L (readProperty inner) := by
  unfold readProperty
  infer_instance

/-- The forms that a phrase can begin with. -/
theorem readLead_silent (surroundings : Context) (form : LeadForm) :
    Silent L (readLead surroundings inner form) := by
  cases form with
  | primary => exact inferInstanceAs (Silent L (readPrimary surroundings))
  | unary =>
      show Silent L (readUnary inner)
      unfold readUnary
      infer_instance
  | grouping =>
      show Silent L (readGrouping inner)
      unfold readGrouping
      infer_instance
  | array =>
      show Silent L (readArray inner)
      unfold readArray
      infer_instance
  | object =>
      show Silent L (readObject inner)
      unfold readObject
      infer_instance

/-- The forms that go on behind a phrase. An assignment to what is no target is reported at what has
been read of it. -/
theorem readTail_follows {left : Expr} {front : List Token} {level : Level}
    (hleft : Phrase context.sourceText level front left) (power : Power) (form : TailForm) :
    L.Follows front #[] (.Quiet fun _ _ => True) (readTail inner left power form) := by
  have hsilent {step : Read Expr} [h : Silent L step] :
      L.Follows front #[] (.Quiet fun _ _ => True) step :=
    .last h.judges fun hgood => ⟨by rw [hgood.1]; rfl, trivial⟩
  cases form with
  | assignment =>
      show L.Follows _ _ _ (readAssignment inner left)
      unfold readAssignment
      split
      · exact hsilent
      · intro start reading hadmits hway _
        exact ⟨⟨front, #[], hway⟩,
          L.raises_target hadmits (Reading.goes_empty_iff.1 hway.1) hleft⟩
  | logical =>
      show L.Follows _ _ _ (readLogical inner left power)
      unfold readLogical
      exact hsilent
  | binary =>
      show L.Follows _ _ _ (readBinary inner left power)
      unfold readBinary
      exact hsilent
  | call =>
      show L.Follows _ _ _ (readCall inner left)
      unfold readCall
      exact hsilent
  | member =>
      show L.Follows _ _ _ (readMember left)
      unfold readMember
      exact hsilent

end Forms

mutual

/-- Reading an expression records nothing, and raises only what it may. -/
theorem read_silent (L : RunLogic context) (hgrammar : context.grammar = .standard)
    (levels : Nat) (power : Power) : Silent L (read context levels power) := by
  cases levels with
  | zero =>
      rw [read]
      infer_instance
  | succ levels =>
      have hinner (power : Power) := read_silent L hgrammar levels power
      refine ⟨fun reading hadmits _ => ?_⟩
      rw [read, Read.bind_of_ok (by rfl)]
      cases hform : context.grammar.lead? reading.current with
      | none => exact Silent.judges hadmits trivial
      | some form =>
          have hsilent : Silent L (readLead context (read context levels) form) :=
            readLead_silent context form
          have hlead := hsilent.judges hadmits trivial
          dsimp only
          cases hrun : readLead context (read context levels) form reading with
          | error error later =>
              rw [hrun] at hlead
              rw [Read.bind_apply, hrun]
              exact hlead
          | ok left later =>
              -- What has been read is kept as a phrase: an assignment may be blamed on it.
              rw [hgrammar] at hform
              obtain ⟨front, level, hpasses, hphrase, -, hends⟩ := readLead_sound hgrammar
                (read_sound hgrammar levels) (L.marked hadmits) hform hrun
              rw [Read.bind_of_ok hrun]
              exact readChain_outcome L hgrammar levels power hphrase hadmits hpasses hends

/-- A chain of operators raises what it may, and its left operand may be what is wrong. -/
theorem readChain_outcome (L : RunLogic context) (hgrammar : context.grammar = .standard)
    (levels : Nat) (power : Power) {left : Expr} {front : List Token}
    {level : Level} (hleft : Phrase context.sourceText level front left)
    {start reading : Reading} (hadmits : L.admits start) (hpasses : start.Passes front reading)
    (hends : reading.current.Ends level) :
    L.Outcome (.Quiet fun _ _ => True) start (readChain context levels power left reading) := by
  have hway : L.Way start front #[] reading := Way.of_passes hpasses
  have hmark := L.marked (L.admits_later hadmits hway.reaches)
  rw [readChain.eq_def, Read.bind_of_ok (by rfl)]
  cases htail : tighterTail? context power reading.current with
  | none => exact ⟨front, #[], hway, rfl, trivial⟩
  | some entry =>
      obtain ⟨next, form⟩ := entry
      have hform := ((tighterTail?_eq_some_iff hgrammar).1 htail).1
      cases levels with
      | zero =>
          have hdeep := L.raises_limit (L.admits_later hadmits hway.reaches)
          exact ⟨⟨front, #[], hway⟩, L.raises_earlier hadmits hway.reaches hdeep⟩
      | succ levels =>
          have hinner (power : Power) := read_silent L hgrammar levels power
          have hfollows : L.Follows front #[] (.Quiet fun _ _ => True)
              (readTail (read context levels) left next form) := readTail_follows hleft next form
          have htailed := hfollows hadmits hway trivial
          dsimp only
          cases hrun : readTail (read context levels) left next form reading with
          | error error later =>
              rw [hrun] at htailed
              rw [Read.bind_apply, hrun]
              exact htailed
          | ok joined later =>
              obtain ⟨tokens, result, hjoined, hphrase, hafter, -⟩ := readTail_sound hgrammar
                (read_sound hgrammar levels) hleft hmark hform (hends next form hform) hrun
              rw [Read.bind_of_ok hrun]
              exact readChain_outcome L hgrammar levels power hphrase hadmits
                (hpasses.trans hjoined) hafter

end

/-- What is read as an expression is a phrase, and nothing is recorded. -/
theorem read_judges (L : RunLogic context) (hgrammar : context.grammar = .standard)
    (levels : Nat) :
    L.Judges (.Quiet (Phrase context.sourceText .assign)) (read context levels .default) := by
  have hsilent := read_silent L hgrammar levels .default
  exact judges_of_sound (read_sound hgrammar levels .default (by decide)).phrase

end Expr

end ScriptLint
