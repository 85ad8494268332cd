import ScriptLint.Proofs.Phrase.Powers

/-!
# Expressions that are read are phrases

If an expression is read with a binding power, the tokens that were passed derive it at the level
below the power, and no operator that binds tighter follows. The proof goes along the levels that
may still be opened; a chain of operators keeps the invariant that its left operand is a phrase of a
level which the next operator can take.
-/

namespace ScriptLint.Expr

open Reading Read

variable {context : Context} {inner : Power → Read Expr} {reading later : Reading} {expr : Expr}

/-- What the step gives is a phrase of the level below the power, made of the tokens that it passes,
and no operator behind them binds tighter. -/
def Derives (context : Context) (power : Power) (step : Read Expr) : Prop :=
  ∀ reading expr later, reading.Marked → step reading = .ok expr later →
    ∃ tokens, reading.Passes tokens later ∧ Phrase context.sourceText power.level tokens expr ∧
      tighterTail? context power later.current = none

/-- What a sound step gives is derived from the tokens that it passes. -/
theorem Derives.phrase {power : Power} {step : Read Expr} (h : Derives context power step)
    (reading : Reading) (expr : Expr) (later : Reading) (hmark : reading.Marked)
    (hrun : step reading = .ok expr later) :
    ∃ tokens, reading.Passes tokens later ∧
      Phrase context.sourceText power.level tokens expr := by
  obtain ⟨tokens, hpasses, hphrase, _⟩ := h reading expr later hmark hrun
  exact ⟨tokens, hpasses, hphrase⟩

/-! ## Lead forms -/

/-- A primary expression is a name or a literal. -/
theorem readPrimary_eq (context : Context) (reading : Reading) :
    readPrimary context reading =
      if reading.current.kind = .identifier then
        .ok (.identifier reading.current.value reading.current.span) reading.next
      else
        match reading.current.literal? with
        | some value =>
            .ok (.literal value (context.sourceText reading.current.span) reading.current.span)
              reading.next
        | none =>
            if reading.current.kind = .number then
              unexpectedDetailed "invalid number literal" reading
            else unexpected reading := by
  rw [readPrimary, bind_of_ok (by rfl)]
  dsimp only
  cases hkind : reading.current.kind
  case number =>
    cases hvalue : Numeral.toDouble? reading.current.value.toList <;>
      simp [Token.literal?, hkind, hvalue, bind_apply, advance, pure, EStateM.pure]
  all_goals simp [Token.literal?, hkind, bind_apply, advance, pure, EStateM.pure]
  split
  · rfl
  split
  · rfl
  split <;> rfl

/-- A literal or a name is derived from its token. -/
theorem readPrimary_sound (hmark : reading.Marked)
    (h : readPrimary context reading = .ok expr later) :
    ∃ token, reading.Passes [token] later ∧
      Phrase context.sourceText .primary [token] expr := by
  rw [readPrimary_eq] at h
  split at h
  next hkind =>
      cases h
      exact ⟨_, passes_next (ahead_ne_nil_of_kind hmark (by simp [hkind])), .identifier hkind⟩
  next =>
      split at h
      next value hvalue =>
          cases h
          have hkind : reading.current.kind ≠ .eof := by
            intro hkind
            simp [Token.literal?, hkind] at hvalue
          exact ⟨_, passes_next (ahead_ne_nil_of_kind hmark hkind), .literal hvalue⟩
      next => split at h <;> cases h

/-- What is read between commas are phrases. -/
theorem separated_sound {view : Reading → Bool} {values : List Expr}
    (hinner : Derives context .default (inner .default)) (hmark : reading.Marked)
    (h : separated (look view) (inner .default) reading = .ok values later) :
    ∃ tokens, reading.Passes tokens later ∧ ∃ parts : List (List Token × Expr),
      (∀ part ∈ parts, Phrase context.sourceText .assign part.1 part.2) ∧
      parts.map Prod.snd = values ∧ Separated Prod.fst parts tokens := by
  refine Read.separated_sound (fun hstart hrun => ?_) hmark h
  obtain ⟨tokens, hpasses, hphrase, _⟩ := hinner _ _ _ hstart hrun
  exact ⟨(tokens, _), hphrase, rfl, hpasses⟩

/-- A property is derived from the tokens of an entry. -/
theorem readProperty_sound {property : Property Expr}
    (hinner : Derives context .default (inner .default)) (hmark : reading.Marked)
    (h : readProperty inner reading = .ok property later) :
    ∃ entry : Entry, Phrase context.sourceText .assign entry.tokens entry.value ∧
      entry.property = property ∧ reading.Passes entry.all later := by
  rw [readProperty, bind_of_ok (by rfl)] at h
  split at h
  next hkind =>
      have hahead : reading.ahead ≠ [] :=
        ahead_ne_nil_of_kind hmark (by rcases hkind with hkind | hkind <;> simp [hkind])
      have hkey := passes_next hahead
      rw [bind_of_ok (by rfl)] at h
      obtain ⟨colon, second, hcolon, h⟩ := bind_ok_iff.1 h
      obtain ⟨hcolon, hsecond⟩ := (expect_passes (hkey.marked hmark)).1 hcolon
      obtain ⟨value, third, hvalue, h⟩ := bind_ok_iff.1 h
      obtain ⟨rfl, rfl⟩ := pure_ok_iff.1 h
      obtain ⟨tokens, hthird, hphrase, _⟩ :=
        hinner _ _ _ (hsecond.marked (hkey.marked hmark)) hvalue
      exact ⟨⟨reading.current, colon, tokens, value, hkind, hcolon⟩, hphrase, rfl,
        hkey.trans (hsecond.trans hthird)⟩
  next => cases h

/-- What is read between two tokens has the tokens of its inside between them. -/
theorem enclosed_sound {α : Type} {close : String} {inside : Read α}
    (result : Token → α → (Nat → Span) → Expr) {G : List Token → α → Prop}
    (hmark : reading.Marked) (hahead : reading.ahead ≠ [])
    (hinside : ∀ start value stop, start.Marked → inside start = .ok value stop →
      ∃ tokens, start.Passes tokens stop ∧ G tokens value)
    (h : (do
      let opening ← Read.advance
      let value ← inside
      let _ ← Read.expect close
      look fun reading => result opening value reading.spanFrom : Read Expr) reading =
        .ok expr later) :
    ∃ tokens closing value, closing.is close = true ∧ G tokens value ∧
      expr = result reading.current value (fun start => Span.upTo start closing) ∧
      reading.Passes (reading.current :: (tokens ++ [closing])) later := by
  have hopening := passes_next hahead
  rw [bind_of_ok (by rfl)] at h
  obtain ⟨value, second, hvalue, h⟩ := bind_ok_iff.1 h
  obtain ⟨tokens, hsecond, hgood⟩ := hinside _ _ _ (hopening.marked hmark) hvalue
  obtain ⟨closing, third, hexpect, h⟩ := bind_ok_iff.1 h
  obtain ⟨hclose, hthird⟩ := (expect_passes (hsecond.marked (hopening.marked hmark))).1 hexpect
  obtain ⟨rfl, rfl⟩ := look_ok_iff.1 h
  have hpasses : reading.Passes (reading.current :: (tokens ++ [closing])) later :=
    hopening.trans (hsecond.trans hthird)
  have hspan : later.spanFrom = fun start => Span.upTo start closing := by
    funext start
    rw [hpasses.spanFrom_upTo, List.getLastD_concat]
  exact ⟨tokens, closing, value, hclose, hgood, by simp only [hspan], hpasses⟩

/-- An expression of a lead form is a phrase of the unary level or a tighter one, and what follows
takes its left operand from that level or a looser one. -/
theorem readLead_sound (hgrammar : context.grammar = .standard)
    (hinner : ∀ power : Power, power.rank ≤ Power.unary.rank → Derives context power (inner power))
    {form : LeadForm} (hmark : reading.Marked)
    (hform : Grammar.leadOf? reading.current = some form)
    (h : readLead context inner form reading = .ok expr later) :
    ∃ tokens level, reading.Passes tokens later ∧ Phrase context.sourceText level tokens expr ∧
      Level.unary.rank ≤ level.rank ∧ later.current.Ends level := by
  have hahead : reading.ahead ≠ [] :=
    ahead_ne_nil (Grammar.standard_stopsAtMark _ hmark).1 hform
  have hdefault := hinner .default (by decide)
  -- Behind a primary phrase every operator can take it.
  have hprimary : ∀ tokens, reading.Passes tokens later →
      Phrase context.sourceText .primary tokens expr →
      ∃ tokens level, reading.Passes tokens later ∧ Phrase context.sourceText level tokens expr ∧
        Level.unary.rank ≤ level.rank ∧ later.current.Ends level := by
    intro tokens hpasses hphrase
    exact ⟨tokens, .primary, hpasses, hphrase, by decide, fun next _ _ =>
      Nat.le_succ_of_le next.left_rank_le⟩
  -- One case for each lead form: a literal or name, an operator, and the three kinds of brackets.
  rcases Grammar.leadOf?_cases hform with rfl | ⟨htoken, rfl⟩ | ⟨htoken, rfl⟩ | ⟨htoken, rfl⟩ |
    ⟨htoken, rfl⟩
  · obtain ⟨token, hpasses, hphrase⟩ := readPrimary_sound hmark h
    exact hprimary _ hpasses hphrase
  · have hoperator := passes_next hahead
    rw [readLead, readUnary, bind_of_ok (by rfl)] at h
    obtain ⟨argument, second, hargument, h⟩ := bind_ok_iff.1 h
    obtain ⟨rfl, rfl⟩ := pure_ok_iff.1 h
    obtain ⟨tokens, hsecond, hphrase, htail⟩ :=
      hinner .unary (by decide) _ _ _ (hoperator.marked hmark) hargument
    refine ⟨_, .unary, hoperator.trans hsecond, .unary htoken hphrase, Nat.le_refl _, ?_⟩
    intro next form hnext
    exact Power.left_rank_mono ((tighterTail?_eq_none_iff hgrammar).1 htail next form hnext)
  · obtain ⟨tokens, closing, value, hclosing, hphrase, rfl, hpasses⟩ :=
      enclosed_sound (fun _ value _ => value) hmark hahead hdefault.phrase h
    exact hprimary _ hpasses (.grouping htoken hphrase hclosing)
  · obtain ⟨tokens, closing, value, hclosing, ⟨parts, hparts, rfl, hseparated⟩, rfl, hpasses⟩ :=
      enclosed_sound
        (fun opening elements spanFrom => .array elements (spanFrom opening.span.start))
        hmark hahead (fun _ _ _ => separated_sound hdefault) h
    exact hprimary _ hpasses (.array htoken hparts hseparated hclosing)
  · obtain ⟨tokens, closing, value, hclosing, ⟨entries, hentries, rfl, hseparated⟩, rfl,
        hpasses⟩ :=
      enclosed_sound
        (fun opening properties spanFrom => .object properties (spanFrom opening.span.start))
        hmark hahead
        (fun _ _ _ => Read.separated_sound fun hstart hrun =>
          readProperty_sound hdefault hstart hrun) h
    exact hprimary _ hpasses (.object htoken hentries hseparated hclosing)

/-! ## Tail forms -/

/-- All infix operators are read in the same way. -/
theorem readTail_operator (inner : Power → Read Expr) (left : Expr) (power : Power)
    (level : Level) :
    readTail inner left power level.form = do
      let operator ← Read.advance
      let right ← inner power
      return level.join operator.value left right := by
  cases level <;> rfl

/-- What an operator makes of a left operand that it can take is a phrase again. Its level is the
one of the left operand, except behind an assignment, where no operator can follow. -/
theorem readTail_sound (hgrammar : context.grammar = .standard)
    (hinner : ∀ power : Power, power.rank ≤ Power.unary.rank → Derives context power (inner power))
    {left : Expr} {front : List Token} {level : Level}
    (hleft : Phrase context.sourceText level front left) {next : Power} {form : TailForm}
    (hmark : reading.Marked) (hform : Grammar.tailOf? reading.current = some (next, form))
    (hlevel : next.left.rank ≤ level.rank)
    (h : readTail inner left next form reading = .ok expr later) :
    ∃ tokens result, reading.Passes tokens later ∧
      Phrase context.sourceText result (front ++ tokens) expr ∧ later.current.Ends result ∧
      ∀ power : Power, power.rank < next.rank → power.level.rank ≤ result.rank := by
  have hahead : reading.ahead ≠ [] :=
    ahead_ne_nil (Grammar.standard_stopsAtMark _ hmark).2.1 hform
  have hoperator := passes_next hahead
  have hdefault := hinner .default (by decide)
  have htaken := hleft.loosen hlevel
  -- An assignment, an operator of a level of the ladder, a call, and a member.
  rcases Grammar.tailOf?_cases hform with ⟨htoken, rfl, rfl⟩ | ⟨joined, htoken, rfl, rfl⟩ |
    ⟨htoken, rfl, rfl⟩ | ⟨htoken, rfl, rfl⟩
  · rw [readTail, readAssignment] at h
    split at h
    next hassignable =>
        rw [bind_of_ok (by rfl)] at h
        obtain ⟨value, second, hvalue, h⟩ := bind_ok_iff.1 h
        obtain ⟨rfl, rfl⟩ := pure_ok_iff.1 h
        obtain ⟨tokens, hsecond, hphrase, htail⟩ :=
          hdefault _ _ _ (hoperator.marked hmark) hvalue
        refine ⟨_, .assign, hoperator.trans hsecond,
          .assignment htaken hassignable htoken hphrase, ?_, ?_⟩
        · -- The value was read with the weakest power, so what follows it binds no operand.
          intro after form hafter
          have hweak := (tighterTail?_eq_none_iff hgrammar).1 htail after form hafter
          exact Power.left_rank_le_level hweak
        · intro power hpower
          revert hpower
          cases power <;> decide
    next => cases h
  · obtain ⟨hsame, hbelow, _, hweaker, _⟩ := Level.power_of_operator htoken
    rw [readTail_operator, bind_of_ok (by rfl)] at h
    obtain ⟨right, second, hright, h⟩ := bind_ok_iff.1 h
    obtain ⟨rfl, rfl⟩ := pure_ok_iff.1 h
    obtain ⟨tokens, hsecond, hphrase, htail⟩ :=
      hinner joined.power hweaker _ _ _ (hoperator.marked hmark) hright
    rw [hsame] at htaken
    rw [hbelow] at hphrase
    refine ⟨_, joined, hoperator.trans hsecond, .operation htaken htoken hphrase, ?_, ?_⟩
    · intro after form hafter
      have hweak := (tighterTail?_eq_none_iff hgrammar).1 htail after form hafter
      exact hsame ▸ Power.left_rank_mono hweak
    · intro power hpower
      exact hsame ▸ Power.level_rank_le_left hpower
  · obtain ⟨tokens, closing, value, hclosing, ⟨parts, hparts, rfl, hseparated⟩, rfl, hpasses⟩ :=
      enclosed_sound (fun _ arguments spanFrom => .call left arguments (spanFrom left.span.start))
        hmark hahead (fun _ _ _ => separated_sound hdefault) h
    exact ⟨_, .suffix, hpasses, .call htaken htoken hparts hseparated hclosing,
      fun after _ _ => after.left_rank_le, fun power hpower => Power.level_rank_le_left hpower⟩
  · rw [readTail, readMember, bind_of_ok (by rfl), bind_of_ok (by rfl)] at h
    split at h
    next hkind =>
        have hname : reading.next.ahead ≠ [] :=
          ahead_ne_nil_of_kind (hoperator.marked hmark)
            (by rcases hkind with hkind | hkind <;> simp [hkind])
        rw [bind_of_ok (by rfl)] at h
        obtain ⟨rfl, rfl⟩ := pure_ok_iff.1 h
        exact ⟨_, .suffix, hoperator.trans (passes_next hname), .member htaken htoken hkind,
          fun after _ _ => after.left_rank_le, fun power hpower => Power.level_rank_le_left hpower⟩
    next => cases h

/-! ## Expressions -/

mutual

/-- What is read with a power up to the unary one is a phrase of the level below the power. -/
theorem read_sound (hgrammar : context.grammar = .standard) (levels : Nat) (power : Power)
    (hpower : power.rank ≤ Power.unary.rank) :
    Derives context power (read context levels power) := by
  intro reading expr later hmark h
  cases levels with
  | zero => cases h
  | succ levels =>
      rw [read, bind_of_ok (by rfl), hgrammar] at h
      cases hform : Grammar.leadOf? reading.current with
      | none => simp [Grammar.standard, hform, unexpected, failWith] at h
      | some form =>
          simp only [Grammar.standard, hform] at h
          obtain ⟨left, middle, hleft, h⟩ := bind_ok_iff.1 h
          obtain ⟨front, level, hfront, hphrase, hunary, hends⟩ :=
            readLead_sound hgrammar (read_sound hgrammar levels) hmark hform hleft
          have hbelow : power.level.rank ≤ level.rank :=
            Nat.le_trans (Power.level_rank_le_unary hpower) hunary
          obtain ⟨tokens, hpasses, hchain, htail⟩ :=
            readChain_sound hgrammar levels power hphrase hbelow (hfront.marked hmark) hends h
          exact ⟨front ++ tokens, hfront.trans hpasses, hchain, htail⟩

/-- A chain of operators makes a phrase of its left operand, if the first operator can take it. -/
theorem readChain_sound (hgrammar : context.grammar = .standard) (levels : Nat) (power : Power)
    {left : Expr} {front : List Token} {level : Level}
    (hleft : Phrase context.sourceText level front left)
    (hlevel : power.level.rank ≤ level.rank) {reading : Reading} (hmark : reading.Marked)
    (hends : reading.current.Ends level) {expr : Expr} {later : Reading}
    (h : readChain context levels power left reading = .ok expr later) :
    ∃ tokens, reading.Passes tokens later ∧
      Phrase context.sourceText power.level (front ++ tokens) expr ∧
      tighterTail? context power later.current = none := by
  rw [readChain.eq_def, bind_of_ok (by rfl)] at h
  cases htail : tighterTail? context power reading.current with
  | none =>
      simp only [htail] at h
      obtain ⟨rfl, rfl⟩ := pure_ok_iff.1 h
      exact ⟨[], .refl _, by simpa using hleft.loosen hlevel, htail⟩
  | some entry =>
      obtain ⟨next, form⟩ := entry
      obtain ⟨hform, htighter⟩ := (tighterTail?_eq_some_iff hgrammar).1 htail
      simp only [htail] at h
      cases levels with
      | zero => cases h
      | succ levels =>
          -- The operator takes the left operand, and the chain goes on with what it makes of it.
          obtain ⟨joined, middle, hjoined, h⟩ := bind_ok_iff.1 h
          obtain ⟨tokens, result, hpasses, hphrase, hafter, hbelow⟩ :=
            readTail_sound hgrammar (read_sound hgrammar levels) hleft hmark hform
              (hends next form hform) hjoined
          obtain ⟨others, hothers, hchain, hnone⟩ :=
            readChain_sound hgrammar levels power hphrase (hbelow power htighter)
              (hpasses.marked hmark) hafter h
          exact ⟨tokens ++ others, hpasses.trans hothers, List.append_assoc .. ▸ hchain, hnone⟩

end

end ScriptLint.Expr
