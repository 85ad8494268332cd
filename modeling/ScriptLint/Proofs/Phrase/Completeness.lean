import ScriptLint.Proofs.Phrase.Soundness

/-!
# Phrases are read

Where the tokens of a phrase are ahead and the token behind them ends the phrase, a reader with one
level more than there are tokens reads it. The induction over the phrase is generalised to what
follows: a reader at the tokens of a phrase does what a reader does behind them that has the phrase
as its left operand. So left recursion in the grammar becomes a chain of operators.
-/

namespace ScriptLint

namespace Reading

variable {reading later : Reading} {token : Token} {tokens : List Token}

/-- Passing a token leaves fewer of them. -/
theorem Passes.length_lt (h : reading.Passes (token :: tokens) later) :
    later.ahead.length < reading.ahead.length := by
  rw [h.ahead, List.length_append, List.length_cons]
  omega

end Reading

namespace Expr

open Reading Read

variable {context : Context} {power : Power} {reading middle later : Reading}
  {left joined expr : Expr}

/-- With levels enough, the expression is read. -/
def Reads (context : Context) (power : Power) (reading : Reading) (expr : Expr)
    (later : Reading) : Prop :=
  ∀ levels, reading.ahead.length < levels → read context levels power reading = .ok expr later

/-- With levels enough, the chain of operators behind `left` is read. -/
def Chains (context : Context) (power : Power) (left : Expr) (reading : Reading) (expr : Expr)
    (later : Reading) : Prop :=
  ∀ levels, reading.ahead.length < levels →
    readChain context levels power left reading = .ok expr later

/-- A chain ends where nothing binds tighter. -/
theorem readChain_stop {levels : Nat} (h : tighterTail? context power reading.current = none) :
    readChain context levels power left reading = .ok left reading := by
  rw [readChain.eq_def, bind_of_ok (by rfl)]
  simp only [h]
  rfl

/-- A chain goes on with the operator that binds tighter. -/
theorem readChain_step {levels : Nat} {next : Power} {form : TailForm}
    (htail : tighterTail? context power reading.current = some (next, form))
    (hjoin : readTail (read context levels) left next form reading = .ok joined middle) :
    readChain context (levels + 1) power left reading =
      readChain context levels power joined middle := by
  rw [readChain.eq_def, bind_of_ok (by rfl)]
  simp only [htail]
  rw [bind_of_ok hjoin]

/-- An expression is a lead form and the chain behind it. -/
theorem read_eq_readChain (hgrammar : context.grammar = .standard) {levels : Nat} {form : LeadForm}
    (hform : Grammar.leadOf? reading.current = some form)
    (hlead : readLead context (read context levels) form reading = .ok left middle) :
    read context (levels + 1) power reading = readChain context levels power left middle := by
  rw [read, bind_of_ok (by rfl), hgrammar]
  simp only [Grammar.standard, hform]
  rw [bind_of_ok hlead]

/-- Where nothing binds tighter a chain is at its end, however many levels are left. -/
theorem Chains.stop (h : tighterTail? context power reading.current = none) :
    Chains context power left reading left reading :=
  fun _ _ => readChain_stop h

/-- A chain goes on behind an operator that is read, with fewer tokens ahead and one level less. -/
theorem Chains.step {next : Power} {form : TailForm}
    (htail : tighterTail? context power reading.current = some (next, form))
    (hjoin : ∀ levels, reading.ahead.length ≤ levels →
      readTail (read context levels) left next form reading = .ok joined middle)
    (hshorter : middle.ahead.length < reading.ahead.length)
    (hrest : Chains context power joined middle expr later) :
    Chains context power left reading expr later := by
  intro levels hlevels
  obtain ⟨levels, rfl⟩ : ∃ n, levels = n + 1 := ⟨levels - 1, by omega⟩
  rw [readChain_step htail (hjoin levels (by omega))]
  exact hrest levels (by omega)

/-- An expression is read if its lead form and the chain behind it are. -/
theorem Reads.lead (hgrammar : context.grammar = .standard) {form : LeadForm}
    (hform : Grammar.leadOf? reading.current = some form)
    (hlead : ∀ levels, reading.ahead.length ≤ levels →
      readLead context (read context levels) form reading = .ok left middle)
    (hshorter : middle.ahead.length < reading.ahead.length)
    (hrest : Chains context power left middle expr later) :
    Reads context power reading expr later := by
  intro levels hlevels
  obtain ⟨levels, rfl⟩ : ∃ n, levels = n + 1 := ⟨levels - 1, by omega⟩
  rw [read_eq_readChain hgrammar hform (hlead levels (by omega))]
  exact hrest levels (by omega)

/-- A reader at the tokens does what a reader behind them does that has the expression as its left
operand, if the token there ends a phrase of the level. -/
def Continues (context : Context) (level : Level) (tokens : List Token) (expr : Expr) : Prop :=
  ∀ (power : Power) (reading middle : Reading), power.rank ≤ Power.unary.rank →
    power.level.rank ≤ level.rank → reading.Marked → reading.Passes tokens middle →
    middle.current.Ends level → ∀ result later, Chains context power expr middle result later →
    Reads context power reading result later

/-- Where no operator follows that binds tighter, the expression itself is read. -/
theorem Continues.reads (hgrammar : context.grammar = .standard) {level follow : Level}
    {tokens : List Token} (h : Continues context level tokens expr) (power : Power)
    (hpower : power.rank ≤ Power.unary.rank) (hlevel : power.level.rank ≤ level.rank)
    (hfollow : follow.rank ≤ level.rank)
    (hweak : ∀ next : Power, next.left.rank ≤ follow.rank → next.rank ≤ power.rank)
    (hmark : reading.Marked) (hpasses : reading.Passes tokens later)
    (hends : later.current.Ends follow) : Reads context power reading expr later := by
  refine h power reading later hpower hlevel hmark hpasses ?_ expr later (Chains.stop ?_)
  · exact fun next form hform => Nat.le_trans (hends next form hform) hfollow
  · exact (tighterTail?_eq_none_iff hgrammar).2 fun next form hform =>
      hweak next (hends next form hform)

/-- Where nothing follows that goes on with an expression, the expression itself is read. -/
theorem Continues.reads_default (hgrammar : context.grammar = .standard) {level : Level}
    {tokens : List Token} (h : Continues context level tokens expr) (hmark : reading.Marked)
    (hpasses : reading.Passes tokens later) (hends : later.current.Ends .assign) :
    Reads context .default reading expr later := by
  refine h.reads hgrammar .default (by decide) (Nat.zero_le _) (Nat.zero_le _) ?_ hmark hpasses
    hends
  intro next
  cases next <;> decide

/-! ## Lists and brackets -/

/-- What stands between two tokens is read with them. -/
theorem enclosed_complete {α : Type} {close : String} {inside : Read α} {value : α}
    (result : Token → α → (Nat → Span) → Expr) {opening closing : Token} {tokens : List Token}
    (hmark : reading.Marked) (hpasses : reading.Passes (opening :: (tokens ++ [closing])) later)
    (hclosing : closing.is close = true)
    (hinside : ∀ start stop, start.Marked → start.ahead.length < reading.ahead.length →
      start.Passes tokens stop → stop.current.is close = true → inside start = .ok value stop) :
    (do
      let opening ← Read.advance
      let value ← inside
      let _ ← Read.expect close
      look fun reading => result opening value reading.spanFrom : Read Expr) reading =
        .ok (result opening value (fun start => Span.upTo start closing)) later := by
  have hspan : later.spanFrom = fun start => Span.upTo start closing := by
    funext start
    rw [hpasses.spanFrom_upTo, List.getLastD_concat]
  obtain ⟨hahead, rfl, hnext⟩ := passes_cons_iff.1 hpasses
  have hfirst := passes_next hahead
  have hmarked := hfirst.marked hmark
  obtain ⟨middle, htokens, hlast⟩ := passes_append_iff.1 hnext
  have hcurrent : middle.current = closing := (passes_cons_iff.1 hlast).2.1
  rw [bind_of_ok (by rfl),
    bind_of_ok (hinside _ middle hmarked hfirst.length_lt htokens (by rw [hcurrent, hclosing])),
    bind_of_ok ((expect_passes (htokens.marked hmarked)).2 ⟨hclosing, hlast⟩), look, hspan]

/-- A token that begins a phrase closes nothing and is ahead of the mark. -/
theorem not_atClose {close : String} (hlead : Grammar.leadOfSpelling? close = none)
    (hahead : reading.ahead ≠ []) (hstart : (Grammar.leadOf? reading.current).isSome = true) :
    (reading.current.is close || reading.ahead.isEmpty) = false := by
  cases hclose : reading.current.is close with
  | true =>
      rw [Grammar.leadOf?_of_is hclose, hlead] at hstart
      cases hstart
  | false => simpa using hahead

/-- Behind an item of a list nothing goes on with the item. -/
theorem ends_of_atClose {close : String} (hclose : Grammar.tailOfSpelling? close = none)
    (hmark : reading.Marked)
    (h : reading.current.is "," = true ∨
      (reading.current.is close || reading.ahead.isEmpty) = true) :
    reading.current.Ends .assign := by
  apply Token.ends_of_tailOf?_eq_none
  rw [Bool.or_eq_true, List.isEmpty_iff] at h
  rcases h with h | h | h
  · rw [Grammar.tailOf?_of_is h]
    rfl
  · rw [Grammar.tailOf?_of_is h, hclose]
  · rw [current_of_ahead_nil h]
    exact (Grammar.standard_stopsAtMark _ hmark).2.1

/-- Phrases with commas between them are read up to the closing token. -/
theorem separated_complete (hgrammar : context.grammar = .standard) {close : String}
    (hclose : Grammar.tailOfSpelling? close = none) (hlead : Grammar.leadOfSpelling? close = none)
    (hcomma : close ≠ ",") {parts : List (List Token × Expr)} {tokens : List Token}
    (hparts : ∀ part ∈ parts, Phrase context.sourceText .assign part.1 part.2)
    (hcontinues : ∀ part ∈ parts, Continues context .assign part.1 part.2)
    (hseparated : Separated Prod.fst parts tokens) (hmark : reading.Marked)
    (hpasses : reading.Passes tokens later) (hlast : later.current.is close = true) {levels : Nat}
    (hlevels : reading.ahead.length < levels) :
    separated (atClose close) (read context levels .default) reading =
      .ok (parts.map Prod.snd) later := by
  refine Read.separated_complete hseparated ?_ hmark hpasses ?_ (by simp [hlast])
  · intro part hpart start stop hstart hsize hitem hstop
    obtain ⟨first, rest, htokens, hfirst⟩ := (hparts part hpart).starts
    obtain ⟨hahead, rfl, _⟩ := passes_cons_iff.1 (htokens ▸ hitem)
    refine ⟨not_atClose hlead hahead hfirst, ?_⟩
    exact (hcontinues part hpart).reads_default hgrammar hstart hitem
      (ends_of_atClose hclose (hitem.marked hstart) hstop) levels (by omega)
  · obtain ⟨_, hvalue⟩ := Token.is_iff.1 hlast
    simp [Token.is, hvalue, hcomma]

/-- An entry whose value can be read is read. -/
theorem readProperty_complete {levels : Nat} {entry : Entry} (hmark : reading.Marked)
    (hpasses : reading.Passes entry.all later)
    (hvalue : ∀ start, start.Marked → start.Passes entry.tokens later →
      start.ahead.length ≤ reading.ahead.length →
      read context levels .default start = .ok entry.value later) :
    readProperty (read context levels) reading = .ok entry.property later := by
  obtain ⟨hahead, hkey, hnext⟩ := passes_cons_iff.1 hpasses
  have hfirst := passes_next hahead
  obtain ⟨hsecond, hcolon, hrest⟩ := passes_cons_iff.1 hnext
  have hafter := hfirst.trans (passes_next hsecond)
  rw [readProperty, bind_of_ok (by rfl), if_pos (hkey ▸ entry.key_kind), bind_of_ok (by rfl),
    bind_of_ok (expect_ok_iff.2 ⟨hcolon ▸ entry.colon_is, rfl, rfl⟩),
    bind_of_ok (hvalue _ (hafter.marked hmark) hrest hafter.length_le), hkey]
  rfl

/-- Entries with commas between them are read up to the closing brace. -/
theorem separated_entries_complete (hgrammar : context.grammar = .standard)
    {entries : List Entry} {tokens : List Token}
    (hcontinues : ∀ entry ∈ entries, Continues context .assign entry.tokens entry.value)
    (hseparated : Separated Entry.all entries tokens) (hmark : reading.Marked)
    (hpasses : reading.Passes tokens later) (hlast : later.current.is "\x7d" = true) {levels : Nat}
    (hlevels : reading.ahead.length < levels) :
    separated (atClose "\x7d") (readProperty (read context levels)) reading =
      .ok (entries.map Entry.property) later := by
  refine Read.separated_complete hseparated ?_ hmark hpasses ?_ (by simp [hlast])
  · intro entry hentry start stop hstart hsize hitem hstop
    obtain ⟨hahead, hkey, _⟩ := passes_cons_iff.1 hitem
    have hform : (Grammar.leadOf? start.current).isSome = true := by
      rcases entry.key_kind with hkind | hkind <;> simp [Grammar.leadOf?, hkey, hkind]
    refine ⟨not_atClose rfl hahead hform, readProperty_complete hstart hitem ?_⟩
    intro value hmarked hvalue hshorter
    exact (hcontinues entry hentry).reads_default hgrammar hmarked hvalue
      (ends_of_atClose rfl (hitem.marked hstart) hstop) levels (by omega)
  · obtain ⟨_, hvalue⟩ := Token.is_iff.1 hlast
    simp [Token.is, hvalue]

/-! ## Phrases -/

/-- A phrase that is read by the lead form of its first token. -/
theorem continues_of_lead (hgrammar : context.grammar = .standard) {level : Level} {first : Token}
    {rest : List Token} {form : LeadForm} (hform : Grammar.leadOf? first = some form)
    (hlead : ∀ reading later levels, reading.Marked → reading.Passes (first :: rest) later →
      later.current.Ends level → reading.ahead.length ≤ levels →
      readLead context (read context levels) form reading = .ok expr later) :
    Continues context level (first :: rest) expr := by
  intro power reading middle _ _ hmark hpasses hends result later hchain
  obtain ⟨_, hfirst, _⟩ := passes_cons_iff.1 hpasses
  refine Reads.lead hgrammar (hfirst ▸ hform) ?_ hpasses.length_lt hchain
  exact fun levels hlevels => hlead reading middle levels hmark hpasses hends hlevels

/-- A phrase that is read by the tail form of an operator behind another phrase. -/
theorem continues_of_tail (hgrammar : context.grammar = .standard) {level result : Level}
    {front rest : List Token} {operator : Token} {next : Power} {form : TailForm}
    (hfront : Continues context level front left) (hlevel : result.rank ≤ level.rank)
    (hform : Grammar.tailOf? operator = some (next, form))
    (htaken : next.left.rank ≤ level.rank)
    (htighter : ∀ power : Power, power.rank ≤ Power.unary.rank →
      power.level.rank ≤ result.rank → power.rank < next.rank)
    (hjoin : ∀ reading later levels, reading.Marked → reading.Passes (operator :: rest) later →
      later.current.Ends result → reading.ahead.length ≤ levels →
      readTail (read context levels) left next form reading = .ok joined later) :
    Continues context result (front ++ operator :: rest) joined := by
  intro power reading middle hpower hbelow hmark hpasses hends value later hchain
  obtain ⟨between, hleft, hright⟩ := passes_append_iff.1 hpasses
  obtain ⟨_, rfl, _⟩ := passes_cons_iff.1 hright
  -- The operator ends the phrase on its left, and begins the chain behind it.
  refine hfront power reading between hpower (by omega) hmark hleft ?_ value later ?_
  · intro other shape hother
    rw [hform] at hother
    cases hother
    exact htaken
  · have htail := (tighterTail?_eq_some_iff hgrammar).2 ⟨hform, htighter power hpower hbelow⟩
    refine Chains.step htail ?_ hright.length_lt hchain
    exact fun levels hlevels =>
      hjoin between middle levels (hleft.marked hmark) hright hends hlevels

/-- A reader at the tokens of a phrase does what a reader behind them does that has the phrase as
its left operand. -/
theorem continues (hgrammar : context.grammar = .standard) {level : Level} {tokens : List Token}
    (h : Phrase context.sourceText level tokens expr) : Continues context level tokens expr := by
  induction h with
  | @tighter level tokens expr _ ih =>
      intro power reading middle hpower hlevel hmark hpasses hends
      have hnext := level.rank_le_next
      exact ih power reading middle hpower (by omega) hmark hpasses
        fun next form hform => Nat.le_trans (hends next form hform) hnext
  | assignment _ hassignable hequals _ ihtarget ihvalue =>
      refine continues_of_tail hgrammar ihtarget (by decide) (Grammar.tailOf?_of_is hequals)
        (by decide) (fun power _ hbelow => ?_) ?_
      · exact Nat.lt_succ_of_le (Power.rank_le_of_level_le hbelow (by decide))
      · intro reading later levels hmark hpasses hends hlevels
        obtain ⟨hahead, rfl, hright⟩ := passes_cons_iff.1 hpasses
        have hnext := passes_next hahead
        have hvalue := ihvalue.reads_default hgrammar (hnext.marked hmark) hright hends
        rw [readTail, readAssignment, if_pos hassignable, bind_of_ok (by rfl),
          bind_of_ok (hvalue levels (Nat.lt_of_lt_of_le hnext.length_lt hlevels))]
        rfl
  | @operation level left right operator first second _ hoperator _ ihfirst ihsecond =>
      obtain ⟨hsame, hbelow, hrank, hweaker, hunary⟩ := Level.power_of_operator hoperator
      refine continues_of_tail hgrammar ihfirst (Nat.le_refl _) (Grammar.tailOf?_operator hoperator)
        (Nat.le_of_eq (congrArg Level.rank hsame)) (fun power _ hlevel => ?_) ?_
      · rw [hrank]
        exact Nat.lt_succ_of_le (Power.rank_le_of_level_le hlevel hunary)
      · intro reading later levels hmark hpasses hends hlevels
        obtain ⟨hahead, rfl, hright⟩ := passes_cons_iff.1 hpasses
        have hnext := passes_next hahead
        have hoperand := ihsecond.reads hgrammar level.power hweaker
          (Nat.le_of_eq (congrArg Level.rank hbelow)) level.rank_le_next
          (fun next hleft => hrank ▸ Power.rank_le_of_left_le hleft (Nat.le_of_lt hunary))
          (hnext.marked hmark) hright hends
        rw [readTail_operator, bind_of_ok (by rfl),
          bind_of_ok (hoperand levels (Nat.lt_of_lt_of_le hnext.length_lt hlevels))]
        rfl
  | unary hoperator _ ih =>
      refine continues_of_lead hgrammar (Grammar.leadOf?_unary hoperator) ?_
      intro reading later levels hmark hpasses hends hlevels
      obtain ⟨hahead, rfl, hargument⟩ := passes_cons_iff.1 hpasses
      have hnext := passes_next hahead
      have hoperand := ih.reads hgrammar .unary (Nat.le_refl _) (Nat.le_refl _) (Nat.le_refl _)
        (fun next hleft => Power.rank_le_of_left_le hleft (Nat.le_refl _))
        (hnext.marked hmark) hargument hends
      rw [readLead, readUnary, bind_of_ok (by rfl),
        bind_of_ok (hoperand levels (Nat.lt_of_lt_of_le hnext.length_lt hlevels))]
      rfl
  | @call front inside opening closing callee arguments _ hopening harguments hseparated hclosing
      ihcallee iharguments =>
      refine continues_of_tail hgrammar ihcallee (Nat.le_refl _) (Grammar.tailOf?_of_is hopening)
        (Nat.le_refl _) (fun power hpower _ => Nat.lt_succ_of_le hpower) ?_
      intro reading later levels hmark hpasses _ hlevels
      refine enclosed_complete
        (fun _ arguments spanFrom => .call callee arguments (spanFrom callee.span.start))
        hmark hpasses hclosing fun start stop hmarked hlength hinside hlast => ?_
      exact separated_complete hgrammar rfl rfl (by decide) harguments iharguments hseparated
        hmarked hinside hlast (Nat.lt_of_lt_of_le hlength hlevels)
  | member _ hpoint hname ih =>
      refine continues_of_tail hgrammar ih (Nat.le_refl _) (Grammar.tailOf?_of_is hpoint)
        (Nat.le_refl _) (fun power hpower _ => Nat.lt_of_le_of_lt hpower (by decide)) ?_
      intro reading later levels hmark hpasses _ _
      obtain ⟨_, _, hsecond⟩ := passes_cons_iff.1 hpasses
      obtain ⟨_, rfl, hlast⟩ := passes_cons_iff.1 hsecond
      obtain rfl := passes_nil_iff.1 hlast
      rw [readTail, readMember, bind_of_ok (by rfl), bind_of_ok (by rfl), if_pos hname,
        bind_of_ok (by rfl)]
      rfl
  | literal hliteral =>
      refine continues_of_lead hgrammar (Grammar.leadOf?_literal hliteral) ?_
      intro reading later levels _ hpasses _ _
      obtain ⟨_, rfl, hlast⟩ := passes_cons_iff.1 hpasses
      obtain rfl := passes_nil_iff.1 hlast
      have hkind : reading.current.kind ≠ .identifier := by
        intro hkind
        simp [Token.literal?, hkind] at hliteral
      rw [readLead, readPrimary_eq, if_neg hkind, hliteral]
  | @identifier token hkind =>
      have hform : Grammar.leadOf? token = some .primary := by rw [Grammar.leadOf?, hkind]
      refine continues_of_lead hgrammar hform ?_
      intro reading later levels _ hpasses _ _
      obtain ⟨_, rfl, hlast⟩ := passes_cons_iff.1 hpasses
      obtain rfl := passes_nil_iff.1 hlast
      rw [readLead, readPrimary_eq, if_pos hkind]
  | grouping hopening _ hclosing ih =>
      refine continues_of_lead hgrammar (Grammar.leadOf?_of_is hopening) ?_
      intro reading later levels hmark hpasses _ hlevels
      refine enclosed_complete (fun _ value _ => value) hmark hpasses hclosing
        fun start stop hmarked hlength hinside hlast => ?_
      have hends := Token.ends_of_tailOf?_eq_none (Grammar.tailOf?_of_is hlast) .assign
      exact ih.reads_default hgrammar hmarked hinside hends levels
        (Nat.lt_of_lt_of_le hlength hlevels)
  | array hopening helements hseparated hclosing ih =>
      refine continues_of_lead hgrammar (Grammar.leadOf?_of_is hopening) ?_
      intro reading later levels hmark hpasses _ hlevels
      refine enclosed_complete
        (fun opening elements spanFrom => .array elements (spanFrom opening.span.start))
        hmark hpasses hclosing fun start stop hmarked hlength hinside hlast => ?_
      exact separated_complete hgrammar rfl rfl (by decide) helements ih hseparated
        hmarked hinside hlast (Nat.lt_of_lt_of_le hlength hlevels)
  | object hopening _ hseparated hclosing ih =>
      refine continues_of_lead hgrammar (Grammar.leadOf?_of_is hopening) ?_
      intro reading later levels hmark hpasses _ hlevels
      refine enclosed_complete
        (fun opening properties spanFrom => .object properties (spanFrom opening.span.start))
        hmark hpasses hclosing fun start stop hmarked hlength hinside hlast => ?_
      exact separated_entries_complete hgrammar ih hseparated hmarked hinside hlast
        (Nat.lt_of_lt_of_le hlength hlevels)

end Expr

end ScriptLint
