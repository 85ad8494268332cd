import Mathlib
import ScriptLint.Proofs.Phrase.Completeness
import ScriptLint.Proofs.Token.Tiling

/-!
# The reader recognizes the grammar of expressions

At every place in the tokens of a source, what is read with a binding power is exactly what the
tokens derive at the level below the power, up to the first token that does not bind tighter. The
grammar is unambiguous, because two derivations from the same tokens are read alike. Every number
of a source is a literal of the grammar.
-/

namespace ScriptLint

/-- Every number of a source is a literal: no numeral that is scanned fails to be read. -/
theorem Token.exists_literal?_of_tokenize {settings : Settings} {source : String}
    {tokens : List Token} (h : tokenize settings source = .ok tokens) {token : Token}
    (htoken : token ∈ tokens) (hkind : token.kind = .number) :
    ∃ number, token.literal? = some (.number number) := by
  have hstands := @scan_standsIn _ _ _ [] _ h rfl token htoken (by simp [hkind])
  obtain ⟨text, back, -, hwritten⟩ := hstands.slice?
  rw [hkind] at hwritten
  obtain ⟨number, hnumber⟩ := hwritten.exists_toDouble?
  exact ⟨number, by simp [literal?, hkind, hnumber]⟩

namespace Expr

open Reading

variable {context : Context} {power : Power} {reading later : Reading} {expr : Expr}

/-- An expression is read, with levels enough, if and only if the tokens that are passed derive it
and no operator that binds tighter follows. -/
theorem read_iff (hgrammar : context.grammar = .standard) (hpower : power.rank ≤ Power.unary.rank)
    (hmark : reading.Marked) {levels : Nat} (hlevels : reading.ahead.length < levels) :
    read context levels power reading = .ok expr later ↔
      ∃ tokens, reading.Passes tokens later ∧
        Phrase context.sourceText power.level tokens expr ∧
        tighterTail? context power later.current = none := by
  constructor
  · exact read_sound hgrammar levels power hpower reading expr later hmark
  · rintro ⟨tokens, hpasses, hphrase, htail⟩
    have hends : later.current.Ends power.level := by
      intro next form hform
      exact Power.left_rank_le_level ((tighterTail?_eq_none_iff hgrammar).1 htail next form hform)
    exact continues hgrammar hphrase power reading later hpower (Nat.le_refl _) hmark hpasses hends
      expr later (Chains.stop htail) levels hlevels

end Expr

/-- The same tokens do not derive two expressions, also not at different levels. -/
theorem Phrase.unique (context : Context) {first second : Level} {tokens : List Token}
    {left right : Expr} (hleft : Phrase context.sourceText first tokens left)
    (hright : Phrase context.sourceText second tokens right) : left = right := by
  -- Both are what a reader finds that has the tokens ahead and nothing behind them.
  let standard : Context := { context with grammar := .standard }
  let reading : Reading := ⟨[], tokens, Token.endMark 0, #[]⟩
  let later : Reading := ⟨tokens.reverse, [], Token.endMark 0, #[]⟩
  have hpasses : reading.Passes tokens later :=
    ⟨(List.append_nil tokens).symm, (List.append_nil _).symm, rfl, rfl⟩
  have hread : ∀ level expr, Phrase context.sourceText level tokens expr →
      Expr.read standard (tokens.length + 1) .default reading = .ok expr later := by
    intro level expr hphrase
    have hloose : Phrase standard.sourceText .assign tokens expr :=
      hphrase.loosen (Nat.zero_le _)
    have hmark : reading.Marked := rfl
    exact (Expr.read_iff rfl (by decide) hmark (Nat.lt_succ_self _)).2
      ⟨tokens, hpasses, hloose, rfl⟩
  have hsame := (hread first left hleft).symm.trans (hread second right hright)
  cases hsame
  rfl

/-- The reading of a list of tokens with `cursor` tokens behind it. -/
def Reading.ofCursor (tokens : List Token) (cursor : Nat) (errors : Array ParseError) :
    Reading where
  behind := ((Reading.ofTokens tokens).ahead.take cursor).reverse
  ahead := (Reading.ofTokens tokens).ahead.drop cursor
  mark := (Reading.ofTokens tokens).mark
  errors := errors

section Source

variable {settings : Settings} {source : String} {tokens passed : List Token} {cursor stop : Nat}
  {errors : Array ParseError} {later : Reading}

/-- A reading at any place of the tokens of a source has an end mark. -/
theorem Reading.ofCursor_marked (h : Token.tokenize settings source = .ok tokens) :
    (Reading.ofCursor tokens cursor errors).Marked := by
  obtain ⟨body, last, rfl, _, hreading⟩ := Reading.ofTokens_tokenize h
  rw [Reading.Marked, Reading.ofCursor, hreading]
  rfl

/-- The tokens ahead are those behind the cursor, without the end mark. -/
theorem Reading.length_ofCursor_lt (h : Token.tokenize settings source = .ok tokens) :
    (Reading.ofCursor tokens cursor errors).ahead.length < tokens.length := by
  obtain ⟨body, last, rfl, _, hreading⟩ := Reading.ofTokens_tokenize h
  simp only [Reading.ofCursor, hreading, List.length_drop, List.length_append, List.length_cons]
  omega

/-- A reading passes the tokens that its cursor moves over. -/
theorem Reading.ofCursor_passes_extract (h : Token.tokenize settings source = .ok tokens)
    (hle : cursor ≤ stop) (hstop : stop < tokens.length) :
    (Reading.ofCursor tokens cursor errors).Passes (tokens.extract cursor stop)
      (Reading.ofCursor tokens stop errors) := by
  obtain ⟨body, last, rfl, _, hreading⟩ := Reading.ofTokens_tokenize h
  obtain ⟨count, rfl⟩ := Nat.exists_eq_add_of_le hle
  have hbody : cursor + count ≤ body.length := by
    simp only [List.length_append, List.length_cons, List.length_nil] at hstop
    omega
  have hpassed : (body ++ [Token.endMark last]).extract cursor (cursor + count) =
      (body.drop cursor).take count := by
    rw [List.extract_eq_take_drop, Nat.add_sub_cancel_left,
      List.drop_append_of_le_length (by omega), List.take_append_of_le_length]
    rw [List.length_drop]
    omega
  refine ⟨?_, ?_, rfl, rfl⟩
  · show (Reading.ofTokens _).ahead.drop cursor = _ ++ (Reading.ofTokens _).ahead.drop _
    rw [hpassed, hreading, ← List.drop_drop, List.take_append_drop]
  · show ((Reading.ofTokens _).ahead.take _).reverse =
      _ ++ ((Reading.ofTokens _).ahead.take cursor).reverse
    rw [hpassed, hreading, ← List.reverse_append, List.take_add]

/-- The tokens that a reading passes are those that its cursor moves over. -/
theorem Reading.ofCursor_passes (h : Token.tokenize settings source = .ok tokens)
    (hne : passed ≠ [])
    (hpasses : (Reading.ofCursor tokens cursor errors).Passes passed later) :
    ∃ stop, cursor < stop ∧ stop < tokens.length ∧ passed = tokens.extract cursor stop ∧
      later = Reading.ofCursor tokens stop errors := by
  have hlength := congrArg List.length hpasses.ahead
  have hpos := List.length_pos_iff.2 hne
  obtain ⟨body, last, htokens, _, hreading⟩ := Reading.ofTokens_tokenize h
  simp only [Reading.ofCursor, hreading, List.length_append, List.length_drop] at hlength
  obtain ⟨stop, hcursor⟩ : ∃ stop, stop = cursor + passed.length := ⟨_, rfl⟩
  have hstop : stop < tokens.length := by
    rw [htokens, List.length_append, List.length_singleton]
    omega
  have hmoved : (Reading.ofCursor tokens cursor errors).Passes (tokens.extract cursor stop)
      (Reading.ofCursor tokens stop errors) :=
    Reading.ofCursor_passes_extract h (by omega) hstop
  have hsame : passed = tokens.extract cursor stop := by
    refine List.append_inj_left (hpasses.ahead.symm.trans hmoved.ahead) ?_
    rw [List.extract_eq_take_drop, List.length_take, List.length_drop]
    omega
  exact ⟨stop, by omega, hstop, hsame, hpasses.unique (hsame ▸ hmoved)⟩

/-- At every place in the tokens of a source and for every binding power up to the unary one: what
is read has passed tokens that derive it at the level below the power, and they derive nothing else;
and where tokens derive an expression at that level and no operator that binds tighter follows, that
expression is read. -/
theorem Expr.read_recognizes (h : Token.tokenize settings source = .ok tokens) (cursor : Nat)
    (errors : Array ParseError) {power : Power} (hpower : power.rank ≤ Power.unary.rank) :
    let context := Context.ofSettings settings source.toList
    let derives := Phrase context.sourceText power.level
    (∀ levels expr later,
      Expr.read context levels power (Reading.ofCursor tokens cursor errors) = .ok expr later →
        ∃ stop, cursor < stop ∧ stop < tokens.length ∧
          later = Reading.ofCursor tokens stop errors ∧
          derives (tokens.extract cursor stop) expr ∧
          (∀ other, derives (tokens.extract cursor stop) other → other = expr) ∧
          Expr.tighterTail? context power later.current = none) ∧
    ∀ levels expr stop, tokens.length ≤ levels → stop < tokens.length →
      derives (tokens.extract cursor stop) expr →
      Expr.tighterTail? context power (Reading.ofCursor tokens stop errors).current = none →
        Expr.read context levels power (Reading.ofCursor tokens cursor errors) =
          .ok expr (Reading.ofCursor tokens stop errors) := by
  intro context derives
  have hmark : (Reading.ofCursor tokens cursor errors).Marked := Reading.ofCursor_marked h
  constructor
  · intro levels expr later hread
    obtain ⟨passed, hpasses, hphrase, htail⟩ :=
      Expr.read_sound rfl levels power hpower _ _ _ hmark hread
    obtain ⟨first, rest, hne, _⟩ := hphrase.starts
    obtain ⟨stop, hlt, hstop, rfl, rfl⟩ :=
      Reading.ofCursor_passes h (by simp [hne]) hpasses
    exact ⟨stop, hlt, hstop, rfl, hphrase, fun other hother => Phrase.unique context hother hphrase,
      htail⟩
  · intro levels expr stop hlevels hstop hphrase htail
    obtain ⟨first, rest, hne, _⟩ := hphrase.starts
    have hle : cursor ≤ stop := by
      have hlength := congrArg List.length hne
      rw [List.extract_eq_take_drop, List.length_take, List.length_cons] at hlength
      omega
    refine (Expr.read_iff rfl hpower hmark ?_).2
      ⟨_, Reading.ofCursor_passes_extract h hle hstop, hphrase, htail⟩
    exact Nat.lt_of_lt_of_le (Reading.length_ofCursor_lt h) hlevels

/-- The right operand in `a*-b.c;` is `-b.c`, which its four tokens derive at the unary level. -/
theorem Expr.read_recognizes_operand :
    let tokens : List Token := [⟨.identifier, "a", ⟨0, 1⟩⟩, ⟨.symbol, "*", ⟨1, 2⟩⟩,
      ⟨.symbol, "-", ⟨2, 3⟩⟩, ⟨.identifier, "b", ⟨3, 4⟩⟩, ⟨.symbol, ".", ⟨4, 5⟩⟩,
      ⟨.identifier, "c", ⟨5, 6⟩⟩, ⟨.symbol, ";", ⟨6, 7⟩⟩, Token.endMark 7]
    let context := Context.ofSettings {} "a*-b.c;".toList
    let operand : Expr := .unary "-" (.member (.identifier "b" ⟨3, 4⟩) ⟨"c", ⟨5, 6⟩⟩ ⟨3, 6⟩) ⟨2, 6⟩
    Token.tokenize {} "a*-b.c;" = .ok tokens ∧
    Expr.read context 3 .multiplicative (Reading.ofCursor tokens 2 #[]) =
      .ok operand (Reading.ofCursor tokens 6 #[]) ∧
    ∃ stop, 2 < stop ∧ stop < 8 ∧
      Reading.ofCursor tokens 6 #[] = Reading.ofCursor tokens stop #[] ∧
      Phrase context.sourceText .unary (tokens.extract 2 stop) operand ∧
      (∀ other, Phrase context.sourceText .unary (tokens.extract 2 stop) other → other = operand) ∧
      Expr.tighterTail? context .multiplicative (Reading.ofCursor tokens 6 #[]).current = none := by
  intro tokens context operand
  have htokens : Token.tokenize {} "a*-b.c;" = .ok tokens := by cbv
  have hread : Expr.read context 3 .multiplicative (Reading.ofCursor tokens 2 #[]) =
      .ok operand (Reading.ofCursor tokens 6 #[]) := by cbv
  exact ⟨htokens, hread,
    (Expr.read_recognizes htokens 2 #[] (by decide)).1 3 operand _ hread⟩

end Source

end ScriptLint
