import Mathlib
import ScriptLint.Proofs.Sequence.Program
import ScriptLint.Proofs.Sequence.Sparing

/-!
# A malformed statement in front of a source

A statement that cannot be read, in a line of its own, costs one error and nothing else: what
follows in the next line is read as if it stood alone. The statement leaves its semicolon ahead when
it fails, and skipping stops right behind that. The main theorem is `Program.parse_after_malformed`.
-/

namespace ScriptLint

namespace Reading

variable {front : List Token} {last : Token}

/-- Skipping goes past the next semicolon if nothing in front of it stops it. -/
theorem skipOver_past (context : Context) (behind rest : List Token) (hlast : last.is ";" = true)
    (hfront : ∀ token ∈ front, token.is ";" = false ∧ context.isRestart token = false) :
    skipOver context behind (front ++ last :: rest) =
      (last :: (front.reverse ++ behind), rest) := by
  induction front generalizing behind with
  | nil => simp [skipOver, hlast]
  | cons token tokens ih =>
      obtain ⟨⟨hsemicolon, hrestart⟩, htokens⟩ := List.forall_mem_cons.1 hfront
      rw [List.cons_append, skipOver, if_neg (by simp [hsemicolon]), if_neg (by simp [hrestart]),
        ih (token :: behind) htokens]
      simp

/-- The way back after an error goes past the next semicolon, if nothing in front of it stops it.
The first token of the statement is skipped whatever it is. -/
theorem resync_past (context : Context) {start : Nat} {reading : Reading} {rest : List Token}
    (hahead : reading.ahead = front ++ last :: rest) (hlast : last.is ";" = true)
    (hfront : ∀ token ∈ front, token.is ";" = false)
    (hfirst : reading.position = start → ∀ token ∈ front.tail, context.isRestart token = false)
    (hlater : reading.position ≠ start → ∀ token ∈ front, context.isRestart token = false) :
    reading.resync context start =
      { reading with behind := last :: (front.reverse ++ reading.behind), ahead := rest } := by
  unfold resync
  split
  next hstart =>
      cases front with
      | nil => simp [current, next, hahead, hlast]
      | cons token tokens =>
          obtain ⟨hsemicolon, htokens⟩ := List.forall_mem_cons.1 hfront
          have hskip := skipOver_past context (token :: reading.behind) rest hlast
            fun other hother => ⟨htokens other hother, hfirst hstart other hother⟩
          simp [current, next, skipAhead, hahead, hsemicolon, hskip]
  next hstart =>
      have hskip := skipOver_past context reading.behind rest hlast
        fun token htoken => ⟨hfront token htoken, hlater hstart token htoken⟩
      simp [skipAhead, hahead, hskip]

end Reading

namespace Program

variable {settings : Settings} {source : String}

section Lines

variable {front : List Token} {last : Token} {error : Error} {later : Reading}
  (hfits : ∀ token ∈ front ++ [last], token.span.Fits source.toList)
  (hlast : last.is ";" = true) (hkind : last.kind ≠ .keyword)
  (hfront : ∀ token ∈ front, token.isAny [";", "\x7b", "\x7d"] = false)
  (hfails : Stmt.read settings.maxDepth (.ofSettings settings source.toList)
    ⟨[], front ++ [last], Token.endMark (Text.byteLength source.toList), #[]⟩ = .error error later)
  (hfatal : error.fatal = false) (more : String) (others : List Token)

include hfits hlast hkind hfront hfails hfatal

/-- In front of another line, a statement that leaves its semicolon fails as it does alone. -/
theorem stmt_fails_lines :
    ∃ passed left, front = passed ++ left ∧
      Stmt.read settings.maxDepth (.ofSettings settings (line source ++ more.toList))
          (joined source more (front ++ [last]) others) =
        .error error ⟨passed.reverse,
          left ++ last :: others.map (·.shift (Text.byteLength (line source))),
          (joined source more (front ++ [last]) others).mark, #[]⟩ := by
  let E := firstLine settings source more (others.map (·.shift (Text.byteLength (line source))))
  have hstart : Reading.Unfinished
      ⟨[], front ++ [last], Token.endMark (Text.byteLength source.toList), #[]⟩ :=
    ⟨⟨rfl, rfl⟩, front, last, rfl, hlast, hkind, hfront⟩
  have hleft : later.Unfinished :=
    (Read.falters_stmt Grammar.standard_stopsAtSemicolon _).of_error hstart trivial hfails hfatal
  have hreaches := (inferInstance : Read.Forward (Stmt.read settings.maxDepth
    (.ofSettings settings source.toList))).moves.of_error hfails
  obtain ⟨error', later', hfails', herror, haligned⟩ :=
    (E.lawful.sim_stmt settings.maxDepth false).of_error (aligned_lines hfits) trivial hfails
      (.inr hleft.ahead_ne_nil)
  have hreaches' :=
    (inferInstance : Read.Forward (Stmt.read settings.maxDepth _)).moves.of_error hfails'
  -- What is left of the statement ends in its semicolon.
  obtain ⟨left, final, hahead, -⟩ := hleft.ahead
  obtain ⟨passed, hsplit, hbehind⟩ := hreaches.tokens
  rw [hahead, ← List.append_assoc] at hsplit
  obtain ⟨hfrontSplit, hfinal⟩ := List.append_inj' hsplit rfl
  cases hfinal
  refine ⟨passed, left, hfrontSplit, ?_⟩
  have hsame : error' = error := (Embedding.failure_eq herror).trans error.shift_zero
  have hlater := eq_of_aligned_lines haligned
  rw [hahead, hbehind, hleft.clean.2, hreaches'.mark] at hlater
  have hwhole : line source ++ more.toList = source.toList ++ '\n' :: more.toList := by simp [line]
  rw [hwhole]
  refine hfails'.trans ?_
  rw [hsame, hlater]
  simp

/-- The statement is skipped up to its semicolon, and its error is recorded. -/
theorem readRecovering_lines
    (hstarts : ∀ token ∈ front.tail, token.startsStatement = false) :
    Stmt.readRecovering settings.maxDepth (.ofSettings settings (line source ++ more.toList))
        (joined source more (front ++ [last]) others) =
      .ok none ⟨last :: front.reverse, others.map (·.shift (Text.byteLength (line source))),
        (joined source more (front ++ [last]) others).mark, #[.ofError error]⟩ := by
  let context : Context := .ofSettings settings (line source ++ more.toList)
  obtain ⟨passed, left, rfl, hstmt⟩ :=
    stmt_fails_lines hfits hlast hkind hfront hfails hfatal more others
  have hnone : ∀ token ∈ passed ++ left, ∀ text ∈ [";", "\x7b", "\x7d"], token.is text = false := by
    intro token htoken text htext
    exact Bool.eq_false_iff.2 (List.any_eq_false.1 (hfront token htoken) text htext)
  have hrestart : ∀ token ∈ (passed ++ left).tail, context.isRestart token = false := by
    intro token htoken
    have hother := hnone token (List.mem_of_mem_tail htoken)
    simp [context, Context.isRestart, Context.ofSettings, Token.isAny, hother, hstarts token htoken]
  rw [Stmt.readRecovering, Read.recovering_of_error context hstmt hfatal,
    Reading.resync_past context rfl hlast]
  · simp
  · exact fun token htoken => hnone token (List.mem_append_right _ htoken) ";" (by simp)
  · intro hposition token htoken
    have hpassed : passed = [] := by simpa [Reading.position, joined] using hposition
    subst hpassed
    exact hrestart token htoken
  · intro hposition token htoken
    cases passed with
    | nil => exact absurd rfl hposition
    | cons first passed => exact hrestart token (List.mem_append_right _ htoken)

/-- Behind a malformed statement the reading comes to the next line, with one error recorded. -/
theorem readStatements_after_malformed
    (hstarts : ∀ token ∈ front.tail, token.startsStatement = false) :
    ComesToNext settings source more (front ++ [last]) others [] [.ofError error] := by
  have hitem := readRecovering_lines hfits hlast hkind hfront hfails hfatal more others hstarts
  have hstop : (Bool.not <$> Read.hasTokens) (joined source more (front ++ [last]) others) =
      .ok false (joined source more (front ++ [last]) others) := by
    rw [Read.not_hasTokens_ok_iff]
    exact ⟨by simp [joined], rfl⟩
  have hmark : (joined source more (front ++ [last]) others).Marked := rfl
  refine ⟨_, Read.collect_of_item Read.halts_not_hasTokens hmark hstop hitem, rfl, rfl, rfl, ?_⟩
  rintro token ⟨⟩
  rw [byteLength_line]
  exact Nat.le_succ_of_le (hfits last (by simp)).2

end Lines

/-- A statement in a line of its own that cannot be read, but not for good, costs its error, and
what follows in the next line is read as if it stood alone. The statement has its only semicolon at
the end and no braces, and no keyword in it begins another one. -/
theorem parse_after_malformed {front : List Token} {last mark : Token} {error : Error}
    {later : Reading}
    (htokens : Token.tokenize settings source = .ok (front ++ [last, mark]))
    (hcomment : Token.endsInComment settings.foldNegative source.toList = false)
    (hlast : last.is ";" = true)
    (hfront : ∀ token ∈ front, token.isAny [";", "\x7b", "\x7d"] = false)
    (hstarts : ∀ token ∈ front.tail, token.startsStatement = false)
    (hfails : Stmt.read settings.maxDepth (.ofSettings settings source.toList)
      (Reading.ofTokens (front ++ [last, mark])) = .error error later)
    (hfatal : error.fatal = false) (more : String) :
    parse settings (source ++ "\n" ++ more) =
      behind [] [.ofError error] (Text.byteLength source.toList + 1) (parse settings more) := by
  have hkind : last.kind ≠ .keyword := by
    intro hkeyword
    have hword := Token.mem_keywords_of_scan htokens last (by simp) hkeyword
    rw [(Token.is_iff.1 hlast).2] at hword
    exact absurd hword (by decide)
  obtain ⟨body, hbody, hplaces⟩ := Token.tokenize_mark htokens
  obtain ⟨rest, stop, hrest, -, hreading⟩ := Reading.ofTokens_tokenize htokens
  rw [hreading] at hfails
  -- The list of tokens is split in the same way each time.
  rw [List.append_cons] at htokens hbody hrest
  obtain ⟨rfl, hmark⟩ := List.append_inj' hbody rfl
  obtain ⟨rfl, hstop⟩ := List.append_inj' hrest rfl
  rw [List.singleton_inj.1 hmark] at htokens hstop
  rw [← List.singleton_inj.1 hstop] at hfails
  refine parse_lines_eq_behind htokens hcomment fun others _ => ?_
  exact readStatements_after_malformed (fun token htoken => (hplaces token htoken).2) hlast hkind
    hfront hfails hfatal more others hstarts

/-- A call that is not closed and lacks an argument, and a statement in the next line. -/
theorem parse_after_malformed_call :
    let settings : Settings := ⟨6, true⟩
    let front : List Token := [⟨.identifier, "f", ⟨0, 1⟩⟩, ⟨.symbol, "(", ⟨1, 2⟩⟩,
      ⟨.identifier, "a", ⟨2, 3⟩⟩, ⟨.symbol, ",", ⟨3, 4⟩⟩]
    let last : Token := ⟨.symbol, ";", ⟨5, 6⟩⟩
    let error : Error := .ofCause (.unexpectedToken ";") ⟨5, 6⟩
    let later : Reading := ⟨front.reverse, [last], Token.endMark 6, #[]⟩
    Token.tokenize settings "f(a, ;" = .ok (front ++ [last, Token.endMark 6]) ∧
      Stmt.read 6 (.ofSettings settings "f(a, ;".toList)
        (Reading.ofTokens (front ++ [last, Token.endMark 6])) = .error error later ∧
      parse settings ("f(a, ;" ++ "\n" ++ "b;") =
        behind [] [.ofError error] 7 (parse settings "b;") := by
  intro settings front last error later
  have htokens : Token.tokenize settings "f(a, ;" = .ok (front ++ [last, Token.endMark 6]) := by cbv
  have hfails : Stmt.read 6 (.ofSettings settings "f(a, ;".toList)
      (Reading.ofTokens (front ++ [last, Token.endMark 6])) = .error error later := by cbv
  exact ⟨htokens, hfails, parse_after_malformed htokens (by cbv) (by decide) (by decide) (by decide)
    hfails rfl "b;"⟩

end Program

end ScriptLint
