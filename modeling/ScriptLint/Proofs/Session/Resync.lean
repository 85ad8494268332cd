import Mathlib
import ScriptLint.Proofs.Phrase.Recognition
import ScriptLint.Proofs.Session.Operations

/-!
# Where skipping stops

After an error the reader skips to the next place where a statement may begin or end.
`Session.skip_lands` says which place this is, for every place in the tokens of a source: the first
token that is a semicolon, a brace, a keyword that begins a statement, the end mark, or inside the
arms of a `match` one of the words that begin an arm. Nothing is changed but the place.
-/

namespace ScriptLint

namespace Token

/-! ## Tokens to stop at -/

/-- A semicolon. -/
def IsSemicolon (token : Token) : Prop :=
  token.kind = .symbol ∧ token.value = ";"

instance : DecidablePred IsSemicolon :=
  fun _ => inferInstanceAs (Decidable (_ ∧ _))

/-- The end mark is not a semicolon. -/
theorem not_isSemicolon_of_eof {token : Token} (h : token.kind = .eof) : ¬token.IsSemicolon := by
  rintro ⟨hsymbol, -⟩
  rw [hsymbol] at h
  cases h

/-- A token that skipping does not go beyond, with `matchDepth` `match` statements around. -/
def Stops (matchDepth : Nat) (token : Token) : Prop :=
  token.kind = .eof ∨
    (token.kind = .symbol ∧ token.value ∈ [";", "\x7b", "\x7d"]) ∨
    (token.kind = .keyword ∧ token.value ∈ statementKeywords) ∨
    (0 < matchDepth ∧ token.kind = .keyword ∧ token.value ∈ ["case", "default"])

/-- The values of operators. -/
def operatorValues : List String :=
  ["and", "or", "==", "!=", ">=", "<=", "=>"]

/-- A value that a token of a given kind can have, if it is known by its spelling. -/
structure Regular (kind : TokenKind) (value : String) : Prop where
  keyword : kind = .keyword → value ∈ keywords
  operator : kind = .operator → value ∈ operatorValues
  symbol : kind = .symbol → value.toList.length = 1

variable {settings : Settings} {source : String} {tokens : List Token} {token : Token}

/-- The tokens of a source are regular. -/
theorem regular_of_tokenize (h : tokenize settings source = .ok tokens) (hmem : token ∈ tokens) :
    Regular token.kind token.value := by
  refine forall_mem_scan (P := Regular) ⟨by simp, by simp, by simp⟩ ?_ h token hmem
  intro c rest kind value hpiece
  rcases Lexeme.next_token_cases hpiece with hkind | hword | hsymbol
  · rcases List.mem_pair.1 hkind with rfl | rfl
    · exact ⟨by simp, by simp, by simp⟩
    · exact ⟨by simp, by simp, by simp⟩
  · rcases Lexeme.word_cases hword with ⟨rfl, hvalue⟩ | rfl
    · exact ⟨fun _ => hvalue, by simp, by simp⟩
    · exact ⟨by simp, by simp, by simp⟩
  · rcases Lexeme.operatorOrSymbol_cases hsymbol with ⟨rfl, hvalue⟩ | ⟨rfl, rfl⟩
    · exact ⟨by simp, fun _ => hvalue, by simp⟩
    · exact ⟨by simp, by simp, fun _ => by simp⟩

/-- Only tokens of one kind can have some spellings. -/
def OnlyAs (kind : TokenKind) (texts : List String) : Prop :=
  ∀ text ∈ texts, ∀ other ∈ [.keyword, .operator, .symbol], Regular other text → other = kind

/-- What is said of some spellings holds of fewer. -/
theorem OnlyAs.mono {kind : TokenKind} {texts fewer : List String} (h : OnlyAs kind texts)
    (hfewer : fewer ⊆ texts) : OnlyAs kind fewer :=
  fun text htext => h text (hfewer htext)

theorem onlyAs_symbol : OnlyAs .symbol [";", "\x7b", "\x7d"] := by
  have hkeyword : ∀ text ∈ [";", "\x7b", "\x7d"], text ∉ keywords := by decide
  have hoperator : ∀ text ∈ [";", "\x7b", "\x7d"], text ∉ operatorValues := by decide
  intro text htext other hother hregular
  cases other with
  | symbol => rfl
  | keyword => exact absurd (hregular.keyword rfl) (hkeyword text htext)
  | operator => exact absurd (hregular.operator rfl) (hoperator text htext)
  | eof | string | number | identifier => simp at hother

theorem onlyAs_keyword : OnlyAs .keyword ["case", "default"] := by
  have hoperator : ∀ text ∈ ["case", "default"], text ∉ operatorValues := by decide
  have hlong : ∀ text ∈ ["case", "default"], text.toList.length ≠ 1 := by decide
  intro text htext other hother hregular
  cases other with
  | keyword => rfl
  | operator => exact absurd (hregular.operator rfl) (hoperator text htext)
  | symbol => exact absurd (hregular.symbol rfl) (hlong text htext)
  | eof | string | number | identifier => simp at hother

/-- Which kinds of tokens are known by their spelling. -/
theorem isSpelled_iff : token.isSpelled = true ↔ token.kind ∈ [.keyword, .operator, .symbol] := by
  unfold isSpelled
  cases token.kind <;> simp

/-- A regular token has one of such spellings iff it is of the kind that has them. -/
theorem isAny_iff_of_onlyAs {kind : TokenKind} {texts : List String}
    (hkind : kind ∈ [.keyword, .operator, .symbol]) (honly : OnlyAs kind texts)
    (h : Regular token.kind token.value) :
    token.isAny texts = true ↔ token.kind = kind ∧ token.value ∈ texts := by
  rw [isAny, List.any_eq_true]
  constructor
  · rintro ⟨text, htext, his⟩
    obtain ⟨hspelled, rfl⟩ := is_iff.1 his
    exact ⟨honly _ htext _ (isSpelled_iff.1 hspelled) h, htext⟩
  · rintro ⟨rfl, hvalue⟩
    exact ⟨token.value, hvalue, is_iff.2 ⟨isSpelled_iff.2 hkind, rfl⟩⟩

namespace Regular

variable (h : Regular token.kind token.value)
include h

/-- A regular token is spelled as a semicolon iff it is one. -/
theorem is_semicolon_iff : token.is ";" = true ↔ token.IsSemicolon := by
  have hany := isAny_iff_of_onlyAs (by decide) (onlyAs_symbol.mono (by simp : [";"] ⊆ _)) h
  rwa [isAny, List.any_cons, List.any_nil, Bool.or_false, List.mem_singleton] at hany

/-- Skipping stops at a token of a source, or right behind it, exactly if it is one to stop at. -/
theorem stops_iff {context : Context} {matchDepth : Nat}
    (hmatch : context.inMatch = decide (0 < matchDepth)) :
    token.Stops matchDepth ↔
      token.kind = .eof ∨ token.is ";" = true ∨ context.isRestart token = true := by
  have hbraces := isAny_iff_of_onlyAs (by decide)
    (onlyAs_symbol.mono (by simp : ["\x7b", "\x7d"] ⊆ _)) h
  have harms := isAny_iff_of_onlyAs (by decide) onlyAs_keyword h
  have hstatement : token.startsStatement = true ↔
      token.kind = .keyword ∧ token.value ∈ statementKeywords := by
    simp [startsStatement]
  rw [Context.isRestart, Bool.or_eq_true, Bool.or_eq_true, Bool.and_eq_true, hbraces, harms,
    hstatement, hmatch, decide_eq_true_eq, h.is_semicolon_iff, IsSemicolon, Stops,
    List.mem_cons (b := ";"), and_or_left]
  simp only [or_assoc]

end Regular

end Token

/-! ## Skipping -/

namespace Reading

variable {settings : Settings} {source : String} {tokens : List Token} {cursor matchDepth : Nat}
  {context : Context}

/-- At every place in the tokens of a source either the end mark is the current token and nothing is
ahead, or another token is, and the next reading is that of the next place. -/
theorem ofCursor_cases (h : Token.tokenize settings source = .ok tokens)
    (hcursor : cursor < tokens.length) (errors : Array ParseError) :
    (ofCursor tokens cursor errors).position = cursor ∧
      (ofCursor tokens cursor errors).current = tokens[cursor] ∧
      ((tokens[cursor].kind = .eof ∧ (ofCursor tokens cursor errors).ahead = []) ∨
        (tokens[cursor].kind ≠ .eof ∧ cursor + 1 < tokens.length ∧
          (∃ rest, (ofCursor tokens cursor errors).ahead = tokens[cursor] :: rest) ∧
          (ofCursor tokens cursor errors).next = ofCursor tokens (cursor + 1) errors)) := by
  obtain ⟨body, htokens, hbody⟩ := Token.scan_mark h
  obtain ⟨mark, hmark, rfl⟩ : ∃ mark : Token, mark.kind = .eof ∧ tokens = body ++ [mark] :=
    ⟨_, rfl, htokens⟩
  have hreading (position : Nat) : ofCursor (body ++ [mark]) position errors =
      ⟨(body.take position).reverse, body.drop position, mark, errors⟩ := by
    rw [ofCursor, ofTokens_append hbody hmark]
  have hle : cursor ≤ body.length := by
    rw [List.length_append, List.length_singleton] at hcursor
    omega
  refine ⟨?_, ?_⟩
  · rw [hreading, position, List.length_reverse, List.length_take, Nat.min_eq_left hle]
  rw [hreading, hreading, current]
  rcases Nat.lt_or_eq_of_le hle with hlt | rfl
  · have htoken : (body ++ [mark])[cursor] = body[cursor] :=
      List.getElem_append_left hlt
    have hahead : body.drop cursor = body[cursor] :: body.drop (cursor + 1) :=
      List.drop_eq_getElem_cons hlt
    rw [htoken, hahead]
    refine ⟨rfl, .inr ⟨hbody _ (List.getElem_mem hlt), ?_, ⟨_, rfl⟩, ?_⟩⟩
    · rw [List.length_append, List.length_singleton]
      omega
    · rw [next, List.take_succ_eq_append_getElem hlt, List.reverse_append]
      rfl
  · rw [List.getElem_concat_length rfl, List.drop_length]
    exact ⟨rfl, .inl ⟨hmark, rfl⟩⟩

/-- The first token to stop at, from a place on. -/
def FirstStop (tokens : List Token) (matchDepth cursor stop : Nat) : Prop :=
  IsLeast {index | cursor ≤ index ∧ ∃ token ∈ tokens[index]?, token.Stops matchDepth} stop

/-- A place to stop at is the first one from there on. -/
theorem firstStop_self {token : Token} (htoken : tokens[cursor]? = some token)
    (hstops : token.Stops matchDepth) : FirstStop tokens matchDepth cursor cursor :=
  ⟨⟨Nat.le_refl cursor, token, htoken, hstops⟩, fun _ hindex => hindex.1⟩

/-- A place that is not one to stop at does not count. -/
theorem FirstStop.of_next {token : Token} {stop : Nat} (htoken : tokens[cursor]? = some token)
    (hgoes : ¬token.Stops matchDepth) (h : FirstStop tokens matchDepth (cursor + 1) stop) :
    FirstStop tokens matchDepth cursor stop := by
  obtain ⟨⟨hle, hstop⟩, hleast⟩ := h
  refine ⟨⟨by omega, hstop⟩, fun index hindex => ?_⟩
  obtain ⟨hfrom, other, hother, hstops⟩ := hindex
  rcases Nat.lt_or_eq_of_le hfrom with hlt | rfl
  · exact hleast ⟨hlt, other, hother, hstops⟩
  · rw [htoken] at hother
    cases hother
    exact absurd hstops hgoes

/-- Skipping goes to the first token to stop at, and past it if it is a semicolon. -/
theorem skipAhead_lands (h : Token.tokenize settings source = .ok tokens)
    (hmatch : context.inMatch = decide (0 < matchDepth)) (hcursor : cursor < tokens.length)
    (errors : Array ParseError) :
    ∃ stop token, tokens[stop]? = some token ∧ FirstStop tokens matchDepth cursor stop ∧
      (ofCursor tokens cursor errors).skipAhead context =
        ofCursor tokens (if token.IsSemicolon then stop + 1 else stop) errors := by
  -- Each round goes one token on, so the induction is on the tokens that are left.
  induction hleft : tokens.length - cursor generalizing cursor with
  | zero => omega
  | succ left ih =>
      have htoken : tokens[cursor]? = some tokens[cursor] := List.getElem?_eq_getElem hcursor
      have hregular := Token.regular_of_tokenize h (List.getElem_mem hcursor)
      have hstops := hregular.stops_iff hmatch
      obtain ⟨-, -, ⟨heof, hahead⟩ | ⟨heof, hnext, ⟨rest, hahead⟩, hmoved⟩⟩ :=
        ofCursor_cases h hcursor errors
      · refine ⟨cursor, tokens[cursor], htoken, firstStop_self htoken (.inl heof), ?_⟩
        rw [skipAhead_of_nil context hahead, if_neg (Token.not_isSemicolon_of_eof heof)]
      · rw [skipAhead_of_cons context hahead, hmoved]
        by_cases hsemicolon : tokens[cursor].is ";" = true
        · refine ⟨cursor, tokens[cursor], htoken,
            firstStop_self htoken (hstops.2 (.inr (.inl hsemicolon))), ?_⟩
          rw [if_pos hsemicolon, if_pos (hregular.is_semicolon_iff.1 hsemicolon)]
        have hother : ¬tokens[cursor].IsSemicolon := fun hsame =>
          hsemicolon (hregular.is_semicolon_iff.2 hsame)
        by_cases hrestart : context.isRestart tokens[cursor] = true
        · refine ⟨cursor, tokens[cursor], htoken,
            firstStop_self htoken (hstops.2 (.inr (.inr hrestart))), ?_⟩
          rw [if_neg hsemicolon, if_pos hrestart, if_neg hother]
        · have hgoes : ¬tokens[cursor].Stops matchDepth := fun hstop =>
            (hstops.1 hstop).elim heof fun hagain => hagain.elim hsemicolon hrestart
          obtain ⟨stop, token, hstop, hfirst, hlands⟩ := ih hnext (by omega)
          refine ⟨stop, token, hstop, hfirst.of_next htoken hgoes, ?_⟩
          rw [if_neg hsemicolon, if_neg hrestart, hlands]

/-- The way back after an error in a statement that begins at `start`. One token is skipped in any
case if none has been read, and a semicolon is then the end of it. -/
theorem resync_lands (context : Context) (h : Token.tokenize settings source = .ok tokens)
    (hmatch : context.inMatch = decide (0 < matchDepth)) (hcursor : cursor < tokens.length)
    (errors : Array ParseError) (start : Nat) :
    ∃ landing,
      (ofCursor tokens cursor errors).resync context start = ofCursor tokens landing errors ∧
      if cursor = start ∧ tokens[cursor].IsSemicolon then landing = cursor + 1
      else ∃ stop token, tokens[stop]? = some token ∧
        FirstStop tokens matchDepth
          (if cursor = start ∧ tokens[cursor].kind ≠ .eof then cursor + 1 else cursor) stop ∧
        landing = if token.IsSemicolon then stop + 1 else stop := by
  have hregular := Token.regular_of_tokenize h (List.getElem_mem hcursor)
  obtain ⟨hposition, hcurrent, hcases⟩ := ofCursor_cases h hcursor errors
  rw [resync, hposition, hcurrent]
  by_cases hstart : cursor = start
  · subst hstart
    simp only [true_and, if_true]
    rcases hcases with ⟨heof, hahead⟩ | ⟨heof, hnext, -, hmoved⟩
    · have hstays : (ofCursor tokens cursor errors).next = ofCursor tokens cursor errors := by
        rw [next, hahead]
      have hother := Token.not_isSemicolon_of_eof heof
      obtain ⟨stop, token, hstop, hfirst, hlands⟩ := skipAhead_lands h hmatch hcursor errors
      rw [if_neg fun his => hother (hregular.is_semicolon_iff.1 his), hstays]
      simp only [if_neg hother, if_neg (not_not.2 heof)]
      exact ⟨_, hlands, stop, token, hstop, hfirst, rfl⟩
    · rw [hmoved]
      by_cases hsemicolon : tokens[cursor].IsSemicolon
      · simp only [if_pos (hregular.is_semicolon_iff.2 hsemicolon), if_pos hsemicolon]
        exact ⟨cursor + 1, rfl, rfl⟩
      · obtain ⟨stop, token, hstop, hfirst, hlands⟩ := skipAhead_lands h hmatch hnext errors
        rw [if_neg fun his => hsemicolon (hregular.is_semicolon_iff.1 his)]
        simp only [if_neg hsemicolon, if_pos heof]
        exact ⟨_, hlands, stop, token, hstop, hfirst, rfl⟩
  · simp only [hstart, false_and, if_false]
    obtain ⟨stop, token, hstop, hfirst, hlands⟩ := skipAhead_lands h hmatch hcursor errors
    exact ⟨_, hlands, stop, token, hstop, hfirst, rfl⟩

end Reading

namespace Session

/-- After an error in a statement that begins at `start` the reader skips one token if it has read
none, and then goes to the first token to stop at, and past it if it is a semicolon. A semicolon
that is skipped first is the end of it. Nothing else is changed. -/
theorem skip_lands (settings : Settings) (source : String) (tokens : List Token)
    (htokens : Token.tokenize settings source = .ok tokens) (context : Context) (cursor start : Nat)
    (hcursor : cursor < tokens.length) (errors : Array ParseError) (depth matchDepth : Nat) :
    let session (position : Nat) : Session :=
      ⟨Reading.ofCursor tokens position errors, depth, matchDepth⟩
    let first := if cursor = start ∧ tokens[cursor].kind ≠ .eof then cursor + 1 else cursor
    ∃ landing,
      Work.lift context (fun _ context => Read.resync context start) (session cursor) =
        .ok () (session landing) ∧
      if cursor = start ∧ tokens[cursor].IsSemicolon then landing = cursor + 1
      else ∃ stop token, tokens[stop]? = some token ∧
        Reading.FirstStop tokens matchDepth first stop ∧
        landing = if token.IsSemicolon then stop + 1 else stop := by
  intro session first
  let here := (session cursor).surroundings context
  obtain ⟨landing, hresync, hlanding⟩ :=
    Reading.resync_lands here htokens rfl hcursor errors start
  refine ⟨landing, ?_, hlanding⟩
  show EStateM.Result.ok () { session cursor with
    reading := (Reading.ofCursor tokens cursor errors).resync here start } = _
  rw [hresync]

/-- Inside the arms of a `match`, skipping from the start of `a)case b;` stops in front of `case`.
-/
theorem skip_lands_arm :
    let tokens : List Token := [⟨.identifier, "a", ⟨0, 1⟩⟩, ⟨.symbol, ")", ⟨1, 2⟩⟩,
      ⟨.keyword, "case", ⟨2, 6⟩⟩, ⟨.identifier, "b", ⟨7, 8⟩⟩, ⟨.symbol, ";", ⟨8, 9⟩⟩,
      Token.endMark 9]
    let context := Context.ofSettings {} "a)case b;".toList
    let session (position : Nat) : Session := ⟨Reading.ofCursor tokens position #[], 3, 1⟩
    Token.tokenize {} "a)case b;" = .ok tokens ∧
      Work.lift context (fun _ context => Read.resync context 0) (session 0) =
        .ok () (session 2) ∧
      ∃ landing,
        Work.lift context (fun _ context => Read.resync context 0) (session 0) =
          .ok () (session landing) ∧
        ∃ stop token, tokens[stop]? = some token ∧
          Reading.FirstStop tokens 1 1 stop ∧
          landing = if token.IsSemicolon then stop + 1 else stop := by
  intro tokens context session
  have htokens : Token.tokenize {} "a)case b;" = .ok tokens := by decide +kernel
  obtain ⟨landing, hrun, hlanding⟩ :=
    skip_lands {} "a)case b;" tokens htokens context 0 0 (by decide) #[] 3 1
  rw [if_neg (by decide)] at hlanding
  exact ⟨htokens, rfl, landing, hrun, hlanding⟩

end Session

end ScriptLint
