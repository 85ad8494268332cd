import ScriptLint.Grammar.Reading

/-!
# The shape of a token stream

The tokens of a source end in one end mark, and no token in front of it is one. So a reading of them
starts with all the others ahead. The keywords among them have the spelling of one.
-/

namespace ScriptLint

/-- An operator has one of a few spellings, and a symbol is a single character. -/
theorem Lexeme.operatorOrSymbol_cases {c : Char} {rest : List Char} {kind : TokenKind}
    {value : String} (h : (Lexeme.operatorOrSymbol c rest).piece = .token kind value) :
    (kind = .operator ∧ value ∈ ["and", "or", "==", "!=", ">=", "<=", "=>"]) ∨
      (kind = .symbol ∧ value = String.ofList [c]) := by
  unfold Lexeme.operatorOrSymbol at h
  split at h
  · cases h
    exact .inr ⟨rfl, rfl⟩
  split at h
  next hoperator =>
      cases h
      refine .inl ⟨rfl, ?_⟩
      unfold Lexeme.operator? at hoperator
      split at hoperator <;> cases hoperator <;> decide
  next =>
      cases h
      exact .inr ⟨rfl, rfl⟩

/-- A lexeme that is a token is a string or a number, a word, or else an operator or a symbol. -/
theorem Lexeme.next_token_cases {fold : Bool} {c : Char} {rest : List Char} {kind : TokenKind}
    {value : String} (h : (Lexeme.next fold c rest).piece = .token kind value) :
    kind ∈ [.string, .number] ∨ (Lexeme.word c rest).piece = .token kind value ∨
      (Lexeme.operatorOrSymbol c rest).piece = .token kind value := by
  unfold Lexeme.next at h
  split at h
  · cases h
  split at h
  · cases h
  split at h
  · cases h
  split at h
  · split at h <;> cases h
    simp
  split at h
  · cases h
    simp
  split at h
  · cases h
    simp
  split at h
  · exact .inr (.inl h)
  · exact .inr (.inr h)

/-- A word is a keyword by its spelling, or else a name. -/
theorem Lexeme.word_cases {c : Char} {rest : List Char} {kind : TokenKind} {value : String}
    (h : (Lexeme.word c rest).piece = .token kind value) :
    (kind = .keyword ∧ value ∈ Token.keywords) ∨ kind = .identifier := by
  unfold Lexeme.word at h
  dsimp only at h
  split at h
  next hkeyword =>
      obtain ⟨rfl, rfl⟩ := Piece.token.inj h
      exact .inl ⟨rfl, List.contains_iff_mem.1 hkeyword⟩
  next =>
      cases h
      exact .inr rfl

/-- A lexeme is never an end mark. -/
theorem Lexeme.next_ne_eof (fold : Bool) (c : Char) (rest : List Char) (value : String) :
    (Lexeme.next fold c rest).piece ≠ .token .eof value := by
  intro h
  rcases Lexeme.next_token_cases h with hkind | hword | hsymbol
  · simp at hkind
  · simpa using Lexeme.word_cases hword
  · simpa using Lexeme.operatorOrSymbol_cases hsymbol

/-- A lexeme is a keyword only by its spelling. -/
theorem Lexeme.mem_keywords_of_next {fold : Bool} {c : Char} {rest : List Char} {value : String}
    (h : (Lexeme.next fold c rest).piece = .token .keyword value) : value ∈ Token.keywords := by
  rcases Lexeme.next_token_cases h with hkind | hword | hsymbol
  · simp at hkind
  · simpa using Lexeme.word_cases hword
  · simpa using Lexeme.operatorOrSymbol_cases hsymbol

/-- What follows a lexeme begins where it ends. -/
theorem Lexeme.add_byteLength (fold : Bool) (offset : Nat) (c : Char) (rest : List Char) :
    offset + Text.byteLength (c :: rest) =
      offset + Text.byteLength (Lexeme.next fold c rest).text +
        Text.byteLength (Lexeme.next fold c rest).rest := by
  rw [← Lexeme.text_append_rest fold c rest, Text.byteLength_append, Nat.add_assoc]

/-- Scanning a text succeeds behind a token only if scanning what follows it does. -/
theorem Token.exists_of_map_ok {result : Except Error (List Token)}
    {step : List Token → List Token} {tokens : List Token} (h : result.map step = .ok tokens) :
    ∃ later, result = .ok later ∧ tokens = step later := by
  cases result with
  | error error => cases h
  | ok later =>
      cases h
      exact ⟨later, rfl, rfl⟩

/-- Scanning a text fails behind a token as scanning what follows it does. -/
theorem Token.of_map_error {result : Except Error (List Token)} {step : List Token → List Token}
    {error : Error} (h : result.map step = .error error) : result = .error error := by
  cases result with
  | error failure =>
      cases h
      rfl
  | ok later => cases h

/-- The mark stands at the end of the text, and no other token is one. -/
theorem Token.scan_mark {fold : Bool} {offset : Nat} {text : List Char} {tokens : List Token}
    (h : Token.scan fold offset text = .ok tokens) :
    ∃ body, tokens = body ++ [Token.endMark (offset + Text.byteLength text)] ∧
      ∀ token ∈ body, token.kind ≠ .eof := by
  fun_induction Token.scan fold offset text generalizing tokens with
  | case1 offset =>
      cases h
      exact ⟨[], rfl, List.forall_mem_nil _⟩
  | case2 offset c rest lexeme stop =>
      rename_i hpiece ih
      rw [Lexeme.add_byteLength fold offset c rest]
      exact ih h
  | case3 offset c rest lexeme stop kind value =>
      rename_i hpiece ih
      rw [Lexeme.add_byteLength fold offset c rest]
      obtain ⟨later, hlater, rfl⟩ := Token.exists_of_map_ok h
      obtain ⟨body, rfl, hbody⟩ := ih hlater
      refine ⟨⟨kind, value, ⟨offset, stop⟩⟩ :: body, rfl, List.forall_mem_cons.2 ⟨?_, hbody⟩⟩
      rintro rfl
      exact Lexeme.next_ne_eof fold c rest value hpiece
  | case4 => cases h

/-- What holds of the end mark and of every lexeme holds of the tokens of a text. -/
theorem Token.forall_mem_scan {P : TokenKind → String → Prop} {fold : Bool} {offset : Nat}
    {text : List Char} {tokens : List Token} (hmark : P .eof "")
    (hnext : ∀ c rest kind value,
      (Lexeme.next fold c rest).piece = .token kind value → P kind value)
    (h : Token.scan fold offset text = .ok tokens) :
    ∀ token ∈ tokens, P token.kind token.value := by
  fun_induction Token.scan fold offset text generalizing tokens with
  | case1 offset =>
      cases h
      exact List.forall_mem_singleton.2 hmark
  | case2 offset c rest lexeme stop hpiece =>
      rename_i ih
      exact ih h
  | case3 offset c rest lexeme stop kind value hpiece =>
      rename_i ih
      obtain ⟨later, hscan, rfl⟩ := Token.exists_of_map_ok h
      exact List.forall_mem_cons.2 ⟨hnext c rest kind value hpiece, ih hscan⟩
  | case4 => cases h

/-- The keywords of a text are spelled like one. -/
theorem Token.mem_keywords_of_scan {fold : Bool} {offset : Nat} {text : List Char}
    {tokens : List Token} (h : Token.scan fold offset text = .ok tokens) :
    ∀ token ∈ tokens, token.kind = .keyword → token.value ∈ Token.keywords := by
  refine forall_mem_scan (P := fun kind value => kind = .keyword → value ∈ Token.keywords)
    nofun ?_ h
  rintro c rest kind value hpiece rfl
  exact Lexeme.mem_keywords_of_next hpiece

/-- Scanning fails only at a string that is never closed. -/
theorem Token.scan_error {fold : Bool} {offset : Nat} {text : List Char} {error : Error}
    (h : Token.scan fold offset text = .error error) :
    ∃ start rest, error = unterminated start rest := by
  fun_induction Token.scan fold offset text with
  | case1 => cases h
  | case2 offset c rest lexeme stop hpiece =>
      rename_i ih
      exact ih h
  | case3 offset c rest lexeme stop kind value hpiece =>
      rename_i ih
      exact ih (Token.of_map_error h)
  | case4 offset c rest lexeme hpiece =>
      cases h
      exact ⟨offset, lexeme.text, rfl⟩

variable {settings : Settings} {source : String} {tokens : List Token}

/-- A reading of tokens in front of an end mark has all of them ahead. -/
theorem Reading.ofTokens_append {body : List Token} {mark : Token}
    (hbody : ∀ token ∈ body, token.kind ≠ .eof) (hmark : mark.kind = .eof) :
    Reading.ofTokens (body ++ [mark]) = ⟨[], body, mark, #[]⟩ := by
  have hall : ∀ token ∈ body, (token.kind != .eof) = true := by
    intro token htoken
    simpa using hbody token htoken
  simp [Reading.ofTokens, List.takeWhile_append_of_pos hall, List.dropWhile_append_of_pos hall,
    hmark]

/-- A reading of the tokens of a source has all of them ahead but the end mark. -/
theorem Reading.ofTokens_tokenize (h : Token.tokenize settings source = .ok tokens) :
    ∃ body stop, tokens = body ++ [Token.endMark stop] ∧
      tokens.filter (·.kind != .eof) = body ∧
      Reading.ofTokens tokens = ⟨[], body, Token.endMark stop, #[]⟩ := by
  obtain ⟨body, rfl, hbody⟩ := Token.scan_mark h
  have hall : ∀ token ∈ body, (token.kind != .eof) = true := by
    intro token htoken
    simpa using hbody token htoken
  refine ⟨body, _, rfl, ?_, Reading.ofTokens_append hbody rfl⟩
  simp [List.filter_eq_self.2 hall, Token.endMark]

end ScriptLint
