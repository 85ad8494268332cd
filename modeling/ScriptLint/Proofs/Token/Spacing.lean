import Mathlib
import ScriptLint.Proofs.Folding.Tokens
import ScriptLint.Proofs.Token.OpenString

/-!
# Tokens that are set apart

The text of a token is cut into that token again wherever a delimiter follows it, whatever followed
it before: `Token.Written.next_delimited`. So the texts of all tokens of a source with a space
between them have the same tokens as the source. A line feed sets whole sources apart, unless the
first one ends inside a block comment.
-/

namespace ScriptLint

/-- The start of a word is not a blank. -/
theorem Text.isBlank_of_isWordStart {c : Char} (h : Lexeme.isWordStart c = true) :
    Text.isBlank c = false := by
  simp only [Lexeme.isWordStart, Bool.or_eq_true, beq_iff_eq] at h
  rcases h with (h | rfl) | rfl
  · -- Letters have their code points in two ranges without blanks.
    have hletter : (decide (c.val ≥ 65 ∧ c.val ≤ 90) ||
        (decide (c.val ≥ 97) && decide (c.val ≤ 122))) = true := h
    have hrange : 65 ≤ c.toNat ∧ c.toNat ≤ 122 := by
      simp only [Bool.or_eq_true, Bool.and_eq_true, decide_eq_true_eq, ge_iff_le,
        UInt32.le_iff_toNat_le] at hletter
      have hval : c.toNat = c.val.toNat := rfl
      rw [hval]
      rcases hletter with ⟨hlow, hhigh⟩ | ⟨hlow, hhigh⟩
      · exact ⟨hlow, Nat.le_trans hhigh (by decide)⟩
      · exact ⟨Nat.le_trans (by decide) hlow, hhigh⟩
    simp only [isBlank, blankRanges, List.any_cons, List.any_nil, Bool.or_false,
      Bool.or_eq_false_iff, Bool.and_eq_false_iff, decide_eq_false_iff_not]
    omega
  · decide
  · decide

namespace Lexeme

variable {fold : Bool} {c : Char} {rest text : List Char}

/-! ## The text of a token alone -/

/-- Of a numeral nothing is left over. -/
theorem numeral_of_isNumeral (h : IsNumeral text) : numeral text = (text, []) := by
  have happend := numeral_append text
  have hlength : text.length ≤ (numeral text).1.length :=
    (numeral_longest h.startsWithDigit).2 text (by rw [happend]) h
  have hnone : (numeral text).2 = [] := by
    have hsum := congrArg List.length happend
    rw [List.length_append] at hsum
    exact List.length_eq_zero_iff.1 (by omega)
  rw [hnone, List.append_nil] at happend
  exact Prod.ext happend hnone

/-- At the start of a word the next lexeme is a word. -/
theorem next_word (h : isWordStart c = true) (fold : Bool) (rest : List Char) :
    next fold c rest = word c rest := by
  have hne : ∀ d : Char, isWordStart d = false → c ≠ d := by
    rintro d hd rfl
    rw [h] at hd
    cases hd
  rw [next, if_neg (by simp [Text.isBlank_of_isWordStart h]), if_neg (fun h => hne '/' rfl h.1),
    if_neg (fun h => hne '/' rfl h.1), if_neg (by simp [isQuote_of_isWordStart h]),
    if_neg (fun h => hne '-' rfl h.2.1), if_neg (by simp [isDigit_of_isWordStart h]), if_pos h]

/-- A word is all of itself. -/
theorem word_of_isWord (h : IsWord (c :: rest)) : (word c rest).text = c :: rest ∧
    (word c rest).rest = [] := by
  obtain ⟨-, hparts⟩ := h
  exact ⟨congrArg (c :: ·) (List.takeWhile_eq_self_iff.2 hparts),
    List.dropWhile_eq_nil_iff.2 hparts⟩

/-- The text of a number alone is that number. -/
theorem next_of_isNumber (h : IsNumber fold (c :: rest)) :
    next fold c rest = ⟨.token .number (String.ofList (c :: rest)), c :: rest, []⟩ := by
  generalize htext : c :: rest = text at h
  cases h with
  | plain hplain =>
      subst htext
      rw [next_digit fold hplain.startsWithDigit, numeral_of_isNumeral hplain]
  | negative hfold hplain =>
      obtain ⟨rfl, rfl⟩ := List.cons.inj htext
      rw [hfold, next_signed hplain.startsWithDigit, numeral_of_isNumeral hplain]

/-- The text of a word alone is that word. -/
theorem next_of_isWord (h : IsWord (c :: rest)) (fold : Bool) :
    next fold c rest = ⟨.token (if Token.keywords.contains (String.ofList (c :: rest))
      then .keyword else .identifier) (String.ofList (c :: rest)), c :: rest, []⟩ := by
  obtain ⟨htext, hrest⟩ := word_of_isWord h
  obtain ⟨hstart, -⟩ := h
  rw [next_word hstart]
  simp only [word] at htext hrest ⊢
  rw [htext, hrest]

/-- The text of an operator alone is that operator. -/
theorem next_of_mem_operators {value : String} (h : (c :: rest, value) ∈ operators)
    (fold : Bool) : next fold c rest = ⟨.token .operator value, c :: rest, []⟩ := by
  simp only [operators, List.mem_cons, Prod.mk.injEq, List.cons.injEq, List.not_mem_nil,
    or_false] at h
  rcases h with ⟨⟨rfl, rfl⟩, rfl⟩ | ⟨⟨rfl, rfl⟩, rfl⟩ | ⟨⟨rfl, rfl⟩, rfl⟩ | ⟨⟨rfl, rfl⟩, rfl⟩ |
    ⟨⟨rfl, rfl⟩, rfl⟩ | ⟨⟨rfl, rfl⟩, rfl⟩ | ⟨⟨rfl, rfl⟩, rfl⟩ <;> cases fold <;> decide

/-- A character that stands for itself in front of some text does so alone. -/
theorem next_of_bare {back : List Char} (h : Bare fold c back) :
    next fold c [] = ⟨.token .symbol (String.ofList [c]), [c], []⟩ := by
  simp [next, h.not_blank, h.not_quote, startsWithDigit, h.isDigit_eq_false,
    h.isWordStart_eq_false, operatorOrSymbol]

/-- A token does not begin as blanks or a comment do. -/
theorem not_filler_of_piece {kind : TokenKind} {value : String}
    (h : (next fold c rest).piece = .token kind value) :
    Text.isBlank c = false ∧ (c = '/' → rest.head? ≠ some '/') ∧
      (c = '/' → rest.head? ≠ some '*') := by
  rw [next] at h
  split at h
  · cases h
  next hblank =>
  split at h
  · cases h
  next hline =>
  split at h
  · cases h
  next hblock =>
  exact ⟨by simpa using hblank, fun hc hhead => hline ⟨hc, hhead⟩,
    fun hc hhead => hblock ⟨hc, hhead⟩⟩

/-- A space is a delimiter. -/
theorem isDelimiter_space : IsDelimiter ' ' :=
  .of_notMem (by decide) (by decide)

end Lexeme

namespace Token

variable {fold : Bool} {back : List Char} {kind : TokenKind} {value : String}

/-- Every token is written with at least one character. -/
theorem Written.ne_nil {text : List Char} (h : Written fold back kind value text) : text ≠ [] := by
  rintro rfl
  obtain ⟨rfl, rfl⟩ := Prod.mk.inj h.ofText_eq
  cases h

/-- The text of a token alone is that token. -/
theorem Written.next_alone {c : Char} {rest : List Char}
    (h : Written fold back kind value (c :: rest)) :
    Lexeme.next fold c rest = ⟨.token kind value, c :: rest, []⟩ := by
  generalize htext : c :: rest = text at h
  cases h with
  | string hquote henclosed =>
      obtain ⟨rfl, rfl⟩ := List.cons.inj htext
      have hquoted := henclosed.quoted? (Lexeme.ne_backslash_of_isQuote hquote) []
      exact Lexeme.next_quoted hquote hquoted fold
  | number hlongest =>
      subst htext
      exact Lexeme.next_of_isNumber hlongest.1
  | keyword hlongest hmem =>
      subst htext
      rw [Lexeme.next_of_isWord hlongest.1, if_pos (List.contains_iff_mem.2 hmem)]
  | identifier hlongest hmem =>
      subst htext
      rw [Lexeme.next_of_isWord hlongest.1, if_neg fun hkey => hmem (List.contains_iff_mem.1 hkey)]
  | operator hmem =>
      subst htext
      exact Lexeme.next_of_mem_operators hmem fold
  | symbol hbare =>
      obtain ⟨rfl, rfl⟩ := List.cons.inj htext
      exact Lexeme.next_of_bare hbare

/-- The text of a token in front of a delimiter is that token. -/
theorem Written.next_delimited {c d : Char} {rest : List Char} (hd : Lexeme.IsDelimiter d)
    (h : Written fold back kind value (c :: rest)) (more : List Char) :
    Lexeme.next fold c (rest ++ d :: more) = ⟨.token kind value, c :: rest, d :: more⟩ := by
  have halone := h.next_alone
  have hpiece := congrArg Lexeme.piece halone
  obtain ⟨hblank, hline, hblock⟩ := Lexeme.not_filler_of_piece hpiece
  rw [Lexeme.next_delimited hd more fold c rest (by simp [hpiece])
    (fun hc hhead => absurd hhead (hblock hc)) (fun hc hhead _ => absurd hhead (hline hc))
    (fun hc _ => by simp [hblank] at hc), halone]
  rfl

/-! ## Tokens with a blank between them -/

/-- The text of a token alone is scanned into that token. -/
theorem Written.scan_alone {text : List Char} (h : Written fold back kind value text)
    (offset : Nat) :
    scan fold offset text =
      .ok [⟨kind, value, ⟨offset, offset + Text.byteLength text⟩⟩,
        endMark (offset + Text.byteLength text)] := by
  obtain ⟨c, rest, rfl⟩ := List.exists_cons_of_ne_nil h.ne_nil
  rw [scan_cons_token h.next_alone, scan_nil]
  rfl

/-- A blank delimiter behind the text of a token ends it and leads to what follows. -/
theorem Written.scan_delimited {d : Char} {text : List Char} (hd : Lexeme.IsDelimiter d)
    (hblank : Text.isBlank d = true) (h : Written fold back kind value text) (offset : Nat)
    (more : List Char) :
    scan fold offset (text ++ d :: more) =
      (scan fold (offset + Text.byteLength text + Text.byteLength [d]) more).map
        (⟨kind, value, ⟨offset, offset + Text.byteLength text⟩⟩ :: ·) := by
  obtain ⟨c, rest, rfl⟩ := List.exists_cons_of_ne_nil h.ne_nil
  have hskip := scan_blanks_append fold (offset + Text.byteLength (c :: rest))
    (List.forall_mem_singleton.2 hblank) more
  rw [List.cons_append, scan_cons_token (h.next_delimited hd more), ← hskip]
  rfl

/-- The texts of tokens with a blank between any two of them have those tokens. -/
theorem scan_intercalate {d : Char} (hd : Lexeme.IsDelimiter d) (hblank : Text.isBlank d = true)
    {text : Token → List Char} {tokens : List Token}
    (h : ∀ token ∈ tokens, ∃ back, Written fold back token.kind token.value (text token))
    (offset : Nat) :
    ∃ again, scan fold offset ([d].intercalate (tokens.map text)) = .ok again ∧
      again.map form = tokens.map form ++ [(.eof, "")] := by
  induction tokens generalizing offset with
  | nil => exact ⟨_, scan_nil fold offset, rfl⟩
  | cons token others ih =>
      obtain ⟨⟨back, hwritten⟩, hothers⟩ := List.forall_mem_cons.1 h
      cases others with
      | nil =>
          rw [List.map_singleton, List.intercalate_singleton]
          exact ⟨_, hwritten.scan_alone offset, rfl⟩
      | cons other later =>
          have hstep := hwritten.scan_delimited hd hblank offset
            ([d].intercalate ((other :: later).map text))
          obtain ⟨again, hscan, hforms⟩ := ih hothers _
          rw [hscan] at hstep
          rw [List.map_cons, List.map_cons, List.intercalate_cons_cons, ← List.map_cons,
            List.append_assoc, List.singleton_append]
          exact ⟨_, hstep, congrArg (token.form :: ·) hforms⟩

variable {settings : Settings} {source : String} {tokens : List Token}

/-- The tokens of a source can be told apart by their texts: the texts under all of them but the
mark, with a space between any two, have the same tokens at other places. -/
theorem tokenize_spaced (h : tokenize settings source = .ok tokens) :
    ∃ (texts : List (List Char)) (again : List Token),
      ((tokens.filter (·.kind != .eof)).map fun token =>
        Text.slice? source.toList token.span.start token.span.stop) = texts.map some ∧
      tokenize settings (" ".intercalate (texts.map String.ofList)) = .ok again ∧
      again.map form = tokens.map form := by
  have hstands := @scan_standsIn _ _ _ [] _ h rfl
  obtain ⟨body, stop, rfl, hbody, -⟩ := Reading.ofTokens_tokenize h
  let text (token : Token) : List Char :=
    (Text.slice? source.toList token.span.start token.span.stop).getD []
  have htext : ∀ token ∈ body,
      Text.slice? source.toList token.span.start token.span.stop = some (text token) ∧
        ∃ back, Written settings.foldNegative back token.kind token.value (text token) := by
    intro token htoken
    rw [← hbody, List.mem_filter, bne_iff_ne] at htoken
    obtain ⟨found, back, hslice, hwritten⟩ := (hstands token htoken.1 htoken.2).slice?
    have hfound : text token = found := congrArg (Option.getD · []) hslice
    rw [hfound]
    exact ⟨hslice, back, hwritten⟩
  obtain ⟨again, hscan, hforms⟩ := scan_intercalate Lexeme.isDelimiter_space (by decide)
    (fun token htoken => (htext token htoken).2) 0
  refine ⟨body.map text, again, ?_, ?_, ?_⟩
  · rw [hbody, List.map_map]
    exact List.map_congr_left fun token htoken => (htext token htoken).1
  · have hspaced : (" ".intercalate ((body.map text).map String.ofList)).toList =
        [' '].intercalate (body.map text) := by
      rw [String.toList_intercalate, List.map_map]
      simp [Function.comp_def]
    rw [tokenize, hspaced, hscan]
  · rw [hforms, List.map_append]
    rfl

theorem tokenize_spaced_crowded :
    let tokens : List Token := [⟨.identifier, "a", ⟨0, 1⟩⟩, ⟨.number, "-1.5", ⟨5, 9⟩⟩,
      ⟨.operator, "and", ⟨9, 11⟩⟩, ⟨.string, "\\' /*", ⟨11, 18⟩⟩, ⟨.operator, "=>", ⟨18, 20⟩⟩,
      ⟨.symbol, "§", ⟨20, 22⟩⟩, endMark 22]
    tokenize ⟨8, true⟩ "a/**/-1.5&&'\\' /*'=>§" = .ok tokens ∧
      ∃ again, tokenize ⟨8, true⟩ "a -1.5 && '\\' /*' => §" = .ok again ∧
        again.map form = tokens.map form := by
  intro tokens
  have htokens : tokenize ⟨8, true⟩ "a/**/-1.5&&'\\' /*'=>§" = .ok tokens := by decide +kernel
  obtain ⟨texts, again, htexts, hagain, hforms⟩ := tokenize_spaced htokens
  have hslices : ((tokens.filter (·.kind != .eof)).map fun token =>
      Text.slice? "a/**/-1.5&&'\\' /*'=>§".toList token.span.start token.span.stop) =
        ["a".toList, "-1.5".toList, "&&".toList, "'\\' /*'".toList, "=>".toList,
          "§".toList].map some := by decide +kernel
  obtain rfl := List.map_injective_iff.2 (Option.some_injective _) (htexts.symm.trans hslices)
  exact ⟨htokens, again, hagain, hforms⟩

/-! ## Sources on lines of their own -/

/-- Two sources with a line feed between them can be cut into tokens if and only if the second one
can, where the first one can and does not end inside a block comment. The tokens are those of the
first one without its mark, and those of the second one, moved behind the line feed. An open string
of the second one is an open string of the whole, moved likewise. -/
theorem tokenize_append_line (h : tokenize settings source = .ok tokens)
    (hcomment : endsInComment settings.foldNegative source.toList = false) (more : String) :
    ((∃ all, tokenize settings (source ++ "\n" ++ more) = .ok all) ↔
      ∃ others, tokenize settings more = .ok others) ∧
    (∀ others, tokenize settings more = .ok others →
      tokenize settings (source ++ "\n" ++ more) =
        .ok (tokens.filter (·.kind != .eof) ++
          others.map (·.shift (Text.byteLength source.toList + 1)))) ∧
    ∀ error, tokenize settings more = .error error →
      ∃ start, error.cause = .unterminatedString start ∧
        tokenize settings (source ++ "\n" ++ more) =
          .error ⟨.unterminatedString (start + (Text.byteLength source.toList + 1)),
            error.span.shift (Text.byteLength source.toList + 1), error.fatal⟩ := by
  obtain ⟨body, rfl, hkinds⟩ := tokenize_mark h
  have hbody : (body ++ [endMark (Text.byteLength source.toList)]).filter (·.kind != .eof) =
      body := by
    rw [List.filter_append, List.filter_eq_self.2 fun token htoken =>
      bne_iff_ne.2 (hkinds token htoken).1]
    exact List.append_nil body
  have hwhole := tokenize_line_feed h hcomment more
  cases hmore : tokenize settings more with
  | ok others =>
      rw [hmore] at hwhole
      refine ⟨iff_of_true ⟨_, hwhole⟩ ⟨others, rfl⟩, ?_, fun error herror => by cases herror⟩
      rintro _ ⟨⟩
      rw [hbody, hwhole]
  | error error =>
      rw [hmore] at hwhole
      refine ⟨iff_of_false ?_ ?_, fun others hothers => (by cases hothers), ?_⟩
      · rintro ⟨all, hall⟩
        cases hwhole.symm.trans hall
      · rintro ⟨others, hothers⟩
        cases hothers
      · rintro _ ⟨⟩
        obtain ⟨start, rest, rfl⟩ := scan_error hmore
        exact ⟨start, rfl, hwhole⟩

theorem tokenize_append_line_comment :
    tokenize ⟨8, true⟩ "a //" = .ok [⟨.identifier, "a", ⟨0, 1⟩⟩, endMark 4] ∧
      endsInComment true "a //".toList = false ∧
      tokenize ⟨8, true⟩ ("a //" ++ "\n" ++ "-1") =
        .ok [⟨.identifier, "a", ⟨0, 1⟩⟩, ⟨.number, "-1", ⟨5, 7⟩⟩, endMark 7] ∧
      tokenize ⟨8, true⟩ ("a //" ++ "\n" ++ "'b") =
        .error ⟨.unterminatedString 5, ⟨5, 7⟩, true⟩ := by
  have htokens : tokenize ⟨8, true⟩ "a //" = .ok [⟨.identifier, "a", ⟨0, 1⟩⟩, endMark 4] := by
    decide +kernel
  have hcomment : endsInComment true "a //".toList = false := by decide +kernel
  obtain ⟨-, hall, -⟩ := tokenize_append_line htokens hcomment "-1"
  obtain ⟨-, -, hfails⟩ := tokenize_append_line htokens hcomment "'b"
  have hnumber : tokenize ⟨8, true⟩ "-1" = .ok [⟨.number, "-1", ⟨0, 2⟩⟩, endMark 2] := by
    decide +kernel
  have hopen : tokenize ⟨8, true⟩ "'b" = .error ⟨.unterminatedString 0, ⟨0, 2⟩, true⟩ := by
    decide +kernel
  obtain ⟨start, hstart, herror⟩ := hfails _ hopen
  cases hstart
  exact ⟨htokens, hcomment, hall _ hnumber, herror⟩

end Token

end ScriptLint
