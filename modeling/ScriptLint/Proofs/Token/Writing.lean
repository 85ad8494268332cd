import Mathlib.Data.List.TakeWhile
import ScriptLint.Number.Numeral
import ScriptLint.Proofs.Token.Stream

/-!
# How tokens are written

The written forms of tokens and of what may stand between them, stated without the scanner. A number
or a word is the longest text of its form at its place, a string has no closing quote inside, and a
symbol stands only where nothing else can begin. `Lexeme.next_written` says that every lexeme has
the form of its kind, and `Token.Written.ofText_eq` that the text of a token determines it. Every
number that is written in this way is read as a double: `Token.Written.exists_toDouble?`.
-/

namespace ScriptLint

namespace Text

/-- Of the beginnings of `text ++ back` that have the form, `text` is the longest. -/
def Longest (form : List Char → Prop) (text back : List Char) : Prop :=
  form text ∧ ∀ other, other <+: text ++ back → form other → other.length ≤ text.length

end Text

namespace Lexeme

/-- Digits, and possibly a point with more digits. -/
inductive IsNumeral : List Char → Prop where
  | whole {digits : List Char} : Numeral.isDigits digits = true → IsNumeral digits
  | decimal {digits places : List Char} : Numeral.isDigits digits = true →
      Numeral.isDigits places = true → IsNumeral (digits ++ '.' :: places)

/-- A numeral, which may have a minus sign in front if `fold` says so. -/
inductive IsNumber (fold : Bool) : List Char → Prop where
  | plain {text : List Char} : IsNumeral text → IsNumber fold text
  | negative {text : List Char} : fold = true → IsNumeral text → IsNumber fold ('-' :: text)

/-- A letter, an underscore or a dollar sign, and then such characters and digits. -/
inductive IsWord : List Char → Prop where
  | mk {c : Char} {rest : List Char} : isWordStart c = true →
      (∀ d ∈ rest, isWordPart d = true) → IsWord (c :: rest)

/-- The text inside a string: a backslash takes the next character with it, and there is no other
closing quote. -/
inductive Enclosed (quote : Char) : List Char → Prop where
  | nil : Enclosed quote []
  | escape (c : Char) {rest : List Char} : Enclosed quote rest → Enclosed quote ('\\' :: c :: rest)
  | plain {c : Char} {rest : List Char} : c ≠ quote → c ≠ '\\' → Enclosed quote rest →
      Enclosed quote (c :: rest)

/-- The operators of two characters, with their values. -/
def operators : List (List Char × String) :=
  [(['=', '='], "=="), (['!', '='], "!="), (['>', '='], ">="), (['<', '='], "<="),
    (['=', '>'], "=>"), (['&', '&'], "and"), (['|', '|'], "or")]

/-- Nothing but a symbol can begin with `c` in front of `back`. -/
structure Bare (fold : Bool) (c : Char) (back : List Char) : Prop where
  not_blank : Text.isBlank c = false
  not_quote : isQuote c = false
  not_comment : c = '/' → back.head? ≠ some '/' ∧ back.head? ≠ some '*'
  not_number : ∀ text, text <+: c :: back → ¬ IsNumber fold text
  not_word : ∀ text, text <+: c :: back → ¬ IsWord text
  not_operator : ∀ text, text <+: c :: back → ∀ value, (text, value) ∉ operators

/-- A piece of what may stand between tokens: a run of blanks, a comment up to the end of its line,
or one up to the first `*/`. Only at the end of the source may that be missing. -/
inductive Filler (back : List Char) : List Char → Prop where
  | blanks {text : List Char} : text ≠ [] → (∀ c ∈ text, Text.isBlank c = true) → Filler back text
  | line {inner : List Char} : '\n' ∉ inner → back.head?.all (· = '\n') →
      Filler back ('/' :: '/' :: inner)
  | block {inner : List Char} : ¬ ['*', '/'] <:+: inner →
      Filler back ('/' :: '*' :: (inner ++ ['*', '/']))
  | openBlock {inner : List Char} : ¬ ['*', '/'] <:+: inner → back = [] →
      Filler back ('/' :: '*' :: inner)

/-- What may stand between tokens in front of `back`. -/
inductive Gap (back : List Char) : List Char → Prop where
  | nil : Gap back []
  | cons {piece more : List Char} : Filler (more ++ back) piece → Gap back more →
      Gap back (piece ++ more)

/-- A gap may be made longer at its end. -/
theorem Gap.snoc {back gap piece : List Char} (h : Gap (piece ++ back) gap)
    (hpiece : Filler back piece) : Gap back (gap ++ piece) := by
  induction h with
  | nil =>
      have hgap : Gap back (piece ++ []) := .cons (by simpa using hpiece) .nil
      simpa using hgap
  | cons hfiller _ ih =>
      rw [List.append_assoc]
      refine .cons ?_ ih
      rwa [List.append_assoc]

end Lexeme

/-- The token of a kind with a value is written as a text in front of `back`. -/
inductive Token.Written (fold : Bool) (back : List Char) :
    TokenKind → String → List Char → Prop where
  | string {quote : Char} {inner : List Char} : Lexeme.isQuote quote = true →
      Lexeme.Enclosed quote inner →
      Written fold back .string (String.ofList inner) (quote :: (inner ++ [quote]))
  | number {text : List Char} : Text.Longest (Lexeme.IsNumber fold) text back →
      Written fold back .number (String.ofList text) text
  | keyword {text : List Char} : Text.Longest Lexeme.IsWord text back →
      String.ofList text ∈ Token.keywords → Written fold back .keyword (String.ofList text) text
  | identifier {text : List Char} : Text.Longest Lexeme.IsWord text back →
      String.ofList text ∉ Token.keywords →
      Written fold back .identifier (String.ofList text) text
  | operator {text : List Char} {value : String} : (text, value) ∈ Lexeme.operators →
      Written fold back .operator value text
  | symbol {c : Char} : Lexeme.Bare fold c back →
      Written fold back .symbol (String.ofList [c]) [c]

/-! ## Lexemes are written as they should be -/

namespace Lexeme

variable {fold : Bool} {text back : List Char}

/-- A beginning of a text whose characters all pass is a beginning of the run that passes. -/
theorem prefix_takeWhile {p : Char → Bool} {front : List Char} (hfront : ∀ c ∈ front, p c = true)
    (h : front <+: text) : front <+: text.takeWhile p := by
  obtain ⟨more, rfl⟩ := h
  rw [List.takeWhile_append_of_pos hfront]
  exact List.prefix_append _ _

/-- Digits are a text that is not empty and has only digits. -/
theorem isDigits_iff : Numeral.isDigits text = true ↔ text ≠ [] ∧ ∀ c ∈ text, c.isDigit = true := by
  simp [Numeral.isDigits]

/-- The digits at the start of a text, if it starts with one. -/
theorem isDigits_takeWhile (h : startsWithDigit text = true) :
    Numeral.isDigits (text.takeWhile Char.isDigit) = true := by
  cases text with
  | nil => cases h
  | cons c rest =>
      have hc : c.isDigit = true := h
      refine isDigits_iff.2 ⟨by simp [hc], fun d hd => List.mem_takeWhile_imp hd⟩

/-- A numeral begins with a digit. -/
theorem IsNumeral.exists_cons (h : IsNumeral text) :
    ∃ c rest, text = c :: rest ∧ c.isDigit = true := by
  have hdigits : ∀ {digits : List Char}, Numeral.isDigits digits = true →
      ∃ c rest, digits = c :: rest ∧ c.isDigit = true := by
    intro digits hdigits
    obtain ⟨hne, hall⟩ := isDigits_iff.1 hdigits
    obtain ⟨c, rest, rfl⟩ := List.exists_cons_of_ne_nil hne
    exact ⟨c, rest, rfl, hall c List.mem_cons_self⟩
  cases h with
  | whole h => exact hdigits h
  | decimal h _ =>
      obtain ⟨c, rest, rfl, hc⟩ := hdigits h
      exact ⟨c, _, List.cons_append, hc⟩

/-- A numeral starts with a digit. -/
theorem IsNumeral.startsWithDigit (h : IsNumeral text) : startsWithDigit text = true := by
  obtain ⟨c, rest, rfl, hc⟩ := h.exists_cons
  exact hc

/-- A numeral has no sign. -/
theorem IsNumeral.head?_ne_sign (h : IsNumeral text) : text.head? ≠ some '-' := by
  obtain ⟨c, rest, rfl, hc⟩ := h.exists_cons
  intro hhead
  cases hhead
  exact absurd hc (by decide)

/-- No number begins in front of what is neither a digit nor a sign that belongs to one. -/
theorem not_isNumber {c : Char} {rest : List Char}
    (hnegative : ¬ (fold = true ∧ c = '-' ∧ startsWithDigit rest = true))
    (hdigit : c.isDigit = false) (h : text <+: c :: rest) : ¬ IsNumber fold text := by
  intro hnumber
  cases hnumber with
  | plain hplain =>
      obtain ⟨d, more, rfl, hd⟩ := hplain.exists_cons
      rw [(List.cons_prefix_cons.1 h).1, hdigit] at hd
      cases hd
  | negative hfold hplain =>
      obtain ⟨rfl, hrest⟩ := List.cons_prefix_cons.1 h
      obtain ⟨d, more, rfl, hd⟩ := hplain.exists_cons
      obtain ⟨last, rfl⟩ := hrest
      exact hnegative ⟨hfold, rfl, hd⟩

/-- A text is split behind the longest numeral that it begins with. -/
theorem numeral_longest (h : startsWithDigit text = true) :
    Text.Longest IsNumeral (numeral text).1 (numeral text).2 := by
  have hpoint : Char.isDigit '.' = false := by decide
  constructor
  · rw [numeral]
    split
    next d rest _ =>
        split
        next hd =>
            have hplaces : startsWithDigit (d :: rest) = true := hd
            exact .decimal (isDigits_takeWhile h) (isDigits_takeWhile hplaces)
        next => exact .whole (isDigits_takeWhile h)
    next => exact .whole (isDigits_takeWhile h)
  · intro other hother hnumeral
    rw [numeral_append] at hother
    cases hnumeral with
    | whole hdigits =>
        have hle := (prefix_takeWhile (isDigits_iff.1 hdigits).2 hother).length_le
        rw [numeral]
        split
        · split
          · rw [List.length_append]
            omega
          · exact hle
        · exact hle
    | @decimal digits places hdigits hplaces =>
        obtain ⟨more, rfl⟩ := hother
        obtain ⟨hne, hall⟩ := isDigits_iff.1 hplaces
        cases places with
        | nil => exact absurd rfl hne
        | cons d places =>
            -- The digits end at the point, and a digit stands behind it.
            have hd : d.isDigit = true := hall d List.mem_cons_self
            have hrun := prefix_takeWhile hall (List.prefix_append (d :: places) more)
            rw [List.append_assoc, numeral, List.takeWhile_append_of_pos (isDigits_iff.1 hdigits).2,
              List.dropWhile_append_of_pos (isDigits_iff.1 hdigits).2]
            simp only [List.cons_append, List.dropWhile_cons_of_neg (by simp [hpoint] :
              ¬ Char.isDigit '.' = true), List.takeWhile_cons_of_neg (by simp [hpoint] :
              ¬ Char.isDigit '.' = true), hd, if_true, List.append_nil]
            have hle := hrun.length_le
            simp only [List.length_append, List.length_cons, List.cons_append] at hle ⊢
            omega

/-- A text is split behind the longest number that it begins with. -/
theorem isNumber_longest {c : Char} {rest : List Char} (hc : c.isDigit = true) :
    Text.Longest (IsNumber fold) (numeral (c :: rest)).1 (numeral (c :: rest)).2 := by
  obtain ⟨hnumeral, hlongest⟩ := @numeral_longest (c :: rest) hc
  refine ⟨.plain hnumeral, fun other hother hnumber => ?_⟩
  cases hnumber with
  | plain h => exact hlongest other hother h
  | negative _ _ =>
      rw [numeral_append, List.cons_prefix_cons] at hother
      rw [← hother.1] at hc
      exact absurd hc (by decide)

/-- With a sign in front it is the same. -/
theorem isNumber_longest_negative {rest : List Char} (hfold : fold = true)
    (h : startsWithDigit rest = true) :
    Text.Longest (IsNumber fold) ('-' :: (numeral rest).1) (numeral rest).2 := by
  obtain ⟨hnumeral, hlongest⟩ := numeral_longest h
  refine ⟨.negative hfold hnumeral, fun other hother hnumber => ?_⟩
  cases hnumber with
  | plain hplain =>
      cases other with
      | nil => exact Nat.zero_le _
      | cons d more =>
          rw [List.cons_append, List.cons_prefix_cons] at hother
          exact absurd (congrArg some hother.1) hplain.head?_ne_sign
  | negative _ hother' =>
      rw [List.cons_append, List.cons_prefix_cons] at hother
      exact Nat.succ_le_succ (hlongest _ hother.2 hother')

/-- A word reaches as far as a word can. -/
theorem isWord_longest {c : Char} {rest : List Char} (hc : isWordStart c = true) :
    Text.Longest IsWord (c :: rest.takeWhile isWordPart) (rest.dropWhile isWordPart) := by
  refine ⟨.mk hc fun d hd => List.mem_takeWhile_imp hd, fun other hother hword => ?_⟩
  rw [List.cons_append, List.takeWhile_append_dropWhile] at hother
  cases hword with
  | mk _ hparts =>
      exact Nat.succ_le_succ (prefix_takeWhile hparts (List.cons_prefix_cons.1 hother).2).length_le

/-- No quote inside a string closes it. -/
theorem quoted?_enclosed {quote : Char} {value after : List Char}
    (h : quoted? quote text = some (value, after)) : Enclosed quote value := by
  fun_induction quoted? quote text generalizing value with
  | case1 => simp at h
  | case2 => simp at h
  | case3 c rest ih =>
      obtain ⟨⟨inner, later⟩, hinner, heq⟩ := Option.map_eq_some_iff.1 h
      obtain ⟨rfl, rfl⟩ := Prod.mk.inj heq
      exact .escape c (ih hinner)
  | case4 rest =>
      obtain ⟨rfl, rfl⟩ := Prod.mk.inj (Option.some.inj h)
      exact .nil
  | case5 c rest hlone hescape hquote ih =>
      obtain ⟨⟨inner, later⟩, hinner, heq⟩ := Option.map_eq_some_iff.1 h
      obtain ⟨rfl, rfl⟩ := Prod.mk.inj heq
      refine .plain hquote ?_ (ih hinner)
      cases rest with
      | nil => exact fun hc => hlone hc rfl
      | cons d more => exact fun hc => hescape d more hc rfl

/-- A block comment is cut behind its first `*/`, or it is not closed and takes everything. -/
theorem comment_cases (text : List Char) :
    (∃ inner, (comment text).1 = inner ++ ['*', '/'] ∧ ¬ ['*', '/'] <:+: inner) ∨
      ((comment text).2 = [] ∧ ¬ ['*', '/'] <:+: (comment text).1) := by
  -- A beginning of what is inside, with one more character in front, does not close the comment.
  have hcons : ∀ {c : Char} {rest inner : List Char}, inner <+: rest →
      (∀ more, c = '*' → rest = '/' :: more → False) → ¬ ['*', '/'] <:+: inner →
      ¬ ['*', '/'] <:+: c :: inner := by
    intro c rest inner hinner hopen hnone hinfix
    rcases List.infix_cons_iff.1 hinfix with hstart | hlater
    · obtain ⟨hc, more, rfl⟩ := List.cons_prefix_cons.1 hstart
      obtain ⟨last, rfl⟩ := hinner
      exact hopen (more ++ last) hc.symm rfl
    · exact hnone hlater
  fun_induction comment text with
  | case1 => exact .inr ⟨rfl, by simp⟩
  | case2 => exact .inl ⟨[], rfl, by simp⟩
  | case3 c rest hopen ih =>
      rcases ih with ⟨inner, hinner, hnone⟩ | ⟨hrest, hnone⟩
      · refine .inl ⟨c :: inner, by rw [hinner, List.cons_append], hcons ?_ hopen hnone⟩
        refine ⟨['*', '/'] ++ (comment rest).2, ?_⟩
        rw [← List.append_assoc, ← hinner, comment_append]
      · exact .inr ⟨hrest, hcons ⟨_, comment_append rest⟩ hopen hnone⟩

/-- The scanner finds only operators that are listed. -/
theorem mem_operators_of_operator? {c d : Char} {value : String}
    (h : operator? c d = some value) : ([c, d], value) ∈ operators := by
  unfold operator? at h
  split at h <;> cases h <;> decide

/-- The scanner finds every operator that is listed. -/
theorem exists_operator?_of_mem {value : String} (h : (text, value) ∈ operators) :
    ∃ c d, text = [c, d] ∧ operator? c d = some value := by
  simp only [operators, List.mem_cons, Prod.mk.injEq, List.not_mem_nil, or_false] at h
  rcases h with ⟨rfl, rfl⟩ | ⟨rfl, rfl⟩ | ⟨rfl, rfl⟩ | ⟨rfl, rfl⟩ | ⟨rfl, rfl⟩ | ⟨rfl, rfl⟩ |
    ⟨rfl, rfl⟩ <;> exact ⟨_, _, rfl, rfl⟩

/-- A character in front of which all other forms have failed is a symbol or begins an operator. -/
theorem operatorOrSymbol_written {c : Char} {rest : List Char} (hblank : Text.isBlank c = false)
    (hquote : isQuote c = false)
    (hcomment : c = '/' → rest.head? ≠ some '/' ∧ rest.head? ≠ some '*')
    (hnegative : ¬ (fold = true ∧ c = '-' ∧ startsWithDigit rest = true))
    (hdigit : c.isDigit = false) (hword : isWordStart c = false) {kind : TokenKind}
    {value : String} (h : (operatorOrSymbol c rest).piece = .token kind value) :
    Token.Written fold (operatorOrSymbol c rest).rest kind value
      (operatorOrSymbol c rest).text := by
  have hbare : (∀ value d more, rest = d :: more → operator? c d ≠ some value) →
      Bare fold c rest := by
    intro hnone
    refine ⟨hblank, hquote, hcomment, fun text htext => not_isNumber hnegative hdigit htext, ?_, ?_⟩
    · rintro text htext ⟨hstart, -⟩
      rw [(List.cons_prefix_cons.1 htext).1, hword] at hstart
      cases hstart
    · intro text htext value hvalue
      obtain ⟨d, e, rfl, hoperator⟩ := exists_operator?_of_mem hvalue
      obtain ⟨rfl, hrest⟩ := List.cons_prefix_cons.1 htext
      obtain ⟨more, rfl⟩ := hrest
      exact hnone value e more rfl hoperator
  unfold operatorOrSymbol at h ⊢
  split at h
  next =>
      cases h
      exact .symbol (hbare (by simp))
  next d after =>
      split at h
      next operator hoperator =>
          cases h
          exact .operator (mem_operators_of_operator? hoperator)
      next hnone =>
          cases h
          refine .symbol (hbare ?_)
          intro value e more hmore hoperator
          rw [← (List.cons.inj hmore).1, hnone] at hoperator
          cases hoperator

/-- A lexeme of blanks is a piece of a gap. -/
theorem next_filler {c : Char} {rest : List Char} (h : (next fold c rest).piece = .blank) :
    Filler (next fold c rest).rest (next fold c rest).text := by
  rw [next] at h ⊢
  split
  next hblank =>
      refine .blanks (List.cons_ne_nil _ _) (List.forall_mem_cons.2 ⟨hblank, ?_⟩)
      exact fun d hd => List.mem_takeWhile_imp hd
  next hblank =>
  split
  next hslash =>
      obtain ⟨rfl, hhead⟩ := hslash
      cases rest with
      | nil => cases hhead
      | cons d more =>
          obtain rfl : d = '/' := Option.some.inj hhead
          simp only [List.takeWhile_cons, List.dropWhile_cons, bne_iff_ne, ne_eq,
            show ¬ '/' = '\n' by decide, not_false_eq_true, if_true]
          refine .line ?_ ?_
          · intro hmem
            simpa using List.mem_takeWhile_imp hmem
          · have hhead := List.head?_dropWhile_not (· != '\n') more
            cases hdrop : (more.dropWhile (· != '\n')).head? with
            | none => rfl
            | some e => simpa [hdrop] using hhead
  next hslash =>
  split
  next hstar =>
      obtain ⟨rfl, hhead⟩ := hstar
      rcases comment_cases rest.tail with ⟨inner, hinner, hnone⟩ | ⟨hrest, hnone⟩
      · simp only [hinner]
        exact .block hnone
      · exact .openBlock hnone hrest
  next hstar =>
  -- No other form of a lexeme is blank.
  rw [if_neg hblank, if_neg hslash, if_neg hstar] at h
  split at h
  · split at h <;> cases h
  split at h
  · cases h
  split at h
  · cases h
  split at h
  · unfold word at h
    cases h
  · unfold operatorOrSymbol at h
    split at h
    · cases h
    · split at h <;> cases h

/-- A word is written as a keyword or a name is. -/
theorem word_written {c : Char} {rest : List Char} (hc : isWordStart c = true) {kind : TokenKind}
    {value : String} (h : (word c rest).piece = .token kind value) :
    Token.Written fold (word c rest).rest kind value (word c rest).text := by
  unfold word at h ⊢
  dsimp only at h ⊢
  split at h
  next hkeyword =>
      cases h
      exact .keyword (isWord_longest hc) (List.contains_iff_mem.1 hkeyword)
  next hkeyword =>
      cases h
      exact .identifier (isWord_longest hc) fun hmem => hkeyword (List.contains_iff_mem.2 hmem)

/-- A lexeme that is a token has the written form of that token. -/
theorem next_written {c : Char} {rest : List Char} {kind : TokenKind} {value : String}
    (h : (next fold c rest).piece = .token kind value) :
    Token.Written fold (next fold c rest).rest kind value (next fold c rest).text := by
  rw [next] at h ⊢
  split at h
  · cases h
  next hblank =>
  split at h
  · cases h
  next hslash =>
  split at h
  · cases h
  next hstar =>
  rw [if_neg hblank, if_neg hslash, if_neg hstar]
  split at h
  next hquote =>
      rw [if_pos hquote]
      split at h
      next hquoted =>
          cases h
          exact .string hquote (quoted?_enclosed hquoted)
      next => cases h
  next hquote =>
  rw [if_neg hquote]
  split at h
  next hnegative =>
      rw [if_pos hnegative]
      cases h
      obtain ⟨hfold, rfl, hdigit⟩ := hnegative
      exact .number (isNumber_longest_negative hfold hdigit)
  next hnegative =>
  rw [if_neg hnegative]
  split at h
  next hdigit =>
      rw [if_pos hdigit]
      cases h
      exact .number (isNumber_longest hdigit)
  next hdigit =>
  rw [if_neg hdigit]
  split at h
  next hword =>
      rw [if_pos hword]
      exact word_written hword h
  next hword =>
      rw [if_neg hword]
      simp only [Bool.not_eq_true] at hblank hquote hdigit hword
      refine operatorOrSymbol_written hblank hquote ?_ hnegative hdigit hword h
      exact fun hc => ⟨fun hhead => hslash ⟨hc, hhead⟩, fun hhead => hstar ⟨hc, hhead⟩⟩

end Lexeme

/-! ## The text of a token determines it -/

/-- What a token is, apart from its place. -/
def Token.form (token : Token) : TokenKind × String :=
  (token.kind, token.value)

/-- The kind and the value of the token that is written as a text. -/
def Token.ofText : List Char → TokenKind × String
  | [] => (.eof, "")
  | c :: rest =>
      let text := String.ofList (c :: rest)
      if Lexeme.isQuote c then (.string, String.ofList rest.dropLast)
      else if c.isDigit || (c == '-' && !rest.isEmpty) then (.number, text)
      else if Lexeme.isWordStart c then
        (if Token.keywords.contains text then .keyword else .identifier, text)
      else if rest.isEmpty then (.symbol, text)
      else (.operator, (Lexeme.operators.lookup (c :: rest)).getD text)

namespace Lexeme

/-- A digit is not a quote. -/
theorem isQuote_of_isDigit {c : Char} (h : c.isDigit = true) : isQuote c = false := by
  rw [isQuote, Bool.or_eq_false_iff, beq_eq_false_iff_ne, beq_eq_false_iff_ne]
  constructor <;> rintro rfl <;> exact absurd h (by decide)

/-- The start of a word is not a quote. -/
theorem isQuote_of_isWordStart {c : Char} (h : isWordStart c = true) : isQuote c = false := by
  rw [isQuote, Bool.or_eq_false_iff, beq_eq_false_iff_ne, beq_eq_false_iff_ne]
  constructor <;> rintro rfl <;> exact absurd h (by decide)

/-- The start of a word is not a digit. -/
theorem isDigit_of_isWordStart {c : Char} (h : isWordStart c = true) : c.isDigit = false := by
  simp only [isWordStart, Bool.or_eq_true, beq_iff_eq] at h
  rcases h with (h | rfl) | rfl
  · -- Letters and digits have their code points in ranges of their own.
    have hletter : (decide (c.val ≥ 65 ∧ c.val ≤ 90) ||
        (decide (c.val ≥ 97) && decide (c.val ≤ 122))) = true := h
    show (decide (c.val ≥ 48) && decide (c.val ≤ 57)) = false
    grind
  · decide
  · decide

/-- A symbol is no digit, since a digit alone is a number. -/
theorem Bare.isDigit_eq_false {fold : Bool} {c : Char} {back : List Char} (h : Bare fold c back) :
    c.isDigit = false := by
  rw [Bool.eq_false_iff]
  intro hc
  exact h.not_number [c] (by simp) (.plain (.whole (by simp [Numeral.isDigits, hc])))

/-- A character that stands for itself does not start a word. -/
theorem Bare.isWordStart_eq_false {fold : Bool} {c : Char} {back : List Char}
    (h : Bare fold c back) : isWordStart c = false := by
  rw [Bool.eq_false_iff]
  exact fun hc => h.not_word [c] (by simp) (.mk hc (by simp))

end Lexeme

/-! ## Numbers are read -/

namespace Lexeme

variable {fold : Bool} {text back : List Char}

/-- Digits up to what is no digit are the digits that a text begins with. -/
theorem span_digits {digits : List Char} (hdigits : Numeral.isDigits digits = true)
    (hback : startsWithDigit back = false) :
    (digits ++ back).takeWhile Char.isDigit = digits ∧
      (digits ++ back).dropWhile Char.isDigit = back := by
  obtain ⟨-, hall⟩ := isDigits_iff.1 hdigits
  rw [List.takeWhile_append_of_pos hall, List.dropWhile_append_of_pos hall]
  cases back with
  | nil => simp
  | cons c rest =>
      have hc : c.isDigit = false := hback
      simp [hc]

/-- A digit has no case. -/
theorem toLower_of_isDigit {c : Char} (h : c.isDigit = true) : c.toLower = c := by
  refine dif_neg ?_
  rintro ⟨hupper, -⟩
  have hdigit : (decide (c.val ≥ '0'.val) && decide (c.val ≤ '9'.val)) = true := h
  rw [Bool.and_eq_true, decide_eq_true_eq, decide_eq_true_eq] at hdigit
  have hlow : c.val.toNat ≤ 57 := hdigit.2
  have hhigh : 65 ≤ c.val.toNat := hupper
  omega

/-- A numeral is none of the words that are read as numbers, since it begins with a digit. -/
theorem IsNumeral.map_toLower_ne (h : IsNumeral text) (c : Char) (word : List Char)
    (hc : c.isDigit = false) : text.map Char.toLower ≠ c :: word := by
  obtain ⟨d, rest, rfl, hd⟩ := h.exists_cons
  intro hword
  have hlower : d.toLower = c := (List.cons.inj hword).1
  rw [toLower_of_isDigit hd] at hlower
  rw [← hlower, hd] at hc
  cases hc

/-- Every numeral is read as a double. -/
theorem IsNumeral.exists_unsigned? (h : IsNumeral text) (negative : Bool) :
    ∃ number, Numeral.unsigned? negative text = some number := by
  have hinfinity : ¬ (text.map Char.toLower = "inf".toList ∨
      text.map Char.toLower = "infinity".toList) := by
    rintro (hword | hword)
    · exact h.map_toLower_ne 'i' "nf".toList (by decide) hword
    · exact h.map_toLower_ne 'i' "nfinity".toList (by decide) hword
  have hnan : ¬ text.map Char.toLower = "nan".toList :=
    h.map_toLower_ne 'n' "an".toList (by decide)
  dsimp only [Numeral.unsigned?]
  rw [if_neg hinfinity, if_neg hnan]
  cases h with
  | whole hdigits =>
      obtain ⟨hwhole, hrest⟩ := @span_digits [] text hdigits rfl
      rw [List.append_nil] at hwhole hrest
      have hne : text.isEmpty = false := by simpa using (isDigits_iff.1 hdigits).1
      simp [hwhole, hrest, hne, Numeral.fraction, Numeral.exponent?]
  | @decimal digits places hdigits hplaces =>
      obtain ⟨hwhole, hrest⟩ := @span_digits ('.' :: places) digits hdigits rfl
      obtain ⟨hpart, hend⟩ := @span_digits [] places hplaces rfl
      rw [List.append_nil] at hpart hend
      have hne : digits.isEmpty = false := by simpa using (isDigits_iff.1 hdigits).1
      simp [hwhole, hrest, hne, Numeral.fraction, hpart, hend, Numeral.exponent?]

/-- Every number is read as a double, with its sign if it has one. -/
theorem IsNumber.exists_toDouble? (h : IsNumber fold text) :
    ∃ number, Numeral.toDouble? text = some number := by
  cases h with
  | plain hnumeral =>
      obtain ⟨c, rest, rfl, hc⟩ := hnumeral.exists_cons
      have hsign : Numeral.sign (c :: rest) = (false, c :: rest) := by
        unfold Numeral.sign
        split
        next heq => cases heq; cases hc
        next heq => cases heq; cases hc
        next => rfl
      rw [Numeral.toDouble?, hsign]
      exact hnumeral.exists_unsigned? false
  | negative _ hnumeral => exact hnumeral.exists_unsigned? true

end Lexeme

namespace Token.Written

variable {fold : Bool} {back text : List Char} {kind : TokenKind} {value : String}

/-- The value of a number is read as a double. -/
theorem exists_toDouble? (h : Written fold back .number value text) :
    ∃ number, Numeral.toDouble? value.toList = some number := by
  cases h with
  | number hlongest =>
      rw [String.toList_ofList]
      exact hlongest.1.exists_toDouble?

/-- A word is read back from its text. -/
theorem ofText_word (h : Lexeme.IsWord text) : Token.ofText text =
    (if Token.keywords.contains (String.ofList text) then .keyword else .identifier,
      String.ofList text) := by
  obtain ⟨hstart, -⟩ := h
  rename_i c rest
  have hsign : c ≠ '-' := by
    rintro rfl
    exact absurd hstart (by decide)
  simp [Token.ofText, Lexeme.isQuote_of_isWordStart hstart, Lexeme.isDigit_of_isWordStart hstart,
    hstart, hsign]

/-- A number is read back from its text. -/
theorem ofText_number (h : Lexeme.IsNumber fold text) :
    Token.ofText text = (.number, String.ofList text) := by
  cases h with
  | plain hplain =>
      obtain ⟨c, rest, rfl, hc⟩ := hplain.exists_cons
      simp [Token.ofText, Lexeme.isQuote_of_isDigit hc, hc]
  | negative _ hplain =>
      obtain ⟨c, rest, rfl, -⟩ := hplain.exists_cons
      simp [Token.ofText, Lexeme.isQuote]

/-- The text of a token determines its kind and its value. -/
theorem ofText_eq (h : Written fold back kind value text) : Token.ofText text = (kind, value) := by
  cases h with
  | string hquote _ => simp [Token.ofText, hquote]
  | number hlongest => exact ofText_number hlongest.1
  | keyword hlongest hmem => simp [ofText_word hlongest.1, hmem]
  | identifier hlongest hmem => simp [ofText_word hlongest.1, hmem]
  | operator hmem =>
      have hall : ∀ entry ∈ Lexeme.operators, Token.ofText entry.1 = (.operator, entry.2) := by
        decide
      exact hall _ hmem
  | @symbol c hbare =>
      simp [Token.ofText, hbare.not_quote, hbare.isDigit_eq_false, hbare.isWordStart_eq_false]

/-- Apart from strings and operators, a token is written as its value. -/
theorem text_eq (h : Written fold back kind value text) (hstring : kind ≠ .string)
    (hoperator : kind ≠ .operator) : text = value.toList := by
  cases h with
  | string _ _ => exact absurd rfl hstring
  | operator _ => exact absurd rfl hoperator
  | number _ => exact String.toList_ofList.symm
  | keyword _ _ => exact String.toList_ofList.symm
  | identifier _ _ => exact String.toList_ofList.symm
  | symbol _ => exact String.toList_ofList.symm

/-- Only strings with one value can be written in two ways. -/
theorem text_unique {fold' : Bool} {back' text' : List Char} (h : Written fold back kind value text)
    (h' : Written fold' back' kind value text') (hkind : kind ≠ .string) : text = text' := by
  by_cases hoperator : kind = .operator
  · subst hoperator
    have hunique : ∀ entry ∈ Lexeme.operators, ∀ other ∈ Lexeme.operators,
        entry.2 = other.2 → entry.1 = other.1 := by decide
    cases h with
    | operator hmem =>
        cases h' with
        | operator hmem' => exact hunique _ hmem _ hmem' rfl
  · rw [h.text_eq hkind hoperator, h'.text_eq hkind hoperator]

end Token.Written

end ScriptLint
