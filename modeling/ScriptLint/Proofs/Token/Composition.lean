import Mathlib.Data.List.TakeWhile
import ScriptLint.Proofs.Token.Places

/-!
# Tokens across a delimiter

A delimiter ends every lexeme but a string, a comment and a run of blanks; a line feed is one, and
so is a quote. A text with a delimiter behind it is cut into tokens as it is alone, unless it ends
inside a comment. So the tokens of two texts with a line feed between them are those of the first
text, without its mark, and those of the second one, moved behind it, unless the first text ends
inside a block comment.
-/

namespace ScriptLint

/-- The cause moved `amount` bytes to the right: only that of an open string names a place. -/
def Cause.shift (amount : Nat) : Cause → Cause
  | .unterminatedString start => .unterminatedString (start + amount)
  | cause => cause

/-- The error moved `amount` bytes to the right. -/
def Error.shift (amount : Nat) (error : Error) : Error :=
  ⟨error.cause.shift amount, error.span.shift amount, error.fatal⟩

/-- An error that is moved by nothing stays where it is. -/
theorem Error.shift_zero (error : Error) : error.shift 0 = error := by
  obtain ⟨cause, span, fatal⟩ := error
  cases cause <;> rfl

namespace Lexeme

/-- Whether the text behind `/*` has the end of the comment in it. -/
def closes : List Char → Bool
  | [] => false
  | '*' :: '/' :: _ => true
  | _ :: rest => closes rest

/-- A comment goes on over a character that does not close it. -/
theorem comment_cons {c : Char} {rest : List Char} (h : ∀ after, c = '*' → rest ≠ '/' :: after) :
    comment (c :: rest) = (c :: (comment rest).1, (comment rest).2) :=
  comment.eq_3 c rest fun after hc hrest => h after hc hrest

/-- A comment that is closed ends where it does, whatever follows. -/
theorem comment_append_right {text : List Char} (h : closes text = true) (more : List Char) :
    comment (text ++ more) = ((comment text).1, (comment text).2 ++ more) := by
  fun_induction closes text with
  | case1 => cases h
  | case2 rest => rfl
  | case3 c rest hnot ih =>
      have hlonger : ∀ after, c = '*' → rest ++ more ≠ '/' :: after := by
        intro after hc hrest
        cases rest with
        | nil => cases h
        | cons d rest =>
            obtain ⟨rfl, -⟩ := List.cons.inj hrest
            exact hnot rest hc rfl
      rw [List.cons_append, comment_cons hlonger, comment_cons hnot, ih h]

/-- A string ends at its quote and goes on over any other character that escapes nothing. -/
theorem quoted?_cons {quote c : Char} (h : c ≠ '\\') (rest : List Char) :
    quoted? quote (c :: rest) =
      if c = quote then some ([], rest)
      else (quoted? quote rest).map fun (value, after) => (c :: value, after) :=
  quoted?.eq_4 quote c rest (fun hc _ => h hc) fun _ _ hc _ => h hc

/-- A string that is closed ends where it does, whatever follows. -/
theorem quoted?_append_right {quote : Char} {text value after : List Char}
    (h : quoted? quote text = some (value, after)) (more : List Char) :
    quoted? quote (text ++ more) = some (value, after ++ more) := by
  have hplain : ∀ {c : Char} {rest : List Char}, (c = '\\' → rest = [] → False) →
      (∀ d after, c = '\\' → rest = d :: after → False) → c ≠ '\\' := by
    intro c rest hlast hescape hc
    cases rest with
    | nil => exact hlast hc rfl
    | cons d after => exact hescape d after hc rfl
  fun_induction quoted? quote text generalizing value with
  | case1 => cases h
  | case2 => cases h
  | case3 c rest ih =>
      obtain ⟨⟨inner, later⟩, hinner, heq⟩ := Option.map_eq_some_iff.1 h
      simp only [Prod.mk.injEq] at heq
      obtain ⟨rfl, rfl⟩ := heq
      simp [quoted?, ih hinner]
  | case4 rest hlast hescape =>
      cases h
      rw [List.cons_append, quoted?_cons (hplain hlast hescape), if_pos rfl]
  | case5 c rest hlast hescape hne ih =>
      obtain ⟨⟨inner, later⟩, hinner, heq⟩ := Option.map_eq_some_iff.1 h
      simp only [Prod.mk.injEq] at heq
      obtain ⟨rfl, rfl⟩ := heq
      rw [List.cons_append, quoted?_cons (hplain hlast hescape), if_neg hne, ih hinner]
      rfl

/-- A character that only blanks, comments and strings go on over. -/
structure IsDelimiter (d : Char) : Prop where
  not_digit : d.isDigit = false
  not_word : isWordPart d = false
  not_point : d ≠ '.'
  not_slash : d ≠ '/'
  not_star : d ≠ '*'
  not_operator : ∀ c, operator? c d = none

/-- A delimiter is no part of a word, and none of the marks that go on a number, a comment or an
operator. -/
theorem IsDelimiter.of_notMem {d : Char} (hword : isWordPart d = false)
    (hmarks : d ∉ ['.', '/', '*', '&', '|', '=', '>']) : IsDelimiter d := by
  simp only [List.mem_cons, List.not_mem_nil, or_false, not_or] at hmarks
  obtain ⟨hpoint, hslash, hstar, hand, hor, hequal, hgreater⟩ := hmarks
  refine ⟨(Bool.or_eq_false_iff.1 hword).2, hword, hpoint, hslash, hstar, fun c => ?_⟩
  unfold operator?
  split <;> simp_all

/-- A line feed is a delimiter. -/
theorem isDelimiter_line_feed : IsDelimiter '\n' :=
  .of_notMem (by decide) (by decide)

section Delimiter

variable {d : Char}

/-- A run of characters ends inside a text, or else in front of the delimiter. -/
theorem span_delimited {p : Char → Bool} {text : List Char}
    (h : text.dropWhile p = [] → p d = false) (more : List Char) :
    (text ++ d :: more).takeWhile p = text.takeWhile p ∧
      (text ++ d :: more).dropWhile p = text.dropWhile p ++ d :: more := by
  induction text with
  | nil => simp [h rfl]
  | cons c rest ih =>
      by_cases hc : p c = true
      · rw [List.dropWhile_cons_of_pos hc] at h
        simp [hc, ih h]
      · simp [hc]

/-- A text begins with a character that is not the delimiter iff it does so with the delimiter
behind it. -/
theorem head?_delimited {c : Char} (hc : c ≠ d) (more text : List Char) :
    (text ++ d :: more).head? = some c ↔ text.head? = some c := by
  cases text with
  | nil => simp [hc.symm]
  | cons e after => rfl

variable (hd : IsDelimiter d) (more : List Char)

include hd

/-- A delimiter is not a digit. -/
theorem startsWithDigit_delimited (text : List Char) :
    startsWithDigit (text ++ d :: more) = startsWithDigit text := by
  cases text with
  | nil => exact hd.not_digit
  | cons c rest => rfl

/-- A number ends in front of a delimiter. -/
theorem numeral_delimited (text : List Char) :
    numeral (text ++ d :: more) = ((numeral text).1, (numeral text).2 ++ d :: more) := by
  have hdigits (digits : List Char) := @span_delimited d Char.isDigit digits
    (fun _ => hd.not_digit) more
  unfold numeral
  rw [(hdigits text).1, (hdigits text).2]
  cases text.dropWhile Char.isDigit with
  | nil =>
      rw [List.nil_append]
      split
      next heq => exact absurd (List.cons.inj heq).1 hd.not_point
      next => rfl
  | cons c tail =>
      by_cases hc : c = '.'
      · subst hc
        cases tail with
        | nil => simp [hd.not_digit]
        | cons e rest =>
            simp only [List.cons_append]
            split
            · rw [← List.cons_append, (hdigits (e :: rest)).1, (hdigits (e :: rest)).2]
            · rfl
      · -- Without a point there is no fraction, with or without the delimiter.
        rw [List.cons_append]
        split
        next heq => exact absurd (List.cons.inj heq).1 hc
        next =>
            split
            next heq => exact absurd (List.cons.inj heq).1 hc
            next => rfl

/-- A word ends in front of a delimiter. -/
theorem word_delimited (c : Char) (rest : List Char) :
    word c (rest ++ d :: more) =
      { word c rest with rest := (word c rest).rest ++ d :: more } := by
  obtain ⟨htake, hdrop⟩ := @span_delimited d isWordPart rest (fun _ => hd.not_word) more
  simp only [word]
  rw [htake, hdrop]

/-- No operator has a delimiter as its second character. -/
theorem operatorOrSymbol_delimited (c : Char) (rest : List Char) :
    operatorOrSymbol c (rest ++ d :: more) =
      { operatorOrSymbol c rest with rest := (operatorOrSymbol c rest).rest ++ d :: more } := by
  cases rest with
  | nil => simp [operatorOrSymbol, hd.not_operator c]
  | cons e after =>
      simp only [operatorOrSymbol, List.cons_append]
      split <;> rfl

/-- A delimiter behind a text changes nothing in its first lexeme, unless that is an open string, or
a comment or a run of blanks that reaches to the end of the text and goes on over the delimiter. -/
theorem next_delimited (fold : Bool) (c : Char) (rest : List Char)
    (hstring : (next fold c rest).piece ≠ .openString)
    (hblock : c = '/' → rest.head? = some '*' → closes rest.tail = true)
    (hline : c = '/' → rest.head? = some '/' → d ≠ '\n' → '\n' ∈ rest)
    (hblank : Text.isBlank c = true → rest.dropWhile Text.isBlank = [] → Text.isBlank d = false) :
    next fold c (rest ++ d :: more) =
      { next fold c rest with rest := (next fold c rest).rest ++ d :: more } := by
  unfold next at hstring ⊢
  simp only [head?_delimited hd.not_slash.symm, head?_delimited hd.not_star.symm,
    startsWithDigit_delimited hd]
  by_cases h : Text.isBlank c = true
  · obtain ⟨htake, hdrop⟩ := span_delimited (hblank h) more
    simp only [if_pos h, htake, hdrop]
  by_cases hcomment : c = '/' ∧ rest.head? = some '/'
  · have hends : rest.dropWhile (· != '\n') = [] → (d != '\n') = false := by
      intro hnone
      by_contra hne
      have hmem := hline hcomment.1 hcomment.2 (by simpa using hne)
      simpa using List.dropWhile_eq_nil_iff.1 hnone '\n' hmem
    obtain ⟨htake, hdrop⟩ := span_delimited hends more
    simp only [if_neg h, if_pos hcomment, htake, hdrop]
  by_cases hstar : c = '/' ∧ rest.head? = some '*'
  · simp only [if_neg h, if_neg hcomment, if_pos hstar]
    cases rest with
    | nil => simp at hstar
    | cons e after =>
        have hcloses : closes after = true := hblock hstar.1 hstar.2
        simp only [List.cons_append, List.tail_cons, comment_append_right hcloses]
  by_cases hquote : isQuote c = true
  · simp only [if_neg h, if_neg hcomment, if_neg hstar, if_pos hquote] at hstring ⊢
    cases hquoted : quoted? c rest with
    | none => simp [hquoted] at hstring
    | some entry => simp only [quoted?_append_right hquoted]
  by_cases hminus : fold = true ∧ c = '-' ∧ startsWithDigit rest = true
  · simp only [if_neg h, if_neg hcomment, if_neg hstar, if_neg hquote, if_pos hminus,
      numeral_delimited hd]
  by_cases hdigit : c.isDigit = true
  · simp only [if_neg h, if_neg hcomment, if_neg hstar, if_neg hquote, if_neg hminus,
      if_pos hdigit, ← List.cons_append, numeral_delimited hd]
  by_cases hword : isWordStart c = true
  · simp only [if_neg h, if_neg hcomment, if_neg hstar, if_neg hquote, if_neg hminus,
      if_neg hdigit, if_pos hword, word_delimited hd]
  · simp only [if_neg h, if_neg hcomment, if_neg hstar, if_neg hquote, if_neg hminus,
      if_neg hdigit, if_neg hword, operatorOrSymbol_delimited hd]

end Delimiter

end Lexeme

namespace Token

/-- Whether a text ends inside a block comment. -/
def endsInComment (fold : Bool) (text : List Char) : Bool :=
  match text with
  | [] => false
  | c :: rest =>
      if c = '/' ∧ rest.head? = some '*' ∧ Lexeme.closes rest.tail = false then true
      else endsInComment fold (Lexeme.next fold c rest).rest
termination_by text.length
decreasing_by exact Lexeme.length_rest_lt fold c rest

/-- Whether a text ends inside a comment that its line would end. -/
def endsInLineComment (fold : Bool) (text : List Char) : Bool :=
  match text with
  | [] => false
  | c :: rest =>
      if c = '/' ∧ rest.head? = some '/' ∧ '\n' ∉ rest then true
      else endsInLineComment fold (Lexeme.next fold c rest).rest
termination_by text.length
decreasing_by exact Lexeme.length_rest_lt fold c rest

/-- Blanks in front of a text only move its tokens. -/
theorem scan_blanks (fold : Bool) (offset : Nat) (text : List Char) :
    scan fold offset text = scan fold (offset + Text.byteLength (text.takeWhile Text.isBlank))
      (text.dropWhile Text.isBlank) := by
  cases text with
  | nil => rfl
  | cons c rest =>
      by_cases hc : Text.isBlank c = true
      · rw [scan]
        simp [Lexeme.next, hc]
      · simp [hc]

/-- Blanks in front of a text only move its tokens. -/
theorem scan_blanks_append (fold : Bool) (offset : Nat) {blanks : List Char}
    (h : ∀ c ∈ blanks, Text.isBlank c = true) (text : List Char) :
    scan fold offset (blanks ++ text) = scan fold (offset + Text.byteLength blanks) text := by
  rw [scan_blanks, scan_blanks fold (offset + _) text]
  simp only [List.takeWhile_append_of_pos h, List.dropWhile_append_of_pos h,
    Text.byteLength_append, Nat.add_assoc]

/-- A line feed in front of a text moves its tokens by one byte. -/
theorem scan_cons_line_feed (fold : Bool) (offset : Nat) (text : List Char) :
    scan fold offset ('\n' :: text) = scan fold (offset + 1) text :=
  @scan_blanks_append fold offset ['\n'] (List.forall_mem_singleton.2 (by decide)) text

/-- A comment that is open at the end of a text is open behind its first lexeme. -/
theorem endsInComment_cons {fold : Bool} {c : Char} {rest : List Char}
    (h : endsInComment fold (c :: rest) = false) :
    (c = '/' → rest.head? = some '*' → Lexeme.closes rest.tail = true) ∧
      endsInComment fold (Lexeme.next fold c rest).rest = false := by
  rw [endsInComment] at h
  split at h
  · cases h
  next hopen =>
      refine ⟨fun hc hhead => ?_, h⟩
      cases hcloses : Lexeme.closes rest.tail with
      | true => rfl
      | false => exact absurd ⟨hc, hhead, hcloses⟩ hopen

/-- A comment that is open at the end of a text, and that its line would end, is open behind its
first lexeme. -/
theorem endsInLineComment_cons {fold : Bool} {c : Char} {rest : List Char}
    (h : endsInLineComment fold (c :: rest) = false) :
    (c = '/' → rest.head? = some '/' → '\n' ∈ rest) ∧
      endsInLineComment fold (Lexeme.next fold c rest).rest = false := by
  rw [endsInLineComment] at h
  split at h
  · cases h
  next hopen =>
      refine ⟨fun hc hhead => ?_, h⟩
      by_contra hmem
      exact hopen ⟨hc, hhead, hmem⟩

/-- A text with a delimiter behind it that does not end inside a comment is cut into tokens as it is
alone, and what follows is cut as it would be there. -/
theorem scan_delimited {fold : Bool} {offset : Nat} {text : List Char} {tokens : List Token}
    {d : Char} (hd : Lexeme.IsDelimiter d) (h : scan fold offset text = .ok tokens)
    (hcomment : endsInComment fold text = false)
    (hline : d ≠ '\n' → endsInLineComment fold text = false) (more : List Char) :
    ∃ body, tokens = body ++ [endMark (offset + Text.byteLength text)] ∧
      scan fold offset (text ++ d :: more) =
        (scan fold (offset + Text.byteLength text) (d :: more)).map (body ++ ·) := by
  have hmap : ∀ result : Except Error (List Token), result.map ([] ++ ·) = result := by
    intro result
    cases result <;> rfl
  fun_induction scan fold offset text generalizing tokens with
  | case1 offset =>
      cases h
      exact ⟨[], rfl, (hmap _).symm⟩
  | case2 offset c rest lexeme stop =>
      rename_i hpiece ih
      obtain ⟨hclosed, hrest⟩ := endsInComment_cons hcomment
      have hlength : offset + Text.byteLength (c :: rest) = stop + Text.byteLength lexeme.rest :=
        Lexeme.add_byteLength fold offset c rest
      by_cases hblanks : Text.isBlank c = true ∧ rest.dropWhile Text.isBlank = [] ∧
          Text.isBlank d = true
      · -- The blanks at the end of the text and the delimiter are one lexeme.
        have hall : ∀ e ∈ c :: rest, Text.isBlank e = true :=
          List.forall_mem_cons.2 ⟨hblanks.1, List.dropWhile_eq_nil_iff.1 hblanks.2.1⟩
        have hnone : lexeme.rest = [] := by
          simp [lexeme, Lexeme.next, hblanks]
        rw [hnone, scan_nil] at h
        cases h
        refine ⟨[], by rw [hlength, hnone]; rfl, ?_⟩
        rw [scan_blanks_append fold offset hall, hmap]
      · have hnext := Lexeme.next_delimited hd more fold c rest
          (fun heq => by cases hpiece.symm.trans heq) hclosed
          (fun hc hhead hne => (endsInLineComment_cons (hline hne)).1 hc hhead)
          fun hc hnone => by simpa using fun hblank => hblanks ⟨hc, hnone, hblank⟩
        obtain ⟨body, hbody, hscan⟩ := ih h hrest fun hne => (endsInLineComment_cons (hline hne)).2
        refine ⟨body, by rw [hlength, hbody], ?_⟩
        rw [List.cons_append, scan, hnext, hlength]
        simp only [show (Lexeme.next fold c rest).piece = _ from hpiece]
        exact hscan
  | case3 offset c rest lexeme stop kind value =>
      rename_i hpiece ih
      obtain ⟨hclosed, hrest⟩ := endsInComment_cons hcomment
      have hlength : offset + Text.byteLength (c :: rest) = stop + Text.byteLength lexeme.rest :=
        Lexeme.add_byteLength fold offset c rest
      have hnext := Lexeme.next_delimited hd more fold c rest
        (fun heq => by cases hpiece.symm.trans heq) hclosed
        (fun hc hhead hne => (endsInLineComment_cons (hline hne)).1 hc hhead)
        fun hc _ => by simp [lexeme, Lexeme.next, hc] at hpiece
      obtain ⟨later, hlater, rfl⟩ := exists_of_map_ok h
      obtain ⟨body, hbody, hscan⟩ :=
        ih hlater hrest fun hne => (endsInLineComment_cons (hline hne)).2
      refine ⟨⟨kind, value, ⟨offset, stop⟩⟩ :: body, by rw [hlength, hbody]; rfl, ?_⟩
      rw [List.cons_append, scan, hnext, hlength]
      simp only [show (Lexeme.next fold c rest).piece = _ from hpiece]
      rw [show Token.scan fold (offset + Text.byteLength (Lexeme.next fold c rest).text) _ = _
        from hscan]
      cases scan fold (stop + Text.byteLength lexeme.rest) (d :: more) <;> rfl
  | case4 => cases h

/-- A text that is behind another one, with a line feed between them, is cut into tokens as it is
alone. -/
theorem scan_line_feed {fold : Bool} {offset : Nat} {text : List Char} {tokens : List Token}
    (h : scan fold offset text = .ok tokens) (hcomment : endsInComment fold text = false)
    (more : List Char) :
    ∃ body, tokens = body ++ [endMark (offset + Text.byteLength text)] ∧
      scan fold offset (text ++ '\n' :: more) =
        (scan fold (offset + Text.byteLength text + 1) more).map (body ++ ·) := by
  rw [← scan_cons_line_feed]
  exact scan_delimited Lexeme.isDelimiter_line_feed h hcomment (fun hne => absurd rfl hne) more

/-- A text that begins elsewhere is cut into the same tokens, moved there. -/
theorem scan_shift (fold : Bool) (offset amount : Nat) (text : List Char) :
    scan fold (offset + amount) text =
      match scan fold offset text with
      | .ok tokens => .ok (tokens.map (·.shift amount))
      | .error error => .error (error.shift amount) := by
  fun_induction scan fold offset text with
  | case1 offset =>
      rw [scan_nil]
      rfl
  | case2 offset c rest lexeme stop =>
      rename_i hpiece ih
      rw [scan]
      simp only [show (Lexeme.next fold c rest).piece = _ from hpiece]
      rw [Nat.add_right_comm]
      exact ih
  | case3 offset c rest lexeme stop kind value =>
      rename_i hpiece ih
      rw [scan]
      simp only [show (Lexeme.next fold c rest).piece = _ from hpiece]
      rw [Nat.add_right_comm, show Token.scan fold _ (Lexeme.next fold c rest).rest = _ from ih]
      cases scan fold stop lexeme.rest <;> rfl
  | case4 offset c rest lexeme hpiece =>
      rw [scan]
      simp only [show (Lexeme.next fold c rest).piece = _ from hpiece]
      simp [unterminated, Error.shift, Error.ofCause, Cause.shift, Span.shift, Cause.category,
        Nat.add_right_comm, lexeme]

variable {settings : Settings} {source : String} {tokens : List Token}

/-- The tokens of a source end in the mark, and all of them fit into it. -/
theorem tokenize_mark (h : tokenize settings source = .ok tokens) :
    ∃ body, tokens = body ++ [endMark (Text.byteLength source.toList)] ∧
      ∀ token ∈ body, token.kind ≠ .eof ∧ token.span.start ≤ Text.byteLength source.toList ∧
        token.span.stop ≤ Text.byteLength source.toList := by
  obtain ⟨body, hbody, hkinds⟩ := scan_mark h
  rw [Nat.zero_add] at hbody
  refine ⟨body, hbody, fun token htoken => ?_⟩
  have hkind := hkinds token htoken
  have hcovers := (tokenize_places h).1 token (by simp [hbody, htoken]) hkind
  exact ⟨hkind, hcovers.isBoundary_start.le, hcovers.isBoundary_stop.le⟩

/-- The tokens of two sources with a line feed between them. -/
theorem tokenize_line_feed {body : List Token}
    (h : tokenize settings source = .ok (body ++ [endMark (Text.byteLength source.toList)]))
    (hcomment : endsInComment settings.foldNegative source.toList = false) (more : String) :
    tokenize settings (source ++ "\n" ++ more) =
      match tokenize settings more with
      | .ok others => .ok (body ++ others.map (·.shift (Text.byteLength source.toList + 1)))
      | .error error => .error (error.shift (Text.byteLength source.toList + 1)) := by
  obtain ⟨front, hfront, hscan⟩ := scan_line_feed h hcomment more.toList
  obtain ⟨rfl, -⟩ := List.append_inj' hfront rfl
  have hwhole : (source ++ "\n" ++ more).toList = source.toList ++ '\n' :: more.toList := by simp
  rw [tokenize, hwhole, hscan, Nat.zero_add, ← Nat.zero_add (_ + 1), scan_shift, tokenize]
  cases scan settings.foldNegative 0 more.toList with
  | ok others => simp [Except.map]
  | error error => simp [Except.map]

end Token

end ScriptLint
