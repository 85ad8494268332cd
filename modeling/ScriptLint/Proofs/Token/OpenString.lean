import Mathlib
import ScriptLint.Proofs.Token.Tiling

/-!
# Strings that are never closed

Scanning fails at a quote that opens a string and is never closed, and nowhere else. Which quotes
open a string depends on all the text in front of them, so the place is described by cutting the
source there: what stands in front can be cut into tokens by itself and does not end inside a
comment, and behind the quote every quote of its kind is escaped. `Token.tokenize_open_string` says
that these places are exactly those where scanning fails.
-/

namespace ScriptLint

namespace Lexeme

/-! ## Escapes -/

/-- Whether the character behind a text, counted from an opening quote, is escaped: a backslash that
is not escaped itself escapes the next character. -/
def escapesNext (text : List Char) : Bool :=
  text.foldl (fun escaping c => !escaping && c == '\\') false

/-- Only backslashes count for whether the next character is escaped. -/
theorem escapesNext_cons {c : Char} (hc : c ≠ '\\') (text : List Char) :
    escapesNext (c :: text) = escapesNext text := by
  rw [escapesNext, List.foldl_cons, beq_eq_false_iff_ne.2 hc]
  rfl

/-- Every quote of the kind in the text behind an opening quote is escaped. -/
def Unclosed (quote : Char) (text : List Char) : Prop :=
  ∀ front back, text = front ++ quote :: back → escapesNext front = true

/-- What is behind a character that is not the closing quote decides. -/
theorem unclosed_cons {quote c : Char} (hquote : c ≠ quote) (hc : c ≠ '\\') (text : List Char) :
    Unclosed quote (c :: text) ↔ Unclosed quote text := by
  constructor
  · rintro h front back rfl
    have hescaped := h (c :: front) back rfl
    rwa [escapesNext_cons hc] at hescaped
  · intro h front back heq
    cases front with
    | nil => exact absurd (List.cons.inj heq).1 hquote
    | cons e front =>
        obtain ⟨rfl, htext⟩ := List.cons.inj heq
        rw [escapesNext_cons hc]
        exact h front back htext

/-- What is behind an escaped character decides, also if that is a quote. -/
theorem unclosed_escape {quote : Char} (hquote : quote ≠ '\\') (c : Char) (text : List Char) :
    Unclosed quote ('\\' :: c :: text) ↔ Unclosed quote text := by
  constructor
  · rintro h front back rfl
    exact h ('\\' :: c :: front) back rfl
  · intro h front back heq
    rcases front with _ | ⟨e, _ | ⟨f, front⟩⟩
    · exact absurd (List.cons.inj heq).1.symm hquote
    · obtain ⟨rfl, -⟩ := List.cons.inj heq
      rfl
    · obtain ⟨rfl, htail⟩ := List.cons.inj heq
      obtain ⟨rfl, htext⟩ := List.cons.inj htail
      exact h front back htext

/-- A string is not closed if and only if every quote of its kind is escaped. -/
theorem quoted?_eq_none_iff {quote : Char} (hquote : quote ≠ '\\') (text : List Char) :
    quoted? quote text = none ↔ Unclosed quote text := by
  fun_induction quoted? quote text with
  | case1 => simp [Unclosed]
  | case2 =>
      refine iff_of_true rfl ?_
      intro front back heq
      cases front with
      | nil => exact absurd (List.cons.inj heq).1.symm hquote
      | cons e front => simp at heq
  | case3 c rest ih => rw [Option.map_eq_none_iff, ih, unclosed_escape hquote]
  | case4 rest =>
      refine iff_of_false (by simp) fun h => ?_
      exact absurd (h [] rest rfl) (by decide)
  | case5 c rest hlast hescape hne ih =>
      have hc : c ≠ '\\' := by
        intro hc
        cases rest with
        | nil => exact hlast hc rfl
        | cons d after => exact hescape d after hc rfl
      rw [Option.map_eq_none_iff, ih, unclosed_cons hne hc]

/-! ## Cutting a text in front of a quote -/

/-- There are two sorts of quotes. -/
theorem isQuote_iff {c : Char} : isQuote c = true ↔ c = '\x22' ∨ c = '\x27' := by
  simp [isQuote]

/-- A quote is a delimiter. -/
theorem isDelimiter_quote {c : Char} (h : isQuote c = true) : IsDelimiter c := by
  rcases isQuote_iff.1 h with rfl | rfl
  · exact .of_notMem (by decide) (by decide)
  · exact .of_notMem (by decide) (by decide)

/-- A quote is not a blank. -/
theorem isBlank_of_isQuote {c : Char} (h : isQuote c = true) : Text.isBlank c = false := by
  rcases isQuote_iff.1 h with rfl | rfl <;> decide

/-- A quote escapes nothing. -/
theorem ne_backslash_of_isQuote {c : Char} (h : isQuote c = true) : c ≠ '\\' := by
  rcases isQuote_iff.1 h with rfl | rfl <;> decide

theorem ne_line_feed_of_isQuote {c : Char} (h : isQuote c = true) : c ≠ '\n' := by
  rcases isQuote_iff.1 h with rfl | rfl <;> decide

/-- A quote begins a string. -/
theorem next_quoted {c : Char} {rest value after : List Char} (h : isQuote c = true)
    (hquoted : quoted? c rest = some (value, after)) (fold : Bool) :
    next fold c rest =
      ⟨.token .string (String.ofList value), c :: (value ++ [c]), after⟩ := by
  simp [next, isBlank_of_isQuote h, (isDelimiter_quote h).not_slash, h, hquoted]

/-- A quote that is never closed takes everything. -/
theorem next_unquoted {c : Char} {rest : List Char} (h : isQuote c = true)
    (hquoted : quoted? c rest = none) (fold : Bool) :
    next fold c rest = ⟨.openString, c :: rest, []⟩ := by
  simp [next, isBlank_of_isQuote h, (isDelimiter_quote h).not_slash, h, hquoted]

/-- An open string begins with a quote that is never closed. -/
theorem of_next_openString {fold : Bool} {c : Char} {rest : List Char}
    (h : (next fold c rest).piece = .openString) : isQuote c = true ∧ quoted? c rest = none := by
  rw [next] at h
  split at h
  · cases h
  split at h
  · cases h
  split at h
  · cases h
  split at h
  next hquote =>
      split at h
      · cases h
      next hquoted => exact ⟨hquote, hquoted⟩
  split at h
  · cases h
  split at h
  · cases h
  split at h
  · cases h
  · unfold operatorOrSymbol at h
    split at h
    · cases h
    · split at h <;> cases h

/-- A string is closed by the first quote that is not escaped. -/
theorem Enclosed.quoted? {quote : Char} {value : List Char} (h : Enclosed quote value)
    (hquote : quote ≠ '\\') (after : List Char) :
    quoted? quote (value ++ quote :: after) = some (value, after) := by
  induction h with
  | nil => rw [List.nil_append, quoted?_cons hquote, if_pos rfl]
  | escape c _ ih => simp [Lexeme.quoted?, ih]
  | plain hne hc _ ih => rw [List.cons_append, quoted?_cons hc, if_neg hne, ih]; rfl

/-- A block comment is closed by `*/`, wherever that stands. -/
theorem closes_append (inner after : List Char) : closes (inner ++ '*' :: '/' :: after) = true := by
  induction inner with
  | nil => rfl
  | cons c rest ih =>
      rw [List.cons_append]
      unfold closes
      split
      next heq => cases heq
      · rfl
      next heq => rwa [(List.cons.inj heq).2] at ih

section Cut

variable {fold : Bool} {c quote : Char} {rest after back : List Char}

/-- A string that is closed in front of a place is closed without what stands behind it. -/
theorem quoted?_cut {value : List Char} (hc : c ≠ '\\')
    (h : quoted? c (rest ++ back) = some (value, after ++ back)) :
    quoted? c rest = some (value, after) := by
  have hwhole : value ++ c :: after ++ back = rest ++ back := by
    simpa using quoted?_append h
  rw [← List.append_cancel_right hwhole]
  exact (quoted?_enclosed h).quoted? hc after

/-- A comment that is closed in front of a place is closed without what stands behind it. -/
theorem closes_cut (hback : back ≠ []) (h : (comment (rest ++ back)).2 = after ++ back) :
    closes rest = true := by
  have hwhole := comment_append (rest ++ back)
  rcases comment_cases (rest ++ back) with ⟨inner, hinner, -⟩ | ⟨hnone, -⟩
  · rw [hinner, h] at hwhole
    have hrest : inner ++ '*' :: '/' :: after ++ back = rest ++ back := by simpa using hwhole
    rw [← List.append_cancel_right hrest]
    exact closes_append inner after
  · rw [hnone] at h
    exact absurd (List.append_eq_nil_iff.1 h.symm).2 hback

/-- A lexeme that ends in front of a place is no string that goes on over it. -/
theorem piece_ne_openString_of_cut
    (hpiece : (next fold c (rest ++ back)).piece ≠ .openString)
    (hrest : (next fold c (rest ++ back)).rest = after ++ back) :
    (next fold c rest).piece ≠ .openString := by
  intro hopen
  obtain ⟨hc, hnone⟩ := of_next_openString hopen
  cases hquoted : quoted? c (rest ++ back) with
  | none => exact hpiece (by rw [next_unquoted hc hquoted])
  | some entry =>
      obtain ⟨value, later⟩ := entry
      rw [next_quoted hc hquoted] at hrest
      obtain rfl : later = after ++ back := hrest
      rw [quoted?_cut (ne_backslash_of_isQuote hc) hquoted] at hnone
      cases hnone

/-- A comment to the end of its line that ends in front of a quote has its line feed there. -/
theorem line_feed_mem_of_cut (hquote : isQuote quote = true)
    (hrest : (next fold '/' ('/' :: rest ++ quote :: back)).rest = after ++ quote :: back) :
    '\n' ∈ rest := by
  by_contra hmem
  have hall : ∀ d ∈ rest, (d != '\n') = true := fun d hd =>
    bne_iff_ne.2 (ne_of_mem_of_not_mem hd hmem)
  have hblank : Text.isBlank '/' = false := by decide
  -- Without a line feed the comment goes on over the quote.
  have hover : (next fold '/' ('/' :: rest ++ quote :: back)).rest =
      back.dropWhile (· != '\n') := by
    simp [next, hblank, List.dropWhile_append_of_pos hall, ne_line_feed_of_isQuote hquote]
  have hle := (List.dropWhile_suffix (· != '\n') (l := back)).length_le
  rw [← hover, hrest, List.length_append, List.length_cons] at hle
  omega

/-- A lexeme that ends in front of a quote is the same without the quote and what follows it. It is
no comment that goes on over the quote. -/
theorem next_cut (hquote : isQuote quote = true)
    (hpiece : (next fold c (rest ++ quote :: back)).piece ≠ .openString)
    (hrest : (next fold c (rest ++ quote :: back)).rest = after ++ quote :: back) :
    (c = '/' → rest.head? = some '*' → closes rest.tail = true) ∧
    (c = '/' → rest.head? = some '/' → '\n' ∈ rest) ∧
    next fold c rest = { next fold c (rest ++ quote :: back) with rest := after } := by
  have hblock : c = '/' → rest.head? = some '*' → closes rest.tail = true := by
    rintro rfl hhead
    obtain ⟨more, rfl⟩ := List.head?_eq_some_iff.1 hhead
    exact closes_cut (List.cons_ne_nil quote back) hrest
  have hline : c = '/' → rest.head? = some '/' → '\n' ∈ rest := by
    rintro rfl hhead
    obtain ⟨more, rfl⟩ := List.head?_eq_some_iff.1 hhead
    exact List.mem_cons_of_mem _ (line_feed_mem_of_cut hquote hrest)
  refine ⟨hblock, hline, ?_⟩
  have hnext := next_delimited (isDelimiter_quote hquote) back fold c rest
    (piece_ne_openString_of_cut hpiece hrest) hblock (fun hc hhead _ => hline hc hhead)
    fun _ _ => isBlank_of_isQuote hquote
  rw [hnext] at hrest ⊢
  rw [← List.append_cancel_right hrest]

end Cut

end Lexeme

namespace Token

open Lexeme (isQuote Unclosed)

variable {fold : Bool} {offset : Nat} {text : List Char}

/-! ## Where scanning fails -/

/-- The text does not end inside a comment. -/
structure EndsOutside (fold : Bool) (text : List Char) : Prop where
  block : endsInComment fold text = false
  line : endsInLineComment fold text = false

/-- The empty text does not end inside a comment. -/
theorem EndsOutside.nil : EndsOutside fold [] := by
  constructor
  · rw [endsInComment]
  · rw [endsInLineComment]

/-- A text ends outside a comment if its first lexeme does and so does the rest. -/
theorem EndsOutside.cons {c : Char} {rest : List Char}
    (hblock : c = '/' → rest.head? = some '*' → Lexeme.closes rest.tail = true)
    (hline : c = '/' → rest.head? = some '/' → '\n' ∈ rest)
    (h : EndsOutside fold (Lexeme.next fold c rest).rest) : EndsOutside fold (c :: rest) := by
  constructor
  · rw [endsInComment, if_neg]
    · exact h.block
    · rintro ⟨hc, hhead, hopen⟩
      rw [hblock hc hhead] at hopen
      cases hopen
  · rw [endsInLineComment, if_neg]
    · exact h.line
    · rintro ⟨hc, hhead, hopen⟩
      exact hopen (hline hc hhead)

/-- A text whose rest behind the first lexeme is cut in front of a quote is cut there itself: the
first lexeme stays as it is. -/
theorem cut_first {c quote : Char} {rest after back : List Char} (hquote : isQuote quote = true)
    (hpiece : (Lexeme.next fold c rest).piece ≠ .openString)
    (hrest : (Lexeme.next fold c rest).rest = after ++ quote :: back)
    (hafter : EndsOutside fold after) :
    ∃ more, c :: rest = (c :: more) ++ quote :: back ∧ EndsOutside fold (c :: more) ∧
      Lexeme.next fold c more = { Lexeme.next fold c rest with rest := after } ∧
      offset + Text.byteLength (c :: more) =
        offset + Text.byteLength (Lexeme.next fold c rest).text + Text.byteLength after := by
  have hwhole := Lexeme.text_append_rest fold c rest
  obtain ⟨d, more, htext⟩ := List.exists_cons_of_ne_nil (Lexeme.text_ne_nil fold c rest)
  rw [hrest, htext, List.cons_append] at hwhole
  obtain ⟨rfl, hmore⟩ := List.cons.inj hwhole
  obtain rfl : rest = more ++ after ++ quote :: back := by rw [← hmore, List.append_assoc]
  obtain ⟨hblock, hline, hnext⟩ := Lexeme.next_cut hquote hpiece hrest
  have hlength := Lexeme.add_byteLength fold offset d (more ++ after)
  rw [hnext] at hlength
  refine ⟨more ++ after, rfl, .cons hblock hline ?_, hnext, hlength⟩
  rw [hnext]
  exact hafter

/-- Where scanning fails a quote stands that is never closed. The text in front of it can be cut
into tokens by itself, and does not end inside a comment. -/
theorem scan_error_cut {error : Error} (h : scan fold offset text = .error error) :
    ∃ front quote back tokens, text = front ++ quote :: back ∧ isQuote quote = true ∧
      Unclosed quote back ∧ scan fold offset front = .ok tokens ∧ EndsOutside fold front ∧
      error = unterminated (offset + Text.byteLength front) (quote :: back) := by
  fun_induction scan fold offset text generalizing error with
  | case1 => cases h
  | case2 offset c rest lexeme stop =>
      rename_i hpiece ih
      obtain ⟨front, quote, back, tokens, hrest, hquote, hopen, hscan, hends, rfl⟩ := ih h
      have hlexeme : (Lexeme.next fold c rest).piece = .blank := hpiece
      obtain ⟨more, hwhole, houtside, hnext, hlength⟩ :=
        cut_first hquote (by simp [hlexeme]) hrest hends
      refine ⟨c :: more, quote, back, tokens, hwhole, hquote, hopen, ?_, houtside, by rw [hlength]⟩
      rw [scan, hnext]
      simp only [hlexeme]
      exact hscan
  | case3 offset c rest lexeme stop kind value =>
      rename_i hpiece ih
      have hlexeme : (Lexeme.next fold c rest).piece = .token kind value := hpiece
      obtain ⟨front, quote, back, tokens, hrest, hquote, hopen, hscan, hends, rfl⟩ :=
        ih (of_map_error h)
      obtain ⟨more, hwhole, houtside, hnext, hlength⟩ :=
        cut_first hquote (by simp [hlexeme]) hrest hends
      refine ⟨c :: more, quote, back, ⟨kind, value, ⟨offset, stop⟩⟩ :: tokens, hwhole, hquote,
        hopen, ?_, houtside, by rw [hlength]⟩
      rw [scan, hnext]
      simp only [hlexeme]
      rw [show scan fold (offset + Text.byteLength (Lexeme.next fold c rest).text) front = _
        from hscan]
      rfl
  | case4 offset c rest lexeme =>
      rename_i hpiece
      obtain ⟨hquote, hnone⟩ := Lexeme.of_next_openString hpiece
      cases h
      refine ⟨[], c, rest, [endMark offset], rfl, hquote, ?_, scan_nil fold offset, .nil, ?_⟩
      · exact (Lexeme.quoted?_eq_none_iff (Lexeme.ne_backslash_of_isQuote hquote) rest).1 hnone
      · have htext : lexeme.text = c :: rest := by
          show (Lexeme.next fold c rest).text = _
          rw [Lexeme.next_unquoted hquote hnone]
        rw [htext]
        rfl

/-- Scanning fails at a quote that is never closed, if it comes that far: the text in front of it
can be cut into tokens, and does not end inside a comment. -/
theorem scan_of_unclosed {front back : List Char} {quote : Char} {tokens : List Token}
    (h : scan fold offset front = .ok tokens) (hends : EndsOutside fold front)
    (hquote : isQuote quote = true) (hopen : Unclosed quote back) :
    scan fold offset (front ++ quote :: back) =
      .error (unterminated (offset + Text.byteLength front) (quote :: back)) := by
  have hnone : Lexeme.quoted? quote back = none :=
    (Lexeme.quoted?_eq_none_iff (Lexeme.ne_backslash_of_isQuote hquote) back).2 hopen
  obtain ⟨body, -, hscan⟩ := scan_delimited (Lexeme.isDelimiter_quote hquote) h hends.block
    (fun _ => hends.line) back
  rw [hscan, scan, Lexeme.next_unquoted hquote hnone]
  rfl

/-- Scanning fails exactly at a string that is never closed. It gives tokens, or else the fatal
error of a string that begins somewhere and reaches to the end of the source; then a quote stands
there, every later quote of its kind is escaped, and the source in front of it is tiled by tokens of
its own and does not end inside a comment. Wherever a source is like this, it is that error which
scanning gives. -/
theorem tokenize_open_string (settings : Settings) (source : String) :
    (∀ error, tokenize settings source = .error error →
      ∃ front quote back tokens, source.toList = front ++ quote :: back ∧ isQuote quote = true ∧
        Unclosed quote back ∧ tokenize settings (String.ofList front) = .ok tokens ∧
        Tiling settings.foldNegative front tokens ∧ EndsOutside settings.foldNegative front ∧
        error = ⟨.unterminatedString (Text.byteLength front),
          ⟨Text.byteLength front, Text.byteLength source.toList⟩, true⟩) ∧
    ∀ front quote back tokens, source.toList = front ++ quote :: back →
      tokenize settings (String.ofList front) = .ok tokens →
      EndsOutside settings.foldNegative front → isQuote quote = true → Unclosed quote back →
        tokenize settings source = .error ⟨.unterminatedString (Text.byteLength front),
          ⟨Text.byteLength front, Text.byteLength source.toList⟩, true⟩ := by
  have herror : ∀ front quote back, source.toList = front ++ quote :: back →
      unterminated (0 + Text.byteLength front) (quote :: back) =
        ⟨.unterminatedString (Text.byteLength front),
          ⟨Text.byteLength front, Text.byteLength source.toList⟩, true⟩ := by
    intro front quote back hsource
    rw [hsource, Text.byteLength_append, Nat.zero_add]
    rfl
  constructor
  · intro error h
    obtain ⟨front, quote, back, tokens, hsource, hquote, hopen, hscan, hends, rfl⟩ :=
      scan_error_cut h
    have htokens : tokenize settings (String.ofList front) = .ok tokens := by
      rwa [tokenize, String.toList_ofList]
    exact ⟨front, quote, back, tokens, hsource, hquote, hopen, htokens, scan_tiles hscan, hends,
      herror front quote back hsource⟩
  · intro front quote back tokens hsource htokens hends hquote hopen
    rw [tokenize, String.toList_ofList] at htokens
    rw [tokenize, ← herror front quote back hsource, hsource]
    exact scan_of_unclosed htokens hends hquote hopen

theorem tokenize_open_string_escaped :
    tokenize ⟨8, true⟩ "/*'*/ \"a\\\"" = .error ⟨.unterminatedString 6, ⟨6, 10⟩, true⟩ ∧
      ∃ front quote back, "/*'*/ \"a\\\"".toList = front ++ quote :: back ∧
        isQuote quote = true ∧ Unclosed quote back ∧ Text.byteLength front = 6 := by
  obtain ⟨hforward, hback⟩ := tokenize_open_string ⟨8, true⟩ "/*'*/ \"a\\\""
  have h := hback "/*'*/ ".toList '"' "a\\\"".toList [endMark 6] rfl (by decide +kernel)
    ⟨by decide +kernel, by decide +kernel⟩ rfl
    ((Lexeme.quoted?_eq_none_iff (by decide) _).1 (by decide +kernel))
  obtain ⟨front, quote, back, -, hsource, hquote, hopen, -, -, -, herror⟩ := hforward _ h
  have hstart := Cause.unterminatedString.inj (Error.mk.inj herror).1
  exact ⟨h, front, quote, back, hsource, hquote, hopen, hstart.symm⟩

end Token

end ScriptLint
