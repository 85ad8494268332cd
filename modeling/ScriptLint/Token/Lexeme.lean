import ScriptLint.Text.Blank
import ScriptLint.Text.Bytes
import ScriptLint.Token.Basic

/-!
# Lexemes

A lexeme is the piece of text at the front of a source: a run of blanks, a comment, a token, or a
string that is never closed. `Lexeme.next` tries these in a fixed order, and the first that fits is
taken at its full length. `Lexeme.text_append_rest` says that nothing is lost and
`Lexeme.text_ne_nil` that something is always taken.
-/

namespace ScriptLint

/-- What the text at the front of a source turns out to be. -/
inductive Piece where
  /-- Blanks or a comment. -/
  | blank
  | token (kind : TokenKind) (value : String)
  /-- A string that is never closed. -/
  | openString
deriving DecidableEq, Repr

/-- A piece, the characters it is made of, and the characters after it. -/
structure Lexeme where
  piece : Piece
  text : List Char
  rest : List Char
deriving DecidableEq, Repr

namespace Lexeme

/-- Whether a character can begin a word. -/
def isWordStart (c : Char) : Bool :=
  c.isAlpha || c == '_' || c == '$'

/-- Whether a character can go on a word. -/
def isWordPart (c : Char) : Bool :=
  isWordStart c || c.isDigit

/-- Whether a character opens and closes a string. -/
def isQuote (c : Char) : Bool :=
  c == '\x22' || c == '\x27'

/-- Splits the text inside a block comment behind the first `*/`, or at the end of the text. -/
def comment : List Char → List Char × List Char
  | [] => ([], [])
  | '*' :: '/' :: rest => (['*', '/'], rest)
  | c :: rest => (c :: (comment rest).1, (comment rest).2)

/-- Splits the text inside a string at the first closing `quote`, which belongs to neither part. A
backslash takes the next character with it. -/
def quoted? (quote : Char) : List Char → Option (List Char × List Char)
  | [] => none
  | ['\\'] => none
  | '\\' :: c :: rest =>
      (quoted? quote rest).map fun (value, after) => ('\\' :: c :: value, after)
  | c :: rest =>
      if c = quote then some ([], rest)
      else (quoted? quote rest).map fun (value, after) => (c :: value, after)

/-- Splits a text behind its leading digits, and behind a point with more digits if one follows. -/
def numeral (text : List Char) : List Char × List Char :=
  match text.dropWhile Char.isDigit with
  | '.' :: d :: rest =>
      if d.isDigit then
        (text.takeWhile Char.isDigit ++ '.' :: (d :: rest).takeWhile Char.isDigit,
          (d :: rest).dropWhile Char.isDigit)
      else (text.takeWhile Char.isDigit, '.' :: d :: rest)
  | rest => (text.takeWhile Char.isDigit, rest)

/-- Whether a text begins with a digit. -/
def startsWithDigit : List Char → Bool
  | [] => false
  | c :: _ => c.isDigit

/-- The value of the operator written with two given characters. -/
def operator? : Char → Char → Option String
  | '&', '&' => some "and"
  | '|', '|' => some "or"
  | '=', '=' => some "=="
  | '!', '=' => some "!="
  | '>', '=' => some ">="
  | '<', '=' => some "<="
  | '=', '>' => some "=>"
  | _, _ => none

/-- The lexeme of an operator or, failing that, of a single symbol. -/
def operatorOrSymbol (c : Char) (rest : List Char) : Lexeme :=
  match rest with
  | [] => ⟨.token .symbol (String.ofList [c]), [c], []⟩
  | d :: after =>
      match operator? c d with
      | some value => ⟨.token .operator value, [c, d], after⟩
      | none => ⟨.token .symbol (String.ofList [c]), [c], d :: after⟩

/-- The lexeme of a word. -/
def word (c : Char) (rest : List Char) : Lexeme :=
  let text := c :: rest.takeWhile isWordPart
  let value := String.ofList text
  let kind := if Token.keywords.contains value then .keyword else .identifier
  ⟨.token kind value, text, rest.dropWhile isWordPart⟩

/-- The lexeme at the front of the text `c :: rest`. With `fold`, a minus sign directly before a
digit belongs to the number. -/
def next (fold : Bool) (c : Char) (rest : List Char) : Lexeme :=
  if Text.isBlank c then
    ⟨.blank, c :: rest.takeWhile Text.isBlank, rest.dropWhile Text.isBlank⟩
  else if c = '/' ∧ rest.head? = some '/' then
    ⟨.blank, c :: rest.takeWhile (· != '\n'), rest.dropWhile (· != '\n')⟩
  else if c = '/' ∧ rest.head? = some '*' then
    ⟨.blank, c :: '*' :: (comment rest.tail).1, (comment rest.tail).2⟩
  else if isQuote c then
    match quoted? c rest with
    | some (value, after) => ⟨.token .string (String.ofList value), c :: (value ++ [c]), after⟩
    | none => ⟨.openString, c :: rest, []⟩
  else if fold ∧ c = '-' ∧ startsWithDigit rest then
    let text := c :: (numeral rest).1
    ⟨.token .number (String.ofList text), text, (numeral rest).2⟩
  else if c.isDigit then
    let text := (numeral (c :: rest)).1
    ⟨.token .number (String.ofList text), text, (numeral (c :: rest)).2⟩
  else if isWordStart c then word c rest
  else operatorOrSymbol c rest

/-- Nothing is lost at the end of a block comment. -/
theorem comment_append (text : List Char) : (comment text).1 ++ (comment text).2 = text := by
  fun_induction comment text with
  | case1 => rfl
  | case2 => rfl
  | case3 c rest _ ih => simp [ih]

/-- A string, its closing quote and the rest make up the text. -/
theorem quoted?_append {quote : Char} {text value after : List Char}
    (h : quoted? quote text = some (value, after)) : value ++ quote :: after = text := by
  fun_induction quoted? quote text generalizing value with
  | case1 => simp at h
  | case2 => simp at h
  | case3 c rest ih =>
      obtain ⟨⟨inner, later⟩, hinner, heq⟩ := Option.map_eq_some_iff.1 h
      simp only [Prod.mk.injEq] at heq
      obtain ⟨rfl, rfl⟩ := heq
      simp [ih hinner]
  | case4 rest _ _ =>
      simp only [Option.some.injEq, Prod.mk.injEq] at h
      obtain ⟨rfl, rfl⟩ := h
      rfl
  | case5 c rest _ _ _ ih =>
      obtain ⟨⟨inner, later⟩, hinner, heq⟩ := Option.map_eq_some_iff.1 h
      simp only [Prod.mk.injEq] at heq
      obtain ⟨rfl, rfl⟩ := heq
      simp [ih hinner]

/-- Nothing is lost at the end of a number. -/
theorem numeral_append (text : List Char) : (numeral text).1 ++ (numeral text).2 = text := by
  have hsplit := List.takeWhile_append_dropWhile (p := Char.isDigit) (l := text)
  rw [numeral]
  split
  next d rest hrest =>
    rw [hrest] at hsplit
    split
    · rw [List.append_assoc, List.cons_append, List.takeWhile_append_dropWhile, hsplit]
    · exact hsplit
  next => exact hsplit

/-- A number has at least one digit. -/
theorem numeral_ne_nil {text : List Char} (h : startsWithDigit text = true) :
    (numeral text).1 ≠ [] := by
  cases text with
  | nil => simp [startsWithDigit] at h
  | cons c rest =>
      have hc : c.isDigit = true := h
      rw [numeral]
      split
      · split <;> simp [List.takeWhile_cons_of_pos hc]
      · simp [List.takeWhile_cons_of_pos hc]

/-- Nothing is lost at the end of an operator or a symbol. -/
theorem operatorOrSymbol_append (c : Char) (rest : List Char) :
    (operatorOrSymbol c rest).text ++ (operatorOrSymbol c rest).rest = c :: rest := by
  unfold operatorOrSymbol
  split
  · rfl
  · split <;> rfl

/-- An operator or a symbol has at least one character. -/
theorem operatorOrSymbol_ne_nil (c : Char) (rest : List Char) :
    (operatorOrSymbol c rest).text ≠ [] := by
  unfold operatorOrSymbol
  split
  · simp
  · split <;> simp

/-- A lexeme and what follows it are the whole text. -/
theorem text_append_rest (fold : Bool) (c : Char) (rest : List Char) :
    (next fold c rest).text ++ (next fold c rest).rest = c :: rest := by
  rw [next]
  split
  · simp [List.takeWhile_append_dropWhile]
  split
  · simp [List.takeWhile_append_dropWhile]
  split
  next hstar =>
    cases rest with
    | nil => simp at hstar
    | cons d after =>
        simp only [List.head?_cons, Option.some.injEq] at hstar
        simp [comment_append, hstar.2]
  split
  · split
    next hquoted => simp [← quoted?_append hquoted]
    next => simp
  split
  · simp [numeral_append]
  split
  · simp [numeral_append]
  split
  · simp [word, List.takeWhile_append_dropWhile]
  · exact operatorOrSymbol_append c rest

/-- A lexeme holds at least one character. -/
theorem text_ne_nil (fold : Bool) (c : Char) (rest : List Char) :
    (next fold c rest).text ≠ [] := by
  rw [next]
  split
  · simp
  split
  · simp
  split
  · simp
  split
  · split <;> simp
  split
  · simp
  split
  next hdigit => exact numeral_ne_nil hdigit
  split
  · simp [word]
  · exact operatorOrSymbol_ne_nil c rest

/-- What follows a lexeme is shorter than the text it was cut from. -/
theorem length_rest_lt (fold : Bool) (c : Char) (rest : List Char) :
    (next fold c rest).rest.length < (c :: rest).length := by
  have happend := congrArg List.length (text_append_rest fold c rest)
  have hpos := List.length_pos_iff.2 (text_ne_nil fold c rest)
  rw [List.length_append] at happend
  omega

end Lexeme

end ScriptLint
