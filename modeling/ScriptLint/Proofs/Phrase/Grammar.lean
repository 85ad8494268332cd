import ScriptLint.Grammar.Expression
import ScriptLint.Proofs.Reading.Lists

/-!
# The grammar of expressions

The ladder of levels, from assignments down to primary phrases, and the tokens that make a phrase of
a level. `Phrase sourceText level tokens expr` says that `tokens` derive `expr` at `level`. The
grammar is left-recursive: a phrase of a level is one of the next level, or an operation on a phrase
of the same level. Binding powers have no part in it.
-/

namespace ScriptLint

/-- The levels of the grammar, the loosest first. -/
inductive Level where
  | assign
  | or
  | and
  | equality
  | relational
  | additive
  | multiplicative
  | unary
  | suffix
  | primary
deriving DecidableEq, Repr

namespace Level

/-- The place of a level in the ladder. -/
def rank : Level → Nat
  | .assign => 0
  | .or => 1
  | .and => 2
  | .equality => 3
  | .relational => 4
  | .additive => 5
  | .multiplicative => 6
  | .unary => 7
  | .suffix => 8
  | .primary => 9

/-- The next level of the ladder; the last one has none but itself. -/
def next : Level → Level
  | .assign => .or
  | .or => .and
  | .and => .equality
  | .equality => .relational
  | .relational => .additive
  | .additive => .multiplicative
  | .multiplicative => .unary
  | .unary => .suffix
  | .suffix => .primary
  | .primary => .primary

/-- The operators that join phrases of a level. -/
def operators : Level → List String
  | .or => ["or"]
  | .and => ["and"]
  | .equality => ["==", "!="]
  | .relational => ["<", "<=", ">", ">="]
  | .additive => ["+", "-"]
  | .multiplicative => ["*", "/", "%"]
  | .assign | .unary | .suffix | .primary => []

/-- The expression that an operator of a level makes of its operands. -/
def join (level : Level) (operator : String) (left right : Expr) : Expr :=
  match level with
  | .or | .and => .logical operator left right (left.span.hull right.span)
  | _ => .binary operator left right (left.span.hull right.span)

end Level

/-- A key, which is a name or a string, a colon, and the tokens of a value. -/
structure Entry where
  key : Token
  colon : Token
  tokens : List Token
  value : Expr
  key_kind : key.kind = .identifier ∨ key.kind = .string
  colon_is : colon.is ":" = true

namespace Entry

/-- All tokens of an entry. -/
def all (entry : Entry) : List Token :=
  entry.key :: entry.colon :: entry.tokens

/-- The property that an entry stands for. -/
def property (entry : Entry) : Property Expr :=
  ⟨entry.key.value, entry.value, ⟨entry.key.span.start, entry.value.span.stop⟩⟩

end Entry

/-- The value of a token that is a literal. All numbers that are scanned are literals, as
`Token.exists_literal?_of_tokenize` says. -/
def Token.literal? (token : Token) : Option Literal :=
  match token.kind with
  | .number => (Numeral.toDouble? token.value.toList).map .number
  | .string => some (.string token.value)
  | .keyword =>
      if token.value = "true" then some (.bool true)
      else if token.value = "false" then some (.bool false)
      else if token.value = "nil" then some .nil
      else none
  | .eof | .identifier | .operator | .symbol => none

/-- `Phrase sourceText level tokens expr` says that the tokens derive the expression at a level,
where `sourceText` gives the text that a literal was written as. -/
inductive Phrase (sourceText : Span → String) : Level → List Token → Expr → Prop where
  /-- A phrase of the next level. -/
  | tighter {level : Level} {tokens : List Token} {expr : Expr} :
      Phrase sourceText level.next tokens expr → Phrase sourceText level tokens expr
  /-- A target, `=` and a value. Parentheses leave no trace, so the target is a name or a member
  also if it is written between them. -/
  | assignment {left right : List Token} {equals : Token} {target value : Expr} :
      Phrase sourceText .or left target → target.isAssignable = true → equals.is "=" = true →
      Phrase sourceText .assign right value →
      Phrase sourceText .assign (left ++ equals :: right)
        (.assignment target value (target.span.hull value.span))
  /-- Two operands and an operator between them. -/
  | operation {level : Level} {left right : List Token} {operator : Token} {first second : Expr} :
      Phrase sourceText level left first → operator.isAny level.operators = true →
      Phrase sourceText level.next right second →
      Phrase sourceText level (left ++ operator :: right) (level.join operator.value first second)
  /-- An operator in front of its operand. -/
  | unary {operator : Token} {tokens : List Token} {argument : Expr} :
      operator.isAny ["not", "!", "-"] = true → Phrase sourceText .unary tokens argument →
      Phrase sourceText .unary (operator :: tokens)
        (.unary operator.value argument (operator.span.hull argument.span))
  | call {front inside : List Token} {opening closing : Token} {callee : Expr}
      {arguments : List (List Token × Expr)} :
      Phrase sourceText .suffix front callee → opening.is "(" = true →
      (∀ argument ∈ arguments, Phrase sourceText .assign argument.1 argument.2) →
      Separated Prod.fst arguments inside → closing.is ")" = true →
      Phrase sourceText .suffix (front ++ opening :: (inside ++ [closing]))
        (.call callee (arguments.map Prod.snd) (Span.upTo callee.span.start closing))
  | member {front : List Token} {point name : Token} {object : Expr} :
      Phrase sourceText .suffix front object → point.is "." = true →
      name.kind = .identifier ∨ name.kind = .keyword →
      Phrase sourceText .suffix (front ++ [point, name])
        (.member object ⟨name.value, name.span⟩ (object.span.hull name.span))
  | literal {token : Token} {value : Literal} : token.literal? = some value →
      Phrase sourceText .primary [token] (.literal value (sourceText token.span) token.span)
  | identifier {token : Token} : token.kind = .identifier →
      Phrase sourceText .primary [token] (.identifier token.value token.span)
  /-- An expression in parentheses. -/
  | grouping {opening closing : Token} {inside : List Token} {expr : Expr} :
      opening.is "(" = true → Phrase sourceText .assign inside expr → closing.is ")" = true →
      Phrase sourceText .primary (opening :: (inside ++ [closing])) expr
  | array {opening closing : Token} {inside : List Token}
      {elements : List (List Token × Expr)} :
      opening.is "[" = true →
      (∀ element ∈ elements, Phrase sourceText .assign element.1 element.2) →
      Separated Prod.fst elements inside → closing.is "]" = true →
      Phrase sourceText .primary (opening :: (inside ++ [closing]))
        (.array (elements.map Prod.snd) (Span.upTo opening.span.start closing))
  | object {opening closing : Token} {inside : List Token} {entries : List Entry} :
      opening.is "\x7b" = true →
      (∀ entry ∈ entries, Phrase sourceText .assign entry.tokens entry.value) →
      Separated Entry.all entries inside → closing.is "\x7d" = true →
      Phrase sourceText .primary (opening :: (inside ++ [closing]))
        (.object (entries.map Entry.property) (Span.upTo opening.span.start closing))

/-! ## Forms of tokens -/

/-- A token is a text iff it is known by its spelling and has it as its value. -/
theorem Token.is_iff {token : Token} {text : String} :
    token.is text = true ↔ token.isSpelled = true ∧ token.value = text := by
  simp [Token.is]

/-- A token with a spelling has the lead form of its spelling. -/
theorem Grammar.leadOf?_of_is {token : Token} {text : String} (h : token.is text = true) :
    Grammar.leadOf? token = Grammar.leadOfSpelling? text := by
  obtain ⟨hspelled, rfl⟩ := Token.is_iff.1 h
  unfold Token.isSpelled at hspelled
  unfold Grammar.leadOf?
  split at hspelled <;> simp_all

/-- A token with a spelling has the tail form of its spelling. -/
theorem Grammar.tailOf?_of_is {token : Token} {text : String} (h : token.is text = true) :
    Grammar.tailOf? token = Grammar.tailOfSpelling? text := by
  obtain ⟨hspelled, rfl⟩ := Token.is_iff.1 h
  rw [Grammar.tailOf?, if_pos hspelled]

/-- An operator in front of an operand has the lead form for it. -/
theorem Grammar.leadOf?_unary {token : Token} (h : token.isAny ["not", "!", "-"] = true) :
    Grammar.leadOf? token = some .unary := by
  simp only [Token.isAny, List.any_cons, List.any_nil, Bool.or_false, Bool.or_eq_true] at h
  rcases h with h | h | h <;> exact Grammar.leadOf?_of_is h

/-- A literal has the lead form of primary expressions. -/
theorem Grammar.leadOf?_literal {token : Token} {value : Literal}
    (h : token.literal? = some value) : Grammar.leadOf? token = some .primary := by
  unfold Token.literal? at h
  unfold Grammar.leadOf?
  split at h <;> simp_all
  split at h
  · simp_all [Grammar.leadOfSpelling?]
  split at h
  · simp_all [Grammar.leadOfSpelling?]
  split at h
  · simp_all [Grammar.leadOfSpelling?]
  · cases h

/-- The tokens that have a lead form other than the primary one. -/
theorem Grammar.leadOf?_cases {token : Token} {form : LeadForm}
    (h : Grammar.leadOf? token = some form) :
    form = .primary ∨ (token.isAny ["not", "!", "-"] = true ∧ form = .unary) ∨
      (token.is "(" = true ∧ form = .grouping) ∨ (token.is "[" = true ∧ form = .array) ∨
      (token.is "\x7b" = true ∧ form = .object) := by
  by_cases hspelled : token.isSpelled = true
  · obtain ⟨text, his⟩ : ∃ text, token.is text = true := ⟨_, Token.is_iff.2 ⟨hspelled, rfl⟩⟩
    rw [Grammar.leadOf?_of_is his] at h
    unfold Grammar.leadOfSpelling? at h
    split at h <;> simp_all [Token.isAny]
  · unfold Token.isSpelled at hspelled
    unfold Grammar.leadOf? at h
    split at h <;> simp_all

/-! ## Levels and phrases -/

namespace Level

/-- The next level is no looser. -/
theorem rank_le_next (level : Level) : level.rank ≤ level.next.rank := by
  cases level <;> decide

/-- The next level is one place down the ladder, except behind the last one. -/
theorem rank_next {level : Level} (h : level.rank < Level.primary.rank) :
    level.next.rank = level.rank + 1 := by
  revert h
  cases level <;> decide

/-- The rank of a level tells which level it is. -/
theorem eq_of_rank_eq {first second : Level} (h : first.rank = second.rank) : first = second := by
  revert h
  cases first <;> cases second <;> decide

end Level

namespace Phrase

variable {sourceText : Span → String} {level : Level} {tokens : List Token} {expr : Expr}

/-- A phrase of a level is one of every looser level. -/
theorem loosen (h : Phrase sourceText level tokens expr) {looser : Level}
    (hrank : looser.rank ≤ level.rank) : Phrase sourceText looser tokens expr := by
  -- The induction climbs the ladder from `looser` to `level`.
  obtain ⟨steps, hsteps⟩ : ∃ steps, level.rank = looser.rank + steps :=
    ⟨level.rank - looser.rank, by omega⟩
  induction steps generalizing looser with
  | zero => exact Level.eq_of_rank_eq hsteps ▸ h
  | succ steps ih =>
      have hlast : level.rank ≤ Level.primary.rank := by cases level <;> decide
      have hnext : looser.next.rank = looser.rank + 1 := Level.rank_next (by omega)
      exact .tighter (ih (by omega) (by omega))

/-- A phrase begins with a token that has a lead form. -/
theorem starts (h : Phrase sourceText level tokens expr) :
    ∃ first rest, tokens = first :: rest ∧ (Grammar.leadOf? first).isSome = true := by
  induction h with
  | tighter _ ih => exact ih
  | assignment _ _ _ _ ih _ =>
      obtain ⟨first, rest, rfl, hlead⟩ := ih
      exact ⟨first, _, rfl, hlead⟩
  | operation _ _ _ ih _ =>
      obtain ⟨first, rest, rfl, hlead⟩ := ih
      exact ⟨first, _, rfl, hlead⟩
  | call _ _ _ _ _ ih =>
      obtain ⟨first, rest, rfl, hlead⟩ := ih
      exact ⟨first, _, rfl, hlead⟩
  | member _ _ _ ih =>
      obtain ⟨first, rest, rfl, hlead⟩ := ih
      exact ⟨first, _, rfl, hlead⟩
  | unary hoperator => exact ⟨_, _, rfl, by rw [Grammar.leadOf?_unary hoperator]; rfl⟩
  | literal hliteral => exact ⟨_, [], rfl, by rw [Grammar.leadOf?_literal hliteral]; rfl⟩
  | identifier hkind => exact ⟨_, [], rfl, by rw [Grammar.leadOf?, hkind]; rfl⟩
  | grouping hopening => exact ⟨_, _, rfl, by rw [Grammar.leadOf?_of_is hopening]; rfl⟩
  | array hopening => exact ⟨_, _, rfl, by rw [Grammar.leadOf?_of_is hopening]; rfl⟩
  | object hopening => exact ⟨_, _, rfl, by rw [Grammar.leadOf?_of_is hopening]; rfl⟩

end Phrase

end ScriptLint
