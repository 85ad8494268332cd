import ScriptLint.Proofs.Phrase.Grammar

/-!
# Binding powers and levels

How the binding powers of the operators fit the ladder of levels. An operator takes its left operand
from the level `Power.left`, and what is read with a power is a phrase of the level `Power.level`.
A token ends a phrase of a level if no operator there takes its left operand from a tighter one.
-/

namespace ScriptLint

/-- The level of the expressions that are read with a binding power. -/
def Power.level : Power → Level
  | .default => .assign
  | .assignment => .or
  | .or => .and
  | .and => .equality
  | .equality => .relational
  | .relational => .additive
  | .additive => .multiplicative
  | .multiplicative => .unary
  | .unary => .unary
  | .call => .suffix
  | .member => .suffix

/-- The level of the left operand of an operator with a binding power. -/
def Power.left : Power → Level
  | .default => .assign
  | .assignment => .or
  | .or => .or
  | .and => .and
  | .equality => .equality
  | .relational => .relational
  | .additive => .additive
  | .multiplicative => .multiplicative
  | .unary => .unary
  | .call => .suffix
  | .member => .suffix

namespace Level

/-- The binding power of the operators of a level. -/
def power : Level → Power
  | .assign => .assignment
  | .or => .or
  | .and => .and
  | .equality => .equality
  | .relational => .relational
  | .additive => .additive
  | .multiplicative => .multiplicative
  | .unary => .unary
  | .suffix => .member
  | .primary => .member

/-- The tail form of the operators of a level. -/
def form : Level → TailForm
  | .or | .and => .logical
  | _ => .binary

/-- An operator of a level takes a phrase of it on the left and one of the next level on the right,
and its power lies between the two. -/
theorem power_of_operator {level : Level} {token : Token}
    (h : token.isAny level.operators = true) :
    level.power.left = level ∧ level.power.level = level.next ∧
      level.power.rank = level.rank + 1 ∧ level.power.rank ≤ Power.unary.rank ∧
      level.rank < Level.unary.rank := by
  cases level with
  | assign | unary | suffix | primary => simp [Token.isAny, operators] at h
  | or | and | equality | relational | additive | multiplicative => decide

end Level

namespace Power

/-- No operator takes its left operand from the last level. -/
theorem left_rank_le (power : Power) : power.left.rank ≤ Level.suffix.rank := by
  cases power <;> decide

/-- What is read with a power up to the unary one is of the unary level or a looser one. -/
theorem level_rank_le_unary {power : Power} (h : power.rank ≤ Power.unary.rank) :
    power.level.rank ≤ Level.unary.rank := by
  revert h
  cases power <;> decide

/-- A weaker operator takes its left operand from a looser level. -/
theorem left_rank_mono {weak strong : Power} (h : weak.rank ≤ strong.rank) :
    weak.left.rank ≤ strong.left.rank := by
  revert h
  cases weak <;> cases strong <;> decide

/-- The level below a power is where the operators that bind tighter take their left operands. -/
theorem level_rank_le_left {power next : Power} (h : power.rank < next.rank) :
    power.level.rank ≤ next.left.rank := by
  revert h
  cases power <;> cases next <;> decide

/-- An operator that takes its left operand from a level in front of the unary one, or a looser
level, binds no tighter than the operators of that level. -/
theorem rank_le_of_left_le {next : Power} {level : Level} (h : next.left.rank ≤ level.rank)
    (hlevel : level.rank ≤ Level.unary.rank) : next.rank ≤ level.rank + 1 := by
  revert h hlevel
  cases next <;> cases level <;> decide

/-- A power with a level in front of the unary one below it is weaker than the operators there. -/
theorem rank_le_of_level_le {power : Power} {level : Level} (h : power.level.rank ≤ level.rank)
    (hlevel : level.rank < Level.unary.rank) : power.rank ≤ level.rank := by
  revert h hlevel
  cases power <;> cases level <;> decide

/-- An operator that binds no tighter than a power takes its left operand from the level below the
power, or a looser one. -/
theorem left_rank_le_level {power next : Power} (h : next.rank ≤ power.rank) :
    next.left.rank ≤ power.level.rank := by
  revert h
  cases power <;> cases next <;> decide

end Power

namespace Grammar

/-- An operator of a level has the power and the form of its level. -/
theorem tailOf?_operator {level : Level} {token : Token}
    (h : token.isAny level.operators = true) :
    tailOf? token = some (level.power, level.form) := by
  obtain ⟨text, htext, his⟩ := List.any_eq_true.1 h
  rw [tailOf?_of_is his]
  cases level <;> simp only [Level.operators, List.mem_cons, List.not_mem_nil, or_false] at htext
  all_goals
    rcases htext with rfl | rfl | rfl | rfl
    all_goals rfl

/-- The tokens that have a tail form: `=`, the operators of the levels, `(` and `.`. -/
theorem tailOf?_cases {token : Token} {power : Power} {form : TailForm}
    (h : tailOf? token = some (power, form)) :
    (token.is "=" = true ∧ power = .assignment ∧ form = .assignment) ∨
    (∃ level : Level, token.isAny level.operators = true ∧ power = level.power ∧
      form = level.form) ∨
    (token.is "(" = true ∧ power = .call ∧ form = .call) ∨
    (token.is "." = true ∧ power = .member ∧ form = .member) := by
  have hspelled : token.isSpelled = true := by
    unfold tailOf? at h
    split at h
    next hspelled => exact hspelled
    next => cases h
  obtain ⟨text, his⟩ : ∃ text, token.is text = true := ⟨_, Token.is_iff.2 ⟨hspelled, rfl⟩⟩
  have hoperator : ∀ level : Level, text ∈ level.operators →
      some (level.power, level.form) = some (power, form) →
      ∃ level : Level, token.isAny level.operators = true ∧ power = level.power ∧
        form = level.form := by
    rintro level htext hsame
    cases hsame
    exact ⟨level, List.any_eq_true.2 ⟨text, htext, his⟩, rfl, rfl⟩
  rw [tailOf?_of_is his] at h
  unfold tailOfSpelling? at h
  split at h
  · cases h
    exact .inl ⟨his, rfl, rfl⟩
  · exact .inr (.inl (hoperator .or (by decide) h))
  · exact .inr (.inl (hoperator .and (by decide) h))
  · exact .inr (.inl (hoperator .equality (by decide) h))
  · exact .inr (.inl (hoperator .equality (by decide) h))
  · exact .inr (.inl (hoperator .relational (by decide) h))
  · exact .inr (.inl (hoperator .relational (by decide) h))
  · exact .inr (.inl (hoperator .relational (by decide) h))
  · exact .inr (.inl (hoperator .relational (by decide) h))
  · exact .inr (.inl (hoperator .additive (by decide) h))
  · exact .inr (.inl (hoperator .additive (by decide) h))
  · exact .inr (.inl (hoperator .multiplicative (by decide) h))
  · exact .inr (.inl (hoperator .multiplicative (by decide) h))
  · exact .inr (.inl (hoperator .multiplicative (by decide) h))
  · cases h
    exact .inr (.inr (.inl ⟨his, rfl, rfl⟩))
  · cases h
    exact .inr (.inr (.inr ⟨his, rfl, rfl⟩))
  · cases h

end Grammar

/-- The token ends a phrase of a level: an operator there takes its left operand from that level or
a looser one. -/
def Token.Ends (token : Token) (level : Level) : Prop :=
  ∀ next form, Grammar.tailOf? token = some (next, form) → next.left.rank ≤ level.rank

/-- A token without a tail form ends every phrase. -/
theorem Token.ends_of_tailOf?_eq_none {token : Token} (h : Grammar.tailOf? token = none)
    (level : Level) : token.Ends level := by
  intro next form hform
  rw [h] at hform
  cases hform

namespace Expr

variable {context : Context} {power next : Power} {form : TailForm} {token : Token}

/-- A token goes on with an expression if it has a form that binds tighter than the power. -/
theorem tighterTail?_eq_some_iff (hgrammar : context.grammar = .standard) :
    tighterTail? context power token = some (next, form) ↔
      Grammar.tailOf? token = some (next, form) ∧ power.rank < next.rank := by
  rw [tighterTail?, hgrammar, Option.filter_eq_some_iff, decide_eq_true_eq]
  exact Iff.rfl

/-- An expression ends where no form binds tighter than the power. -/
theorem tighterTail?_eq_none_iff (hgrammar : context.grammar = .standard) :
    tighterTail? context power token = none ↔
      ∀ next form, Grammar.tailOf? token = some (next, form) → next.rank ≤ power.rank := by
  rw [tighterTail?, hgrammar, Option.filter_eq_none_iff]
  simp only [Prod.forall, decide_eq_true_eq, Nat.not_lt]
  exact Iff.rfl

end Expr

end ScriptLint
