import ScriptLint.Proofs.Reading.Clean
import ScriptLint.Proofs.Reasoning.Loops

/-!
# Steps that need a token

A step needs a token if at the end of the tokens it fails, or records an error. What stands in front
of such a step has left a token for it whenever the two of them succeed without an error.
-/

namespace ScriptLint

/-- No error is recorded on the way if none is at its end. -/
theorem Reading.Reaches.errors_eq {reading middle later : Reading} (hfirst : reading.Reaches middle)
    (hsecond : middle.Reaches later) (hclean : later.errors = reading.errors) :
    middle.errors = reading.errors ∧ later.errors = middle.errors := by
  obtain ⟨reports, hreports⟩ := hfirst.errors
  obtain ⟨others, hothers⟩ := hsecond.errors
  have hsize := congrArg Array.size hclean
  rw [hothers, hreports, Array.size_append, Array.size_append] at hsize
  obtain rfl : reports = #[] := Array.eq_empty_of_size_eq_zero (by omega)
  rw [Array.append_empty] at hreports
  exact ⟨hreports, hclean.trans hreports.symm⟩

namespace Read

variable {α β : Type} {step other : Read α} {rest : α → Read β}

/-- At the end of the tokens the step does not succeed without an error. -/
class Needs (step : Read α) : Prop where
  dirty : ∀ {reading later : Reading} {value : α}, reading.Marked → reading.ahead = [] →
    step reading = .ok value later → later.errors ≠ reading.errors

/-- A step that fails at the end needs a token. -/
theorem Needs.of_fails (h : ∀ reading : Reading, reading.Marked → reading.ahead = [] →
    ∃ error later, step reading = .error error later) : Needs step where
  dirty := by
    intro reading later value hmark hahead hrun
    obtain ⟨error, after, hfails⟩ := h reading hmark hahead
    rw [hfails] at hrun
    cases hrun

/-- Where a step that needs a token has succeeded without an error, there was one. -/
theorem ahead_ne_nil_of_clean [hneeds : Needs step] {reading later : Reading} {value : α}
    (hmark : reading.Marked) (hrun : step reading = .ok value later)
    (hclean : later.errors = reading.errors) : reading.ahead ≠ [] :=
  fun hahead => hneeds.dirty hmark hahead hrun hclean

/-- The mark is not a keyword, an operator or a symbol. -/
theorem is_eq_false_at_end {reading : Reading} (hmark : reading.Marked)
    (hahead : reading.ahead = []) (text : String) : reading.current.is text = false := by
  cases hseen : reading.current.is text with
  | false => rfl
  | true => exact absurd hahead (Reading.ahead_ne_nil_of_is hmark hseen)

instance (text : String) : Needs (expect text) where
  dirty := by
    intro reading later token hmark hahead hrun
    obtain ⟨hseen, -⟩ := expect_ok_iff.1 hrun
    exact absurd hahead (Reading.ahead_ne_nil_of_is hmark hseen)

instance (detail : String) : Needs (expectIdentifier detail) where
  dirty := by
    intro reading later token hmark hahead hrun
    obtain ⟨hkind, rfl, -⟩ := expectIdentifier_ok_iff.1 hrun
    exact absurd hahead (Reading.ahead_ne_nil_of_kind hmark (by simp [hkind]))

instance (cause : Token → Cause) : Needs (failWith cause : Read α) :=
  .of_fails fun _ _ _ => ⟨_, _, rfl⟩

instance : Needs (unexpected : Read α) :=
  inferInstanceAs (Needs (failWith _))

instance (error : ParseError) : Needs (record error) where
  dirty := by
    intro reading later value _ _ hrun
    cases hrun
    intro heq
    have hsize := congrArg Array.size heq
    simp at hsize

/-- A step needs a token if its first part does. -/
instance [hfirst : Needs step] [hstep : Forward step] [hrest : ∀ value, Forward (rest value)] :
    Needs (step >>= rest) where
  dirty := by
    intro reading last result hmark hahead hrun hclean
    obtain ⟨value, later, hfirstRun, hnext⟩ := bind_ok_iff.1 hrun
    have hlater := (hstep.moves.of_ok hfirstRun).2
    obtain ⟨hmiddle, -⟩ := hlater.errors_eq ((hrest value).moves.of_ok hnext).2 hclean
    exact hfirst.dirty hmark hahead hfirstRun hmiddle

/-- A step needs a token if its second part does: the first one finds none to leave. -/
instance [hstep : Forward step] [hrest : ∀ value, Forward (rest value)]
    [hneeds : ∀ value, Needs (rest value)] : Needs (step >>= rest) where
  dirty := by
    intro reading last result hmark hahead hrun hclean
    obtain ⟨value, later, hfirst, hnext⟩ := bind_ok_iff.1 hrun
    have hlater := (hstep.moves.of_ok hfirst).2
    obtain ⟨-, hsecond⟩ := hlater.errors_eq ((hrest value).moves.of_ok hnext).2 hclean
    have hle := hlater.length_le
    rw [hahead, List.length_nil, Nat.le_zero, List.length_eq_zero_iff] at hle
    exact (hneeds value).dirty (hlater.marked hmark) hle hnext hsecond

instance {f : α → β} [Needs step] [Forward step] : Needs (f <$> step) := by
  rw [map_eq_bind]
  infer_instance

instance {p : Prop} [Decidable p] [hstep : Needs step] [hother : Needs other] :
    Needs (if p then step else other) := by
  split
  · exact hstep
  · exact hother

instance [hstep : Needs step] : Needs (fatally step) where
  dirty hmark hahead hrun := hstep.dirty hmark hahead (fatally_ok_iff.1 hrun)

/-- Behind a token that may be absent it is enough to need one where it is. -/
theorem Needs.accept_bind {text : String} {rest : Bool → Read β} (h : Needs (rest false)) :
    Needs (accept text >>= rest) where
  dirty := by
    intro reading last result hmark hahead hrun
    have habsent : accept text reading = .ok false reading :=
      accept_ok_iff.2 ⟨(is_eq_false_at_end hmark hahead text).symm, rfl⟩
    rw [bind_of_ok habsent] at hrun
    exact h.dirty hmark hahead hrun

instance {expr : Read Expr} [Forward expr] : Needs (Stmt.readCondition expr) := by
  unfold Stmt.readCondition
  infer_instance

instance [hstep : Needs step] : Needs (id step) :=
  hstep

instance {stmt : Read (Option Stmt)} [Forward stmt] {brace : Read Token → Read Token}
    [∀ text, Forward (brace (expect text))] [∀ text, Needs (brace (expect text))] :
    Needs (Block.readWith brace stmt) := by
  unfold Block.readWith
  infer_instance

instance {stmt : Read (Option Stmt)} [Forward stmt] (fatal : Bool) :
    Needs (Block.read fatal stmt) := by
  cases fatal with
  | true => exact inferInstanceAs (Needs (Block.readWith fatally stmt))
  | false => exact inferInstanceAs (Needs (Block.readWith id stmt))

instance {stmt : Read (Option Stmt)} [Forward stmt] : Needs (Stmt.readBlock stmt) := by
  unfold Stmt.readBlock
  infer_instance

instance {expr : Read Expr} {stmt : Read (Option Stmt)} {elseIf : Read Stmt} [Forward expr]
    [Forward stmt] [Forward elseIf] : Needs (Stmt.readIfElse expr stmt elseIf) := by
  unfold Stmt.readIfElse
  infer_instance

instance (levels : Nat) (context : Context) : Needs (Stmt.readElseIf levels context) := by
  cases levels with
  | zero => exact .of_fails fun _ _ _ => ⟨_, _, by rw [Stmt.readElseIf]; rfl⟩
  | succ levels =>
      rw [Stmt.readElseIf]
      infer_instance

/-- No statement begins with the mark. -/
theorem needs_stmt (levels : Nat) {context : Context} (hgrammar : context.grammar.StopsAtMark) :
    Needs (Stmt.read levels context) := by
  refine .of_fails fun reading hmark hahead => ?_
  have hcurrent : reading.current.kind = .eof := by
    rw [Reading.current_of_ahead_nil hahead]
    exact hmark
  cases levels with
  | zero => exact ⟨_, _, by rw [Stmt.read]; rfl⟩
  | succ levels =>
      have hform := (hgrammar reading.current hcurrent).2.2
      refine ⟨.ofCause (.unexpectedToken reading.current.display) reading.current.span, reading, ?_⟩
      have hlook : current reading = .ok reading.current reading := rfl
      rw [Stmt.read, Stmt.readBy, bind_of_ok hlook, hform]
      dsimp only
      rw [Stmt.readExpression, bind_of_ok hlook, if_neg (by simp [hcurrent])]
      rfl

end Read

end ScriptLint
