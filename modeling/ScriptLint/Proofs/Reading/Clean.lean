import ScriptLint.Proofs.Reading.Lists
import ScriptLint.Proofs.Reasoning.Outcome

/-!
# Readings without errors

A reading is clean if no error was recorded on it. Only a missing semicolon, a second default arm
and a recovery record an error; passing tokens, skipping over them and making an error fatal record
none.
-/

namespace ScriptLint

namespace Reading

/-- The reading has an end mark, and no error was recorded. -/
def Clean (reading : Reading) : Prop :=
  reading.Marked ∧ reading.errors = #[]

/-- Passing a token records nothing. -/
theorem next_errors (reading : Reading) : reading.next.errors = reading.errors := by
  unfold next
  split <;> rfl

/-- Skipping over tokens records nothing. -/
theorem resync_errors (context : Context) (start : Nat) (reading : Reading) :
    (reading.resync context start).errors = reading.errors := by
  have hskip : ∀ r : Reading, (r.skipAhead context).errors = r.errors := fun _ => rfl
  unfold resync
  split
  · split
    · exact reading.next_errors
    · exact (hskip _).trans reading.next_errors
  · exact hskip reading

end Reading

namespace Read

variable {α : Type} {reading later : Reading} {value : α}

/-- A step that would make its error fatal gives what it gives without that. -/
theorem fatally_ok_iff {step : Read α} :
    fatally step reading = .ok value later ↔ step reading = .ok value later := by
  unfold fatally
  cases step reading <;> simp

/-- The last step of a form puts the span into its value, and leaves the reading as it is. -/
theorem spanned_ok_iff {start : Nat} {f : Span → α} :
    (spanFrom start >>= fun span => pure (f span)) reading = .ok value later ↔
      value = f (reading.spanFrom start) ∧ later = reading := by
  rw [bind_of_ok (by rfl)]
  exact pure_ok_iff

end Read

end ScriptLint
