import ScriptLint.Proofs.Phrase.Spans
import ScriptLint.Proofs.Reasoning.Forward

/-!
# Readings over tokens in order

A reading goes over tokens that are in order, and has an end mark behind them. What has been read
ends before what is ahead begins, and the end of the token read last only moves forward.
-/

namespace ScriptLint.Reading

variable {tokens passed : List Token} {reading later : Reading} {token : Token}

/-- The reading goes over the tokens, which stand in order, with an end mark behind them. -/
structure Over (tokens : List Token) (reading : Reading) : Prop where
  tokens_eq : reading.behind.reverse ++ reading.ahead = tokens
  marked : reading.Marked
  inOrder : Token.InOrder tokens

namespace Over

/-- What has been read is among the tokens. -/
theorem mem_of_behind (h : reading.Over tokens) (hmem : token ∈ reading.behind) :
    token ∈ tokens := by
  rw [← h.tokens_eq]
  exact List.mem_append_left _ (List.mem_reverse.2 hmem)

/-- What is ahead is among the tokens. -/
theorem mem_of_ahead (h : reading.Over tokens) (hmem : token ∈ reading.ahead) :
    token ∈ tokens := by
  rw [← h.tokens_eq]
  exact List.mem_append_right _ hmem

/-- The current token is ahead, unless it is the end mark. -/
theorem current_mem (h : reading.Over tokens) (hahead : reading.ahead ≠ []) :
    reading.current ∈ tokens := by
  refine h.mem_of_ahead ?_
  cases hcase : reading.ahead with
  | nil => exact absurd hcase hahead
  | cons first rest => simp [current, hcase]

/-- Further on the reading goes over the same tokens. -/
theorem reaches (h : reading.Over tokens) (hreaches : reading.Reaches later) :
    later.Over tokens := by
  obtain ⟨passed, hahead, hbehind⟩ := hreaches.tokens
  refine ⟨?_, hreaches.marked h.marked, h.inOrder⟩
  rw [← h.tokens_eq, hbehind, hahead]
  simp

/-- The tokens that are passed are among the tokens. -/
theorem subset_of_passes (h : reading.Over tokens) (hpasses : reading.Passes passed later) :
    passed ⊆ tokens := by
  intro token hmem
  refine h.mem_of_ahead ?_
  rw [hpasses.ahead]
  exact List.mem_append_left _ hmem

/-- The tokens that are passed are in order. -/
theorem inOrder_of_passes (h : reading.Over tokens) (hpasses : reading.Passes passed later) :
    Token.InOrder passed := by
  have hinorder := h.inOrder
  rw [← h.tokens_eq, hpasses.ahead] at hinorder
  exact hinorder.of_append_right.of_append_left

/-- A token that has been read ends no further than the one read last. -/
theorem stop_le_previousEnd (h : reading.Over tokens) (hmem : token ∈ reading.behind) :
    token.span.stop ≤ reading.previousEnd := by
  cases hbehind : reading.behind with
  | nil => simp [hbehind] at hmem
  | cons last rest =>
      have hinorder := h.inOrder
      rw [← h.tokens_eq] at hinorder
      have hlast : reading.behind.reverse.getLast? = some last := by simp [hbehind]
      have hle := hinorder.of_append_left.le_last hlast (List.mem_reverse.2 hmem)
      simpa [previousEnd, hbehind] using hle

/-- A token ahead begins behind the token read last. -/
theorem previousEnd_le_start (h : reading.Over tokens) (hmem : token ∈ reading.ahead) :
    reading.previousEnd ≤ token.span.start := by
  have hinorder := h.inOrder
  rw [← h.tokens_eq] at hinorder
  unfold previousEnd
  split
  · exact Nat.zero_le _
  next last rest hbehind => exact hinorder.le (by simp [hbehind]) hmem

/-- The end of the token read last moves forward. -/
theorem previousEnd_le (h : reading.Over tokens) (hreaches : reading.Reaches later) :
    reading.previousEnd ≤ later.previousEnd := by
  obtain ⟨passed, -, hbehind⟩ := hreaches.tokens
  have hlater := h.reaches hreaches
  cases hcase : reading.behind with
  | nil => simp [previousEnd, hcase]
  | cons last rest =>
      have hmem : last ∈ later.behind := by simp [hbehind, hcase]
      simpa [previousEnd, hcase] using hlater.stop_le_previousEnd hmem

end Over

end ScriptLint.Reading
