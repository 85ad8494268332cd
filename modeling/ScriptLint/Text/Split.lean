/-!
# Splitting texts

A text falls into pieces at a separating character, such as the lines of a text at its line feeds or
the parts of a path at its slashes. There is always one more piece than there are separators.
-/

namespace ScriptLint.Text

/-- The pieces of a text between the occurrences of a separator. -/
def pieces (separator : Char) : List Char → List (List Char)
  | [] => [[]]
  | c :: rest =>
      if c = separator then [] :: pieces separator rest
      else
        match pieces separator rest with
        | [] => [[c]]
        | piece :: later => (c :: piece) :: later

/-- A text has at least one piece. -/
theorem pieces_ne_nil (separator : Char) (text : List Char) : pieces separator text ≠ [] := by
  cases text with
  | nil => simp [pieces]
  | cons c rest =>
      rw [pieces]
      split
      · simp
      · split <;> simp

/-- There is one more piece than there are separators. -/
theorem length_pieces (separator : Char) (text : List Char) :
    (pieces separator text).length = text.count separator + 1 := by
  induction text with
  | nil => rfl
  | cons c rest ih =>
      rw [pieces]
      split
      next h => simp [h, ih]
      next h =>
        have hne : (c == separator) = false := by simpa using h
        split
        next hnil => exact absurd hnil (pieces_ne_nil separator rest)
        next piece later hcons =>
          rw [hcons] at ih
          simpa [List.count_cons, hne] using ih

end ScriptLint.Text
