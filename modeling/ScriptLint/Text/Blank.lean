/-!
# Blank characters

A blank is a character with the Unicode property White_Space: twenty-five code points in ten ranges.
Blanks separate tokens and are trimmed from the end of a quoted source line.
-/

namespace ScriptLint.Text

/-- The code points of the White_Space property, as closed ranges in increasing order. -/
def blankRanges : List (Nat × Nat) :=
  [(0x9, 0xD), (0x20, 0x20), (0x85, 0x85), (0xA0, 0xA0), (0x1680, 0x1680), (0x2000, 0x200A),
    (0x2028, 0x2029), (0x202F, 0x202F), (0x205F, 0x205F), (0x3000, 0x3000)]

/-- Whether a character has the White_Space property. -/
def isBlank (c : Char) : Bool :=
  blankRanges.any fun (low, high) => low ≤ c.toNat && c.toNat ≤ high

/-- The text without the blanks at its end. -/
def trimRight (text : List Char) : List Char :=
  (text.reverse.dropWhile isBlank).reverse

/-- The property holds of twenty-five code points. -/
example : (blankRanges.map fun (low, high) => high + 1 - low).sum = 25 := by decide

end ScriptLint.Text
