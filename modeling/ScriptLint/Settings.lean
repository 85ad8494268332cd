/-!
# Settings

The two choices a caller has: how deeply phrases may be nested, and whether a minus sign directly
before a digit belongs to the number.
-/

namespace ScriptLint

/-- How a source is read. -/
structure Settings where
  /-- The number of nested phrases that are read before the reading is given up. -/
  maxDepth : Nat := 200
  /-- Whether `-` directly before a digit is part of the number. -/
  foldNegative : Bool := true
deriving DecidableEq, Repr

end ScriptLint
