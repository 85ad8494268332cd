import ScriptLint.Text.Split

/-!
# File paths

A path is a sequence of parts between slashes. Empty parts and parts that are a single point name
nothing of their own.
-/

namespace ScriptLint.Path

/-- The parts of a path that name something. -/
def parts (path : String) : List String :=
  ((Text.pieces '/' path.toList).filter fun part => part ≠ [] ∧ part ≠ ['.']).map String.ofList

/-- The name of the file that a path leads to. A path that ends in two points has none. -/
def fileName? (path : String) : Option String :=
  (parts path).getLast?.filter (· ≠ "..")

end ScriptLint.Path
