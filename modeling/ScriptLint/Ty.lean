/-!
# Types

The types of the language. Seven of them can be written as annotations; `nil` is only ever the type
of a value.
-/

namespace ScriptLint

/-- The types of the language. -/
inductive Ty where
  | int
  | float
  | string
  | bool
  | array
  | object
  | any
  | nil
deriving DecidableEq, Repr

namespace Ty

/-- The name of a type. -/
def name : Ty → String
  | .int => "int"
  | .float => "float"
  | .string => "string"
  | .bool => "bool"
  | .array => "array"
  | .object => "object"
  | .any => "any"
  | .nil => "nil"

/-- The type that an annotation names. -/
def ofAnnotation? : String → Option Ty
  | "int" => some .int
  | "float" => some .float
  | "string" => some .string
  | "bool" => some .bool
  | "array" => some .array
  | "object" => some .object
  | "any" => some .any
  | _ => none

/-- Whether a value of type `actual` may be written to a variable of type `declared`. -/
def accepts (declared actual : Ty) : Bool :=
  declared == actual || declared == .any || actual == .any || actual == .nil ||
    (declared == .float && actual == .int)

/-- An annotation never names `nil`. -/
theorem ofAnnotation?_ne_nil (text : String) : ofAnnotation? text ≠ some .nil := by
  unfold ofAnnotation?
  split <;> simp

end Ty

end ScriptLint
