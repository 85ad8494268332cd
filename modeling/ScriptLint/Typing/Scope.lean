import ScriptLint.Ty

/-!
# Scopes

What is known of the declared names. There is one scope for a whole program: blocks, functions and
classes open none of their own. A name may be static without being declared, when its declaration
was refused.
-/

namespace ScriptLint

/-- The types of the declared names, the names of static variables, and the names that have been
given a value. -/
structure Scope where
  types : List (String × Ty)
  statics : List String
  assigned : List String
deriving DecidableEq, Repr

namespace Scope

/-- The scope in which nothing is known. -/
def empty : Scope :=
  ⟨[], [], []⟩

/-- The type of a declared name. -/
def typeOf? (scope : Scope) (name : String) : Option Ty :=
  scope.types.lookup name

/-- Whether a name is declared. -/
def isDeclared (scope : Scope) (name : String) : Bool :=
  (scope.typeOf? name).isSome

/-- Whether a name is that of a static variable. -/
def isStatic (scope : Scope) (name : String) : Bool :=
  scope.statics.contains name

/-- Whether a name has been given a value. -/
def isAssigned (scope : Scope) (name : String) : Bool :=
  scope.assigned.contains name

/-- Declares a name with a type, in place of any type it had. -/
def declare (scope : Scope) (name : String) (ty : Ty) : Scope :=
  { scope with types := (name, ty) :: scope.types.filter (·.1 != name) }

/-- Makes a name that of a static variable. -/
def addStatic (scope : Scope) (name : String) : Scope :=
  { scope with statics := scope.statics.insert name }

/-- Notes that a name has been given a value. -/
def markAssigned (scope : Scope) (name : String) : Scope :=
  { scope with assigned := scope.assigned.insert name }

@[simp] theorem isStatic_declare (scope : Scope) (name other : String) (ty : Ty) :
    (scope.declare name ty).isStatic other = scope.isStatic other := rfl

@[simp] theorem isAssigned_declare (scope : Scope) (name other : String) (ty : Ty) :
    (scope.declare name ty).isAssigned other = scope.isAssigned other := rfl

@[simp] theorem typeOf?_addStatic (scope : Scope) (name other : String) :
    (scope.addStatic name).typeOf? other = scope.typeOf? other := rfl

@[simp] theorem typeOf?_markAssigned (scope : Scope) (name other : String) :
    (scope.markAssigned name).typeOf? other = scope.typeOf? other := rfl

/-- A lookup among pairs is not changed by removing those of another name. -/
theorem lookup_filter_ne (types : List (String × Ty)) {name other : String} (h : other ≠ name) :
    (types.filter (·.1 != name)).lookup other = types.lookup other := by
  induction types with
  | nil => rfl
  | cons pair rest ih =>
      obtain ⟨found, ty⟩ := pair
      by_cases hname : found = name
      · have hother : (other == found) = false := by
          rw [beq_eq_false_iff_ne, hname]
          exact h
        rw [List.filter_cons_of_neg (by simp [hname]), List.lookup_cons, hother, ih]
      · rw [List.filter_cons_of_pos (by simpa using hname), List.lookup_cons, List.lookup_cons, ih]

/-- Declaring a name sets its type and no other. -/
theorem typeOf?_declare (scope : Scope) (name other : String) (ty : Ty) :
    (scope.declare name ty).typeOf? other =
      if other = name then some ty else scope.typeOf? other := by
  by_cases h : other = name
  · simp [typeOf?, declare, h]
  · rw [if_neg h, typeOf?, declare, List.lookup_cons, beq_eq_false_iff_ne.2 h]
    exact lookup_filter_ne scope.types h

end Scope

end ScriptLint
