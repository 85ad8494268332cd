import ScriptLint.Grammar.Context
import ScriptLint.Number.Numeral
import ScriptLint.Tree.Expr

/-!
# Reading expressions

`Expr.read` reads the longest expression whose operators bind tighter than a given power. Each form
is a step of its own, given the step `inner` that reads the expressions inside it; `Expr.read` ties
them together by recursion on the levels that may still be opened. A level is held while an operand
or an element is read, and each operator of a chain holds one for the rest of the chain.
-/

namespace ScriptLint

namespace Expr

/-- Reads a literal or a name. -/
def readPrimary (context : Context) : Read Expr := do
  let token ← Read.current
  let literal (value : Literal) : Read Expr := do
    let _ ← Read.advance
    return .literal value (context.sourceText token.span) token.span
  match token.kind with
  | .identifier =>
      let _ ← Read.advance
      return .identifier token.value token.span
  | .number =>
      match Numeral.toDouble? token.value.toList with
      | some value => literal (.number value)
      | none => Read.unexpectedDetailed "invalid number literal"
  | .string => literal (.string token.value)
  | .keyword =>
      if token.value = "true" then literal (.bool true)
      else if token.value = "false" then literal (.bool false)
      else if token.value = "nil" then literal .nil
      else Read.unexpected
  | .eof | .operator | .symbol => Read.unexpected

/-- Reads an operator and the operand behind it. -/
def readUnary (inner : Power → Read Expr) : Read Expr := do
  let operator ← Read.advance
  let argument ← inner .unary
  return .unary operator.value argument (operator.span.hull argument.span)

/-- Reads an expression in parentheses, which leave no trace in the tree. -/
def readGrouping (inner : Power → Read Expr) : Read Expr := do
  let _ ← Read.advance
  let content ← inner .default
  let _ ← Read.expect ")"
  return content

/-- Reads the elements of an array between brackets. -/
def readArray (inner : Power → Read Expr) : Read Expr := do
  let opening ← Read.advance
  let elements ← Read.separated (Read.atClose "]") (inner .default)
  let _ ← Read.expect "]"
  return .array elements (← Read.spanFrom opening.span.start)

/-- Reads a key, a colon and a value. -/
def readProperty (inner : Power → Read Expr) : Read (Property Expr) := do
  let token ← Read.current
  if token.kind = .identifier ∨ token.kind = .string then
    let key ← Read.advance
    let _ ← Read.expect ":"
    let value ← inner .default
    return ⟨key.value, value, ⟨key.span.start, value.span.stop⟩⟩
  else Read.unexpectedDetailed "expected property key"

/-- Reads the properties of an object between braces. -/
def readObject (inner : Power → Read Expr) : Read Expr := do
  let opening ← Read.advance
  let properties ← Read.separated (Read.atClose "\x7d") (readProperty inner)
  let _ ← Read.expect "\x7d"
  return .object properties (← Read.spanFrom opening.span.start)

/-- Reads an expression of a given lead form. -/
def readLead (context : Context) (inner : Power → Read Expr) : LeadForm → Read Expr
  | .primary => readPrimary context
  | .unary => readUnary inner
  | .grouping => readGrouping inner
  | .array => readArray inner
  | .object => readObject inner

/-- Reads an assignment to `left`. The value reaches as far as an expression can. -/
def readAssignment (inner : Power → Read Expr) (left : Expr) : Read Expr := do
  if left.isAssignable then
    let _ ← Read.advance
    let value ← inner .default
    return .assignment left value (left.span.hull value.span)
  else throw (.ofCause .invalidAssignmentTarget left.span)

/-- Reads `and` or `or` and the operand behind it. -/
def readLogical (inner : Power → Read Expr) (left : Expr) (power : Power) : Read Expr := do
  let operator ← Read.advance
  let right ← inner power
  return .logical operator.value left right (left.span.hull right.span)

/-- Reads an operator and the operand behind it. -/
def readBinary (inner : Power → Read Expr) (left : Expr) (power : Power) : Read Expr := do
  let operator ← Read.advance
  let right ← inner power
  return .binary operator.value left right (left.span.hull right.span)

/-- Reads the arguments of a call between parentheses. -/
def readCall (inner : Power → Read Expr) (left : Expr) : Read Expr := do
  let _ ← Read.advance
  let arguments ← Read.separated (Read.atClose ")") (inner .default)
  let _ ← Read.expect ")"
  return .call left arguments (← Read.spanFrom left.span.start)

/-- Reads a point and the name of a member, which may be a keyword. -/
def readMember (left : Expr) : Read Expr := do
  let _ ← Read.advance
  let token ← Read.current
  if token.kind = .identifier ∨ token.kind = .keyword then
    let property ← Read.advance
    return .member left ⟨property.value, property.span⟩ (left.span.hull property.span)
  else Read.unexpectedDetailed "expected property name after `.`"

/-- Reads what follows `left` in a given tail form, whose operator has the binding power `power`. -/
def readTail (inner : Power → Read Expr) (left : Expr) (power : Power) : TailForm → Read Expr
  | .assignment => readAssignment inner left
  | .logical => readLogical inner left power
  | .binary => readBinary inner left power
  | .call => readCall inner left
  | .member => readMember left

/-- The tail form of the current token and its binding power, if it binds tighter than `power`. -/
def tighterTail? (context : Context) (power : Power) (token : Token) :
    Option (Power × TailForm) :=
  (context.grammar.tail? token).filter fun (next, _) => power.rank < next.rank

mutual

/-- Reads the longest expression whose operators bind tighter than `power`. -/
def read (context : Context) (levels : Nat) (power : Power) : Read Expr :=
  match levels with
  | 0 => Read.tooDeep context
  | levels + 1 => do
      match context.grammar.lead? (← Read.current) with
      | none => Read.unexpected
      | some form =>
          let left ← readLead context (read context levels) form
          readChain context levels power left

/-- Reads the operators behind `left` that bind tighter than `power`, with their operands. -/
def readChain (context : Context) (levels : Nat) (power : Power) (left : Expr) : Read Expr := do
  match tighterTail? context power (← Read.current) with
  | none => return left
  | some (next, form) =>
      match levels with
      | 0 => Read.tooDeep context
      | levels + 1 =>
          let joined ← readTail (read context levels) left next form
          readChain context levels power joined

end

end Expr

end ScriptLint
