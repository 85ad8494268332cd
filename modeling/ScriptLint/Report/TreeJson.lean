import ScriptLint.Diagnostic
import ScriptLint.Report.Json
import ScriptLint.Tree.Stmt

/-!
# Programs and diagnostics as structured output

Every statement and every expression is an object that opens with its `type` and ends with its
`span`. Blocks, clauses, arms, properties and member names are objects without a `type`. What is
absent is `null`.
-/

namespace ScriptLint

/-- A span as structured output. -/
def Span.toJson (span : Span) : Json :=
  .object [("start", .natural span.start), ("end", .natural span.stop)]

/-- A diagnostic as structured output. -/
def Diagnostic.toJson (diagnostic : Diagnostic) : Json :=
  .object [
    ("span", diagnostic.span.toJson),
    ("message", .string diagnostic.message),
    ("severity", .string diagnostic.severity.name)]

/-- Diagnostics as structured output. -/
def Diagnostic.listToJson (diagnostics : List Diagnostic) : Json :=
  .array (diagnostics.map Diagnostic.toJson)

/-- The value of a literal as structured output. -/
def Literal.toJson : Literal → Json
  | .number value => .object [("kind", .string "Number"), ("value", .number value)]
  | .string value => .object [("kind", .string "String"), ("value", .string value)]
  | .bool value => .object [("kind", .string "Bool"), ("value", .bool value)]
  | .nil => .object [("kind", .string "Nil")]

/-- A name as structured output. -/
def Name.toJson (name : Name) : Json :=
  .object [("name", .string name.text), ("span", name.span.toJson)]

/-- An object that opens with a type and ends with a span. -/
def Json.node (type : String) (fields : List (String × Json)) (span : Span) : Json :=
  .object (("type", .string type) :: fields ++ [("span", span.toJson)])

namespace Expr

mutual

/-- An expression as structured output. -/
def toJson : Expr → Json
  | .literal value raw span =>
      .node "Literal" [("value", value.toJson), ("raw", .string raw)] span
  | .identifier name span => .node "Identifier" [("name", .string name)] span
  | .binary operator left right span =>
      .node "Binary"
        [("operator", .string operator), ("left", toJson left), ("right", toJson right)] span
  | .logical operator left right span =>
      .node "Logical"
        [("operator", .string operator), ("left", toJson left), ("right", toJson right)] span
  | .unary operator argument span =>
      .node "Unary" [("operator", .string operator), ("argument", toJson argument)] span
  | .assignment assignee value span =>
      .node "Assignment" [("assignee", toJson assignee), ("value", toJson value)] span
  | .call callee arguments span =>
      .node "Call" [("callee", toJson callee), ("arguments", .array (listToJson arguments))] span
  | .member owner property span =>
      .node "Member" [("object", toJson owner), ("property", property.toJson)] span
  | .array elements span => .node "Array" [("elements", .array (listToJson elements))] span
  | .object properties span =>
      .node "Object" [("properties", .array (propertiesToJson properties))] span

/-- Expressions as structured output. -/
def listToJson : List Expr → List Json
  | [] => []
  | expr :: rest => toJson expr :: listToJson rest

/-- Properties as structured output. -/
def propertiesToJson : List (Property Expr) → List Json
  | [] => []
  | property :: rest =>
      .object [
        ("key", .string property.key),
        ("value", toJson property.value),
        ("span", property.span.toJson)] :: propertiesToJson rest

end

/-- An expression that may be absent as structured output. -/
def optionToJson : Option Expr → Json
  | none => .null
  | some expr => expr.toJson

end Expr

/-- The declaration of a variable as structured output. -/
def VarDecl.toJson (decl : VarDecl) : Json :=
  .node "VariableDeclaration"
    [("identifier", .string decl.name),
      ("is_static", .bool decl.isStatic),
      ("explicit_type", (decl.declaredType.map fun ty => Json.string ty.name).getD .null),
      ("assigned_value", Expr.optionToJson decl.initializer)] decl.span

namespace Stmt

mutual

/-- A statement as structured output. -/
def toJson : Stmt → Json
  | .varDecl decl => decl.toJson
  | .ifElse test consequent alternate span =>
      .node "If"
        [("test", test.toJson), ("consequent", blockToJson consequent),
          ("alternate", optionToJson alternate)] span
  | .whileLoop test body span =>
      .node "While" [("test", test.toJson), ("body", blockToJson body)] span
  | .doWhile body test span =>
      .node "DoWhile" [("body", blockToJson body), ("test", test.toJson)] span
  | .forLoop init test update body span =>
      .node "For"
        [("init", optionToJson init), ("test", Expr.optionToJson test),
          ("update", Expr.optionToJson update), ("body", blockToJson body)] span
  | .functionDecl name parameters body span =>
      .node "FunctionDeclaration"
        [("identifier", .string name), ("parameters", .array (parameters.map Json.string)),
          ("body", blockToJson body)] span
  | .classDecl name body span =>
      .node "ClassDeclaration" [("name", .string name), ("body", blockToJson body)] span
  | .returnValue value span => .node "Return" [("value", Expr.optionToJson value)] span
  | .throwValue value span => .node "Throw" [("value", Expr.optionToJson value)] span
  | .breakLoop span => .node "Break" [] span
  | .continueLoop span => .node "Continue" [] span
  | .matchOn discriminant cases fallback span =>
      .node "Match"
        [("discriminant", discriminant.toJson), ("cases", .array (casesToJson cases)),
          ("default", optionToJson fallback)] span
  | .tryCatch body handler finalizer span =>
      .node "Try"
        [("block", blockToJson body), ("handler", handlerToJson handler),
          ("finalizer", finalizerToJson finalizer)] span
  | .retry count body handler span =>
      .node "Retry"
        [("count", count.toJson), ("body", blockToJson body),
          ("handler", handlerToJson handler)] span
  | .expression value span => .node "Expression" [("expression", value.toJson)] span
  | .block content =>
      .node "Block" [("body", .array (listToJson content.body))] content.span

/-- Statements as structured output. -/
def listToJson : List Stmt → List Json
  | [] => []
  | stmt :: rest => toJson stmt :: listToJson rest

/-- A statement that may be absent as structured output. -/
def optionToJson : Option Stmt → Json
  | none => .null
  | some stmt => toJson stmt

/-- A block as structured output. -/
def blockToJson : Block Stmt → Json
  | ⟨body, span⟩ => .object [("body", .array (listToJson body)), ("span", span.toJson)]

/-- The arms of a `match` as structured output. -/
def casesToJson : List (MatchCase Stmt) → List Json
  | [] => []
  | arm :: rest =>
      .object [
        ("test", arm.test.toJson),
        ("consequent", toJson arm.consequent),
        ("span", arm.span.toJson)] :: casesToJson rest

/-- A handler that may be absent as structured output. -/
def handlerToJson : Option (CatchClause Stmt) → Json
  | none => .null
  | some ⟨parameter, body, span⟩ =>
      .object [
        ("param", .string parameter), ("body", blockToJson body), ("span", span.toJson)]

/-- A closing part that may be absent as structured output. -/
def finalizerToJson : Option (FinallyClause Stmt) → Json
  | none => .null
  | some ⟨body, span⟩ => .object [("body", blockToJson body), ("span", span.toJson)]

end

end Stmt

/-- A program as structured output. -/
def Program.toJson (program : Program) : Json :=
  .object [
    ("statements", .array (Stmt.listToJson program.statements)),
    ("span", program.span.toJson)]

end ScriptLint
