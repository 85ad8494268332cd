import ScriptLint.Number.Shortest
import ScriptLint.Text.Pad

/-!
# Structured output

A small tree of structured data and its text: fields in the order given, two spaces of indentation
for each level, and nothing between the brackets of an empty array or object.

A number is written with the fewest digits that read back. It is written plainly, with at least one
place, if its first digit stands between 10⁻⁵ and 10¹⁵, and with a signed exponent otherwise.
-/

namespace ScriptLint

/-- Structured data. -/
inductive Json where
  | null
  | bool (value : Bool)
  | natural (value : Nat)
  | number (value : Double)
  | string (value : String)
  | array (items : List Json)
  | object (fields : List (String × Json))

namespace Json

/-- The digit of a hexadecimal value below sixteen. -/
def hexDigit (value : Nat) : Char :=
  Nat.digitChar value

/-- A character as it is written inside a string. Quotes, backslashes and control characters are
escaped. -/
def escapeChar (c : Char) : List Char :=
  match c with
  | '\x22' => ['\\', '\x22']
  | '\\' => ['\\', '\\']
  | '\x08' => ['\\', 'b']
  | '\t' => ['\\', 't']
  | '\n' => ['\\', 'n']
  | '\x0c' => ['\\', 'f']
  | '\r' => ['\\', 'r']
  | c =>
      if c.toNat < 0x20 then
        ['\\', 'u', '0', '0', hexDigit (c.toNat / 16), hexDigit (c.toNat % 16)]
      else [c]

/-- A string between quotes. -/
def quote (text : String) : String :=
  "\"" ++ String.ofList (text.toList.flatMap escapeChar) ++ "\""

/-- The range of decimal exponents of the first digit in which numbers are written plainly. -/
def plainExponents : Int × Int :=
  (-5, 15)

/-- `count` zeros. -/
def zeros (count : Nat) : List Char :=
  List.replicate count '0'

/-- Digits with a point behind the digit of value `10 ^ exponent`, filled up with zeros so that
there is a digit on either side. `lead` is the exponent of the first digit. -/
def plain (digits : List Char) (lead : Int) : List Char :=
  if lead < 0 then '0' :: '.' :: (zeros (-lead - 1).toNat ++ digits)
  else
    let whole := lead.toNat + 1
    let padded := digits ++ zeros (whole + 1 - digits.length)
    padded.take whole ++ '.' :: padded.drop whole

/-- Digits with a point behind the first and an exponent, whose sign is always written. -/
def scientific (digits : List Char) (lead : Int) : List Char :=
  let places := digits.drop 1
  digits.take 1 ++ (if places.isEmpty then [] else '.' :: places) ++
    'e' :: (if lead < 0 then '-' else '+') :: Nat.toDigits 10 lead.natAbs

/-- A decimal in the notation that its size asks for. -/
def decimal (value : Decimal) : List Char :=
  let digits := Nat.toDigits 10 value.digits
  let lead := value.exponent + (digits.length - 1 : Nat)
  if plainExponents.1 ≤ lead ∧ lead ≤ plainExponents.2 then plain digits lead
  else scientific digits lead

/-- The text of a number; `null` stands for what is not finite. -/
def numberText (value : Double) : String :=
  if value.isFinite then
    (if value.isNegative then "-" else "") ++ String.ofList (decimal (.shortest value))
  else "null"

/-- Items between brackets, each on a line of its own. -/
def bracketed (opening closing : String) (depth : Nat) (items : List String) : String :=
  if items.isEmpty then opening ++ closing
  else
    opening ++ "\n" ++
      String.intercalate ",\n" (items.map (Text.spaces (2 * (depth + 1)) ++ ·)) ++
      "\n" ++ Text.spaces (2 * depth) ++ closing

mutual

/-- The text of structured data at a given depth. -/
def render (depth : Nat) : Json → String
  | .null => "null"
  | .bool value => if value then "true" else "false"
  | .natural value => toString value
  | .number value => numberText value
  | .string value => quote value
  | .array items => bracketed "[" "]" depth (renderItems (depth + 1) items)
  | .object fields => bracketed "\x7b" "\x7d" depth (renderFields (depth + 1) fields)

/-- The texts of the items of an array. -/
def renderItems (depth : Nat) : List Json → List String
  | [] => []
  | item :: rest => render depth item :: renderItems depth rest

/-- The texts of the fields of an object. -/
def renderFields (depth : Nat) : List (String × Json) → List String
  | [] => []
  | (key, value) :: rest => (quote key ++ ": " ++ render depth value) :: renderFields depth rest

end

/-- The text of structured data. -/
def text (json : Json) : String :=
  render 0 json

end Json

end ScriptLint
