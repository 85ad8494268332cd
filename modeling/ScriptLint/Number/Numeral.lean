import ScriptLint.Number.Double

/-!
# Numerals

A numeral is an optional sign followed by digits with an optional point and an optional decimal
exponent, or by one of the words for infinity and for no number. `Numeral.toDouble?` reads one.
-/

namespace ScriptLint.Numeral

/-- The number that decimal digits spell. -/
def ofDigits (digits : List Char) : Nat :=
  digits.foldl (fun value c => 10 * value + (c.toNat - '0'.toNat)) 0

/-- Whether a text is at least one digit and nothing else. -/
def isDigits (text : List Char) : Bool :=
  !text.isEmpty && text.all Char.isDigit

/-- Splits off a sign; the first part says whether it is a minus. -/
def sign : List Char → Bool × List Char
  | '-' :: rest => (true, rest)
  | '+' :: rest => (false, rest)
  | text => (false, text)

/-- The exponent written behind the digits; an absent one is zero. -/
def exponent? : List Char → Option Int
  | [] => some 0
  | c :: rest =>
      let (negative, digits) := sign rest
      if (c = 'e' ∨ c = 'E') ∧ isDigits digits then
        some (if negative then -(ofDigits digits : Int) else ofDigits digits)
      else none

/-- The digits of a numeral behind its point, and what follows them. -/
def fraction : List Char → List Char × List Char
  | '.' :: rest => (rest.takeWhile Char.isDigit, rest.dropWhile Char.isDigit)
  | text => ([], text)

/-- Reads a numeral without its sign. -/
def unsigned? (negative : Bool) (text : List Char) : Option Double :=
  let word := text.map Char.toLower
  if word = "inf".toList ∨ word = "infinity".toList then
    some (.ofMagnitude negative Double.infinityBits)
  else if word = "nan".toList then some (.ofMagnitude negative Double.nanBits)
  else
    let whole := text.takeWhile Char.isDigit
    let (places, rest) := fraction (text.dropWhile Char.isDigit)
    if whole.isEmpty && places.isEmpty then none
    else
      (exponent? rest).map fun exponent =>
        .ofDecimal negative (ofDigits (whole ++ places)) (exponent - places.length)

/-- The double nearest to the number that a text spells, if it spells one. -/
def toDouble? (text : List Char) : Option Double :=
  let (negative, rest) := sign text
  unsigned? negative rest

end ScriptLint.Numeral
