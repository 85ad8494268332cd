import ScriptLint.Number.Double

/-!
# Shortest decimals

The decimal with the fewest digits that reads back as a given double. Of two such decimals with
equally many digits the nearer one is taken, and of two equally near the one with the even last
digit. Seventeen digits always suffice.
-/

namespace ScriptLint

/-- The decimal `digits * 10 ^ exponent`. -/
structure Decimal where
  digits : Nat
  exponent : Int
deriving DecidableEq, Repr

namespace Decimal

/-- The greatest `e` with `10 ^ e ≤ num / den`, for positive `num` and `den`. -/
def floorLog10 (num den : Nat) : Int :=
  if den ≤ num then ((Nat.toDigits 10 (num / den)).length - 1 : Nat)
  else -((Nat.toDigits 10 ((den + num - 1) / num - 1)).length : Int)

/-- The fraction `num / den` divided by `10 ^ exponent`, as a fraction. -/
def scale (num den : Nat) (exponent : Int) : Nat × Nat :=
  if 0 ≤ exponent then (num, den * Double.tenTo exponent.toNat)
  else (num * Double.tenTo (-exponent).toNat, den)

/-- The neighbour of `num / den` with `count` digits that reads back as `number`, if one does. -/
def withDigits? (number : Double) (num den : Nat) (count : Nat) : Option Decimal :=
  let exponent := floorLog10 num den - (count - 1 : Nat)
  let (top, bottom) := scale num den exponent
  let low := top / bottom
  let readsBack (digits : Nat) : Bool :=
    Double.ofDecimal number.isNegative digits exponent == number
  let nearer := Double.roundDiv top bottom
  if readsBack nearer then some ⟨nearer, exponent⟩
  else if readsBack low then some ⟨low, exponent⟩
  else if readsBack (low + 1) then some ⟨low + 1, exponent⟩
  else none

/-- The decimal without the zeros at the end of its digits; `bound` is at least their number. -/
def trimZeros : Nat → Decimal → Decimal
  | 0, decimal => decimal
  | bound + 1, ⟨digits, exponent⟩ =>
      if digits ≠ 0 ∧ digits % 10 = 0 then trimZeros bound ⟨digits / 10, exponent + 1⟩
      else ⟨digits, exponent⟩

/-- The shortest decimal of the magnitude of a finite double. -/
def shortest (number : Double) : Decimal :=
  if number.magnitude = 0 then ⟨0, 0⟩
  else
    let (num, den) := number.toRatio
    match (List.range 17).findSome? fun less => withDigits? number num den (less + 1) with
    | some decimal => trimZeros 17 decimal
    | none => ⟨0, 0⟩

end Decimal

end ScriptLint
