/-!
# Binary64 numbers

A double is held as its bits. `Double.ofRatio` gives the double nearest to a fraction, an exact half
going to the neighbour with an even last bit, and infinity beyond the largest one.
-/

namespace ScriptLint

/-- A binary64 number: one sign bit, eleven exponent bits and fifty-two fraction bits. -/
structure Double where
  bits : UInt64
deriving DecidableEq, Repr

namespace Double

/-- A power of two. -/
abbrev twoTo (exponent : Nat) : Nat :=
  Nat.pow 2 exponent

/-- A power of ten. -/
abbrev tenTo (exponent : Nat) : Nat :=
  Nat.pow 10 exponent

/-- The bits of positive infinity, the first that are not those of a finite magnitude. -/
def infinityBits : Nat :=
  0x7FF * twoTo 52

/-- The bits of a number that is not one. -/
def nanBits : Nat :=
  infinityBits + twoTo 51

/-- A double from its sign and the bits of its magnitude. -/
def ofMagnitude (negative : Bool) (magnitude : Nat) : Double :=
  ⟨UInt64.ofNat ((if negative then twoTo 63 else 0) + magnitude)⟩

/-- The bits without the sign. -/
def magnitude (number : Double) : Nat :=
  number.bits.toNat % twoTo 63

/-- Whether the sign bit is set. -/
def isNegative (number : Double) : Bool :=
  twoTo 63 ≤ number.bits.toNat

/-- Whether a double is neither infinite nor undefined. -/
def isFinite (number : Double) : Bool :=
  number.magnitude < infinityBits

/-- The natural number nearest to `num / den`; an exact half goes to the even neighbour. -/
def roundDiv (num den : Nat) : Nat :=
  let quotient := num / den
  let remainder := num % den
  if 2 * remainder < den then quotient
  else if den < 2 * remainder then quotient + 1
  else quotient + quotient % 2

/-- The greatest `e` with `2 ^ e ≤ num / den`, for positive `num` and `den`. -/
def floorLog2 (num den : Nat) : Int :=
  let up := num.log2
  let down := den.log2
  if down ≤ up then
    if den * twoTo (up - down) ≤ num then (up - down : Nat) else (up - down : Nat) - 1
  else
    if den ≤ num * twoTo (down - up) then -((down - up : Nat) : Int)
    else -((down - up : Nat) : Int) - 1

/-- The least exponent of the last fraction bit of a double. -/
def leastExponent : Int :=
  -1074

/-- The magnitude bits of the double nearest to the positive fraction `num / den`. Rounding the
fraction up to the next power of two carries into the exponent bits by itself. -/
def roundRatio (num den : Nat) : Nat :=
  let exponent := max (floorLog2 num den - 52) leastExponent
  let fraction :=
    if 0 ≤ exponent then roundDiv num (den * twoTo exponent.toNat)
    else roundDiv (num * twoTo (-exponent).toNat) den
  min infinityBits ((exponent - leastExponent).toNat * twoTo 52 + fraction)

/-- The double nearest to `± num / den`. -/
def ofRatio (negative : Bool) (num den : Nat) : Double :=
  ofMagnitude negative (if num = 0 then 0 else roundRatio num den)

/-- The double nearest to `± digits * 10 ^ exponent`. Exponents far outside the range of doubles are
answered without computing the power. -/
def ofDecimal (negative : Bool) (digits : Nat) (exponent : Int) : Double :=
  if digits = 0 then ofMagnitude negative 0
  else if 400 < exponent then ofMagnitude negative infinityBits
  else if exponent + (digits.log2 + 1 : Nat) < -400 then ofMagnitude negative 0
  else if 0 ≤ exponent then ofRatio negative (digits * tenTo exponent.toNat) 1
  else ofRatio negative digits (tenTo (-exponent).toNat)

/-- The magnitude of a finite double as a fraction. -/
def toRatio (number : Double) : Nat × Nat :=
  let biased := number.magnitude / twoTo 52
  let stored := number.magnitude % twoTo 52
  let fraction := if biased = 0 then stored else stored + twoTo 52
  let exponent : Int := leastExponent + (max biased 1 - 1 : Nat)
  if 0 ≤ exponent then (fraction * twoTo exponent.toNat, 1)
  else (fraction, twoTo (-exponent).toNat)

end Double

end ScriptLint
