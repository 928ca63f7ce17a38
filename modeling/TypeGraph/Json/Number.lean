/-!
# Numbers in JSON texts

A number is read from its digits. Written without fraction and exponent, and small enough for 64
bits, it is a whole number. Otherwise it is a double: as many leading digits as fit into 64 bits
are taken, the other digits only count for the scale, and the result is scaled by one
multiplication or division with a power of ten. So the result may differ from the nearest double
in the last place. A number beyond the range of doubles is refused.
-/

namespace TypeGraph.Json

/-- A number as it is written. Digits are given by their values. -/
structure Literal where
  negative : Bool
  whole : List Nat
  /-- The digits behind the point. -/
  fraction : Option (List Nat)
  /-- Whether the exponent is negative, and its digits. -/
  exponent : Option (Bool × List Nat)
  deriving DecidableEq, Repr

/-- The value of a number. -/
inductive Number where
  | whole (value : Int)
  | decimal (value : Float)

/-- The greatest significand. -/
def maxSignificand : Nat := UInt64.size - 1

/-- The greatest exponent that is read in full. -/
def maxExponent : Nat := Int32.maxValue.toInt.toNat

/-- Append digits to a number as long as it does not pass the limit. The digits that are left over
are returned too. -/
def absorb (limit : Nat) : Nat → List Nat → Nat × List Nat
  | value, [] => (value, [])
  | value, digit :: digits =>
    if value * 10 + digit ≤ limit then absorb limit (value * 10 + digit) digits
    else (value, digit :: digits)

/-- A power of ten as a double. -/
def powerOfTen (n : Nat) : Float := Float.ofScientific 1 false n

/-- The greatest power of ten that is a double. -/
def maxPower : Nat := 308

/-- Divide by a power of ten, in several steps if need be. -/
def scaleDown (value : Float) (power : Nat) : Float :=
  if power ≤ maxPower then value / powerOfTen power
  else if value == 0 then value
  else scaleDown (value / powerOfTen maxPower) (power - maxPower)
termination_by power
decreasing_by
  simp only [maxPower] at *
  omega

/-- Multiply a significand by a power of ten. -/
def scale? (significand : Nat) (exponent : Int) : Option Float :=
  let value := Float.ofNat significand
  match exponent with
  | .negSucc n => some (scaleDown value (n + 1))
  | .ofNat n =>
    if n ≤ maxPower then
      let scaled := value * powerOfTen n
      if scaled.isInf then none else some scaled
    else if value == 0 then some value else none

namespace Literal

/-- The absolute value as a double. -/
def magnitude? (literal : Literal) : Option Float :=
  let (significand, dropped) := absorb maxSignificand 0 literal.whole
  let fraction := literal.fraction.getD []
  let (significand, ignored) := absorb maxSignificand significand fraction
  let start : Int := dropped.length - (fraction.length - ignored.length : Nat)
  match literal.exponent with
  | none => scale? significand start
  | some (negative, digits) =>
    let (exponent, rest) := absorb maxExponent 0 digits
    if rest.isEmpty then
      scale? significand (if negative then start - exponent else start + exponent)
    else if significand != 0 && !negative then none
    else some 0

/-- The value as a double. -/
def double? (literal : Literal) : Option Float :=
  literal.magnitude?.map fun value => if literal.negative then -value else value

/-- The value as a whole number of 64 bits. Negative zero is not a whole number. -/
def integer? (literal : Literal) : Option Int :=
  match literal.fraction, literal.exponent, absorb maxSignificand 0 literal.whole with
  | none, none, (value, []) =>
    if literal.negative then
      if 0 < value ∧ value ≤ Int64.minValue.toInt.natAbs then some (-value) else none
    else some value
  | _, _, _ => none

/-- The value of a literal. -/
def value? (literal : Literal) : Option Number :=
  match literal.integer? with
  | some value => some (.whole value)
  | none => literal.double?.map Number.decimal

end Literal

end TypeGraph.Json
