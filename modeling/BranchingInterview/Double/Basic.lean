/-!
Finite binary numbers of double precision in exact arithmetic: rounding of a ratio to the nearest
one, and the value of a decimal, which is rounded once for its digits and once for its power of
ten.
-/

namespace BranchingInterview

/-- The number `significand * 2 ^ exponent` with a sign. The significand has at most 53 bits, and
fewer only where the exponent is `-1074`. -/
structure Double where
  negative : Bool
  significand : Nat
  exponent : Int
deriving DecidableEq, Repr

namespace Double

def leastNormal : Nat := 0x10000000000000

def minExponent : Int := -1074

def maxExponent : Int := 971

def zero : Double := ⟨false, 0, minExponent⟩

def isZero (value : Double) : Bool := value.significand == 0

def setSign (value : Double) (negative : Bool) : Double := { value with negative }

/-- The ratio of `numerator` and `denominator * 2 ^ exponent`, as a pair. -/
def scaleRatio (numerator denominator : Nat) (exponent : Int) : Nat × Nat :=
  if 0 ≤ exponent then (numerator, denominator * Nat.pow 2 exponent.toNat)
  else (numerator * Nat.pow 2 (-exponent).toNat, denominator)

/-- The nearest integer to a ratio, the even one of two. -/
def roundHalfEven (numerator denominator : Nat) : Nat :=
  let quotient := numerator / denominator
  let twice := 2 * (numerator % denominator)
  if twice < denominator then quotient
  else if denominator < twice then quotient + 1
  else quotient + quotient % 2

/-- The exponent at which the integral part of a ratio has 53 bits, or the least one. -/
def ratioExponent (numerator denominator : Nat) : Int :=
  let guess : Int := (numerator.log2 : Int) - denominator.log2 - 53
  let scaled := scaleRatio numerator denominator guess
  max minExponent (if 2 * leastNormal ≤ scaled.1 / scaled.2 then guess + 1 else guess)

/-- The nearest double to a ratio, or `none` beyond the largest one. -/
def ofRatio (numerator denominator : Nat) : Option Double :=
  if numerator = 0 then some zero
  else
    let exponent := ratioExponent numerator denominator
    let scaled := scaleRatio numerator denominator exponent
    let rounded := roundHalfEven scaled.1 scaled.2
    let result : Double :=
      if rounded = 2 * leastNormal then ⟨false, leastNormal, exponent + 1⟩
      else ⟨false, rounded, exponent⟩
    if result.exponent ≤ maxExponent then some result else none

def mul (left right : Double) : Option Double :=
  let scaled := scaleRatio (left.significand * right.significand) 1
    (-(left.exponent + right.exponent))
  (ofRatio scaled.1 scaled.2).map (·.setSign (left.negative != right.negative))

def div (left right : Double) : Option Double :=
  let scaled := scaleRatio left.significand right.significand (right.exponent - left.exponent)
  (ofRatio scaled.1 scaled.2).map (·.setSign (left.negative != right.negative))

def maxPower : Nat := 308

/-- A power of ten up to `maxPower`, rounded. -/
def powerOfTen (power : Nat) : Double :=
  (ofRatio (Nat.pow 10 power) 1).getD zero

/-- Division by a power of ten in steps of at most `maxPower`, each of them rounded. -/
def divPowerOfTen (value : Double) (power : Nat) : Double :=
  if value.isZero then value
  else if power ≤ maxPower then (value.div (powerOfTen power)).getD zero
  else divPowerOfTen ((value.div (powerOfTen maxPower)).getD zero) (power - maxPower)
termination_by power
decreasing_by simp only [maxPower] at *; omega

/-- The double read for `digits * 10 ^ exponent`: the digits are rounded, then scaled. `none` is a
number too large. -/
def ofDecimal (negative : Bool) (digits : Nat) (exponent : Int) : Option Double := do
  let value ← ofRatio digits 1
  let scaled ←
    if value.isZero then some value
    else if exponent < 0 then some (value.divPowerOfTen (-exponent).toNat)
    else if exponent.toNat ≤ maxPower then value.mul (powerOfTen exponent.toNat)
    else none
  return scaled.setSign negative

end Double

end BranchingInterview
