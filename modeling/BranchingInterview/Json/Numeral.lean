import BranchingInterview.Json.Basic
import BranchingInterview.Text.Digits

/-!
Numbers as JSON writes them. A whole number that fits 64 bits, with or without a sign, stays an
integer; every other one is read as a double.
-/

namespace BranchingInterview.Json

open Text

structure Numeral where
  negative : Bool
  whole : List Char
  fraction : Option (List Char)
  power : Option Int
deriving DecidableEq

namespace Numeral

/-- Appends digits while the result fits 64 bits, and returns the digits left over. -/
def absorb : Nat → List Char → Nat × List Char
  | value, [] => (value, [])
  | value, c :: rest =>
      let next := 10 * value + digitValue c
      if next < UInt64.size then absorb next rest else (value, c :: rest)

/-- The number named, or `none` if it is too large for a double. Digits past those that fit 64
bits count as zeros. -/
def number? (numeral : Numeral) : Option Number :=
  let (whole, spilled) := absorb 0 numeral.whole
  match numeral.fraction, numeral.power, spilled with
  | none, none, [] =>
      if !numeral.negative then some (.integer whole)
      else if 0 < whole ∧ 2 * whole ≤ UInt64.size then some (.integer (-whole))
      else (Double.ofDecimal true whole 0).map .double
  | fraction, power, spilled =>
      let fraction := fraction.getD []
      let (digits, cut) := absorb whole fraction
      let exponent : Int := spilled.length - (fraction.length - cut.length) + power.getD 0
      (Double.ofDecimal numeral.negative digits exponent).map .double

def readFraction : List Char → Option (Option (List Char) × List Char)
  | '.' :: rest =>
      let digits := rest.takeWhile Char.isDigit
      if digits.isEmpty then none else some (some digits, rest.dropWhile Char.isDigit)
  | rest => some (none, rest)

def readPowerDigits (negative : Bool) (chars : List Char) : Option (Option Int × List Char) :=
  let digits := chars.takeWhile Char.isDigit
  let size : Int := natOfDigits digits
  if digits.isEmpty then none
  else some (some (if negative then -size else size), chars.dropWhile Char.isDigit)

def readPowerSigned : List Char → Option (Option Int × List Char)
  | '+' :: rest => readPowerDigits false rest
  | '-' :: rest => readPowerDigits true rest
  | rest => readPowerDigits false rest

def readPower : List Char → Option (Option Int × List Char)
  | 'e' :: rest => readPowerSigned rest
  | 'E' :: rest => readPowerSigned rest
  | rest => some (none, rest)

/-- One zero, or digits that do not start with a zero. -/
def readWhole (chars : List Char) : Option (List Char × List Char) :=
  let digits := chars.takeWhile Char.isDigit
  match digits with
  | [] => none
  | '0' :: _ :: _ => none
  | digits => some (digits, chars.dropWhile Char.isDigit)

def readUnsigned (negative : Bool) (chars : List Char) : Option (Numeral × List Char) := do
  let (whole, rest) ← readWhole chars
  let (fraction, rest) ← readFraction rest
  let (power, rest) ← readPower rest
  return (⟨negative, whole, fraction, power⟩, rest)

/-- The longest numeral at the head of a text. -/
def read : List Char → Option (Numeral × List Char)
  | '-' :: rest => readUnsigned true rest
  | chars => readUnsigned false chars

end Numeral

end BranchingInterview.Json
