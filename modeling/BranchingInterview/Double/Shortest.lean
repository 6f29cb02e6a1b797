import BranchingInterview.Double.Basic

/-!
The text of a double: the fewest decimal digits that lie nearer to it than to any other double,
written positionally for the decimal exponents from -5 to 15 and with an exponent outside them.
-/

namespace BranchingInterview.Double

/-- Compares `left.1 / left.2` with `right.1 / right.2`. -/
def ratioLe (left right : Nat × Nat) : Bool :=
  left.1 * right.2 ≤ right.1 * left.2

/-- The ratio of a count of quarters of the last place of a double. -/
def quarters (count : Nat) (exponent : Int) : Nat × Nat :=
  scaleRatio count 4 (-exponent)

/-- The decimal exponent of a ratio: the `x` with `10 ^ x ≤ value < 10 ^ (x + 1)`. -/
def decimalExponent (value : Nat × Nat) : Int :=
  if value.2 ≤ value.1 then ((Nat.toDigits 10 (value.1 / value.2)).length : Int) - 1
  else -((Nat.toDigits 10 ((value.2 - 1) / value.1)).length : Int)

def decimalRatio (digits : Nat) (exponent : Int) : Nat × Nat :=
  if 0 ≤ exponent then (digits * Nat.pow 10 exponent.toNat, 1)
  else (digits, Nat.pow 10 (-exponent).toNat)

/-- Whether a decimal reads back as the double `significand * 2 ^ exponent`. -/
def readsBack (significand : Nat) (exponent : Int) (decimal : Nat × Nat) : Bool :=
  let narrow := significand == leastNormal && exponent != minExponent
  let low := quarters (4 * significand - if narrow then 1 else 2) exponent
  let high := quarters (4 * significand + 2) exponent
  if significand % 2 = 0 then ratioLe low decimal && ratioLe decimal high
  else !ratioLe decimal low && !ratioLe high decimal

/-- Of the two neighbours of a double on the grid of `10 ^ exponent` the one that reads back, or
the nearer one if both do, the even one of two as near. -/
def nearestOnGrid (significand : Nat) (binary : Int) (exponent : Int) : Option Nat :=
  let value := quarters (4 * significand) binary
  let scaled := decimalRatio 1 (-exponent)
  let below := (value.1 * scaled.1) / (value.2 * scaled.2)
  let nearer := roundHalfEven (value.1 * scaled.1) (value.2 * scaled.2)
  let lowReads := readsBack significand binary (decimalRatio below exponent)
  let highReads := readsBack significand binary (decimalRatio (below + 1) exponent)
  match lowReads, highReads with
  | true, false => some below
  | false, true => some (below + 1)
  | true, true => some nearer
  | false, false => none

/-- Tries grids from the given one downward, each ten times finer than the one before. -/
def searchGrid (significand : Nat) (binary : Int) : Nat → Int → Nat × Int
  | 0, exponent => (0, exponent)
  | tries + 1, exponent =>
      match nearestOnGrid significand binary exponent with
      | some digits => (digits, exponent)
      | none => searchGrid significand binary tries (exponent - 1)

/-- The fewest digits of a positive double, with the exponent of the last one. Seventeen digits
always suffice. -/
def shortestDigits (significand : Nat) (binary : Int) : Nat × Int :=
  searchGrid significand binary 18 (decimalExponent (quarters (4 * significand) binary))

def dropTrailingZeros (digits : List Char) : List Char :=
  (digits.reverse.dropWhile (· == '0')).reverse

def zeros (count : Nat) : List Char :=
  List.replicate count '0'

/-- Writes `d.ddd * 10 ^ exponent`, given the digits. -/
def placePoint (digits : List Char) (exponent : Int) : List Char :=
  if -5 ≤ exponent ∧ exponent < 0 then
    '0' :: '.' :: zeros (-exponent - 1).toNat ++ digits
  else if 0 ≤ exponent ∧ exponent < 16 then
    let whole := exponent.toNat + 1
    if digits.length ≤ whole then digits ++ zeros (whole - digits.length) ++ ['.', '0']
    else digits.take whole ++ '.' :: digits.drop whole
  else
    let power := (if exponent < 0 then '-' else '+') :: Nat.toDigits 10 exponent.natAbs
    match digits with
    | [digit] => digit :: 'e' :: power
    | first :: rest => first :: '.' :: rest ++ 'e' :: power
    | [] => []

def text (value : Double) : String :=
  let body :=
    if value.isZero then ['0', '.', '0']
    else
      let (digits, last) := shortestDigits value.significand value.exponent
      let written := Nat.toDigits 10 digits
      placePoint (dropTrailingZeros written) (last + written.length - 1)
  String.ofList (if value.negative then '-' :: body else body)

end BranchingInterview.Double
