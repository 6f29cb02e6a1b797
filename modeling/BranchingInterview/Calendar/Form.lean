import BranchingInterview.Calendar.Instant
import BranchingInterview.Text.Blank
import BranchingInterview.Text.Digits

/-!
The written forms of dates and times. A form is a list of items, each of which reads a part from
the head of a text; a form accepts a text when its items read all of it and the parts are a date,
a time of day and an offset within their ranges.
-/

namespace BranchingInterview.Calendar

open Text

inductive Field
  | year
  | month
  | day
  | hour
  | minute
  | second
deriving DecidableEq

/-- What the items of a form have read; what a form lacks keeps its default. -/
structure Parts where
  year : Int := 0
  month : Nat := 1
  day : Nat := 1
  hour : Nat := 0
  minute : Nat := 0
  second : Nat := 0
  nano : Nat := 0
  offset : Int := 0
deriving DecidableEq

def Parts.set (parts : Parts) (value : Int) : Field → Parts
  | .year => { parts with year := value }
  | .month => { parts with month := value.toNat }
  | .day => { parts with day := value.toNat }
  | .hour => { parts with hour := value.toNat }
  | .minute => { parts with minute := value.toNat }
  | .second => { parts with second := value.toNat }

inductive Item
  /-- Exactly so many digits. -/
  | digits (field : Field) (width : Nat)
  /-- Blanks, then one or two digits; a year has up to four, or a sign and any number. -/
  | number (field : Field)
  | oneOf (choices : List Char)
  /-- Nothing, or a point and digits, of which nine count. -/
  | fraction
  /-- `Z`, or a sign, hours, a colon and minutes. -/
  | zone
  /-- Blanks before the zone, colons and blanks between its hours and minutes, minutes or none. -/
  | looseZone
deriving DecidableEq

/-- The digits at the head of a text, at most `limit` of them, and the rest. -/
def spanDigits (limit : Nat) (chars : List Char) : List Char × List Char :=
  let digits := (chars.take limit).takeWhile Char.isDigit
  (digits, chars.drop digits.length)

def readDigits (limit : Nat) (chars : List Char) : Option (Nat × List Char) :=
  let (digits, rest) := spanDigits limit chars
  if digits.isEmpty then none else some (natOfDigits digits, rest)

def readAllDigits (chars : List Char) : Option (Nat × List Char) :=
  readDigits chars.length chars

def readExactly (width : Nat) (chars : List Char) : Option (Nat × List Char) :=
  let (digits, rest) := spanDigits width chars
  if digits.length = width then some (natOfDigits digits, rest) else none

def readYear : List Char → Option (Int × List Char)
  | '+' :: rest => (readAllDigits rest).map fun (value, rest) => (value, rest)
  | '-' :: rest => (readAllDigits rest).map fun (value, rest) => (-value, rest)
  | chars => (readDigits 4 chars).map fun (value, rest) => (value, rest)

def readNumber (field : Field) (chars : List Char) : Option (Int × List Char) :=
  match field with
  | .year => readYear chars
  | _ => (readDigits 2 chars).map fun (value, rest) => (value, rest)

def nanosOfDigits (digits : List Char) : Nat :=
  natOfDigits ((digits ++ List.replicate 9 '0').take 9)

def readFraction : List Char → Option (Nat × List Char)
  | '.' :: rest =>
      let (digits, rest) := spanDigits rest.length rest
      if digits.isEmpty then none else some (nanosOfDigits digits, rest)
  | chars => some (0, chars)

/-- A plus or minus sign, also the minus sign of typography. -/
def readSign : List Char → Option (Int × List Char)
  | '+' :: rest => some (1, rest)
  | '-' :: rest => some (-1, rest)
  | '\u2212' :: rest => some (-1, rest)
  | _ => none

def offsetSeconds (sign : Int) (hours minutes : Nat) : Int :=
  sign * (hours * 3600 + minutes * 60)

def readMinutes (chars : List Char) : Option (Nat × List Char) := do
  let (minutes, rest) ← readExactly 2 chars
  guard (minutes < 60)
  return (minutes, rest)

def readZone : List Char → Option (Int × List Char)
  | 'Z' :: rest => some (0, rest)
  | 'z' :: rest => some (0, rest)
  | chars => do
      let (sign, rest) ← readSign chars
      let (hours, rest) ← readExactly 2 rest
      match rest with
      | ':' :: rest =>
          let (minutes, rest) ← readMinutes rest
          return (offsetSeconds sign hours minutes, rest)
      | _ => none

def skipColons (chars : List Char) : List Char :=
  chars.dropWhile fun c => c == ':' || Text.isBlank c

def readLooseZone : List Char → Option (Int × List Char)
  | 'Z' :: rest => some (0, rest)
  | 'z' :: rest => some (0, rest)
  | chars => do
      let (sign, rest) ← readSign chars
      let (hours, rest) ← readExactly 2 rest
      match skipColons rest with
      | [] => return (offsetSeconds sign hours 0, [])
      | rest =>
          let (minutes, rest) ← readMinutes rest
          return (offsetSeconds sign hours minutes, rest)

def Item.read (item : Item) (parts : Parts) (chars : List Char) : Option (Parts × List Char) :=
  match item with
  | .digits field width =>
      (readExactly width chars).map fun (value, rest) => (parts.set value field, rest)
  | .number field =>
      (readNumber field (Text.skipBlanks chars)).map fun (value, rest) =>
        (parts.set value field, rest)
  | .oneOf choices =>
      match chars with
      | c :: rest => if choices.contains c then some (parts, rest) else none
      | [] => none
  | .fraction => (readFraction chars).map fun (nano, rest) => ({ parts with nano }, rest)
  | .zone => (readZone chars).map fun (offset, rest) => ({ parts with offset }, rest)
  | .looseZone =>
      (readLooseZone (Text.skipBlanks chars)).map fun (offset, rest) =>
        ({ parts with offset }, rest)

def readItems : List Item → Parts → List Char → Option (Parts × List Char)
  | [], parts, chars => some (parts, chars)
  | item :: items, parts, chars => do
      let (parts, rest) ← item.read parts chars
      readItems items parts rest

def firstSecond : Int :=
  (daysBeforeYear minYear - epochDay) * Instant.secondsPerDay

def endSecond : Int :=
  (daysBeforeYear (maxYear + 1) - epochDay) * Instant.secondsPerDay

/-- The instant that the parts name, if each of them and the instant itself is in its range. -/
def Parts.instant? (parts : Parts) : Option Instant := do
  let date ← Date.of? parts.year parts.month parts.day
  guard date.InRange
  guard (parts.hour ≤ 23 ∧ parts.minute ≤ 59 ∧ parts.second ≤ 60)
  guard (parts.offset.natAbs < Instant.secondsPerDay.natAbs)
  let leap := parts.second = 60
  let time := parts.hour * 3600 + parts.minute * 60 + if leap then 59 else parts.second
  let second := date.dayNumber * Instant.secondsPerDay + time - parts.offset
  guard (firstSecond ≤ second ∧ second < endSecond)
  return ⟨second, if leap then parts.nano + 1000000000 else parts.nano, parts.offset⟩

abbrev Form := List Item

namespace Form

def read (form : Form) (chars : List Char) : Option Instant := do
  let (parts, rest) ← readItems form {} chars
  guard rest.isEmpty
  parts.instant?

def dateItems : Form :=
  [.number .year, .oneOf ['-'], .number .month, .oneOf ['-'], .number .day]

def minuteItems : Form :=
  dateItems ++ [.oneOf ['T'], .number .hour, .oneOf [':'], .number .minute]

def secondItems : Form :=
  minuteItems ++ [.oneOf [':'], .number .second]

/-- Every part in its fixed width, a fraction if need be, and a zone. -/
def internet : Form :=
  [.digits .year 4, .oneOf ['-'], .digits .month 2, .oneOf ['-'], .digits .day 2,
    .oneOf ['T', 't', ' '], .digits .hour 2, .oneOf [':'], .digits .minute 2, .oneOf [':'],
    .digits .second 2, .fraction, .zone]

def secondsWithZone : Form := secondItems ++ [.fraction, .looseZone]

def minutesWithZone : Form := minuteItems ++ [.looseZone]

def fractionOfSecond : Form := secondItems ++ [.fraction]

def all : List Form :=
  [internet, secondsWithZone, minutesWithZone, fractionOfSecond, secondItems, minuteItems,
    dateItems]

end Form

def readInstant (chars : List Char) : Option Instant :=
  Form.all.findSome? (·.read chars)

def readDate (chars : List Char) : Option Date :=
  (Form.dateItems.read chars).map Instant.day

def nullText : List Char := ['n', 'u', 'l', 'l']

/-- The instant of a text without its outer blanks; `null` stands for a given date. -/
def parse (nullDate : Date) (text : String) : Option Instant :=
  let chars := Text.trimmed text.toList
  if chars = nullText then some (.startOfDay nullDate) else readInstant chars

end BranchingInterview.Calendar
