import BranchingInterview.Log.Event
import BranchingInterview.Text.Alphanumeric
import BranchingInterview.Text.Blank
import BranchingInterview.Text.Digits
import BranchingInterview.Text.Pattern.Reader

/-!
Directives, the parts of a level text. Each has the start of the targets it is for, may ask in
brackets for a span and for a field, and sets the most verbose level shown.
-/

namespace BranchingInterview.Log

/-- A field asked for, with a certain value or with any. -/
structure FieldPattern where
  name : String
  value : Option String := none
deriving DecidableEq, Repr

structure Directive where
  /-- The start of the targets meant; all of them if empty. -/
  target : String := ""
  span : Option String := none
  field : Option FieldPattern := none
  /-- The verbosity shown; 0 shows nothing. -/
  limit : Nat
deriving DecidableEq, Repr

namespace FieldPattern

def isUnsigned (word : List Char) : Bool :=
  !word.isEmpty && word.all Char.isDigit

def withoutSign : List Char → List Char
  | '+' :: rest => rest
  | '-' :: rest => rest
  | rest => rest

/-- Digits, around a point or not, and an exponent or none. -/
def isDecimal (word : List Char) : Bool :=
  let isMark := fun c => c == 'e' || c == 'E'
  let significand := word.takeWhile (!isMark ·)
  let whole := significand.takeWhile Char.isDigit
  let digits :=
    match significand.drop whole.length with
    | '.' :: fraction => whole ++ fraction
    | rest => whole ++ rest
  isUnsigned digits &&
    match word.drop significand.length with
    | [] => true
    | _ :: exponent => isUnsigned (withoutSign exponent)

/-- A truth value or a number, which no text is. -/
def isScalar (value : String) : Bool :=
  let word := withoutSign value.toList
  value = "true" || value = "false" || isDecimal word ||
    ["inf", "infinity", "nan"].contains (String.ofList (word.map Char.toLower))

/-- A name, or a name and a value with an equals sign between them. The value is a scalar or a pattern
for texts. -/
def parse? (text : List Char) : Option FieldPattern :=
  let name := String.ofList (text.takeWhile (· != '='))
  match text.dropWhile (· != '=') with
  | [] => some { name }
  | _ :: rest =>
      let value := String.ofList (rest.takeWhile (· != '='))
      if isScalar value || (Text.Pattern.parse? value).isSome then some { name, value } else none

def accepts (pattern : FieldPattern) (text : String) : Bool :=
  pattern.value.all fun value =>
    !isScalar value && (Text.Pattern.parse? value).any (·.fits text)

end FieldPattern

namespace Directive

def mostVerbose : Nat := Level.verbosity .trace

/-- A level by its name, in any case, or by its number. -/
def limit? (word : List Char) : Option Nat :=
  match String.ofList (word.map Char.toLower) with
  | "off" => some 0
  | "error" => some 1
  | "warn" => some 2
  | "info" => some 3
  | "debug" => some 4
  | "trace" => some 5
  | _ =>
      let digits := if word.head? = some '+' then word.drop 1 else word
      if digits.isEmpty || !digits.all Char.isDigit then none
      else if Text.natOfDigits digits ≤ mostVerbose then some (Text.natOfDigits digits)
      else none

/-- The level after an equals sign; without one everything is shown. -/
def limitAfter? : List Char → Option Nat
  | [] => some mostVerbose
  | ['='] => some mostVerbose
  | '=' :: word => limit? word
  | _ => none

/-- The span and the field of brackets that have been opened, and the text after them. -/
def brackets? (chars : List Char) : Option (Option String × Option FieldPattern × List Char) :=
  let span := chars.takeWhile fun c => c != ']' && c != '\x7b'
  match chars.drop span.length with
  | ']' :: rest => some (some (String.ofList span), none, rest)
  | '\x7b' :: rest =>
      let field := rest.takeWhile (· != '\x7d')
      match field, rest.drop field.length with
      | _ :: _, '\x7d' :: ']' :: rest => do
          let field ← FieldPattern.parse? field
          return (if span.isEmpty then none else some (String.ofList span), some field, rest)
      | _, _ => none
  | _ => none

def startsDirective (c : Char) : Bool :=
  Text.isAlphanumeric c || c == '-' || c == ':' || c == '_' || c == '['

/-- A level for all targets, or a target, which may be followed by brackets, with its level. Blanks
belong to the target, but one with a level does not start with them. -/
def parse? (chars : List Char) : Option Directive := do
  guard ((Text.skipBlanks chars).head?.any startsDirective)
  let target := chars.takeWhile fun c => c != '=' && c != '['
  match chars.drop target.length with
  | [] =>
      match limit? target with
      | some limit => return { limit }
      | none => return { target := String.ofList target, limit := mostVerbose }
  | '[' :: rest =>
      let (span, field, rest) ← brackets? rest
      let limit ← limitAfter? (if (Text.skipBlanks rest).isEmpty then [] else rest)
      return { target := String.ofList target, span, field, limit }
  | rest =>
      guard (!(chars.head?.any Text.isBlank))
      return { target := String.ofList target, limit := ← limitAfter? rest }

end Directive

end BranchingInterview.Log
