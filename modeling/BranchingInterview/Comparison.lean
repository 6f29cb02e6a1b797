import BranchingInterview.Action
import BranchingInterview.Calendar.Form
import BranchingInterview.Operator

/-!
A comparison of one answer with an operand: what it needs to be complete, and when it holds.
Only a date operator can fail, on a text that is no date.
-/

namespace BranchingInterview

structure Comparison where
  operator : Operator
  key : Option String := none
  /-- The field to look at when the answer is a record. -/
  field : Option String := none
  operand : Option String := none
deriving DecidableEq

namespace Comparison

def always : Comparison := { operator := .alwaysExecute }

def hasKey (comparison : Comparison) : Bool :=
  comparison.key.any (· != "")

/-- Names everything the operator needs. An empty operand counts as one. -/
def validate (comparison : Comparison) : Except ValidationError Unit :=
  if comparison.operator.requiresKey && !comparison.hasKey then
    .error (.missingKey comparison.operator.label)
  else if comparison.operator.requiresOperand && comparison.operand.isNone then
    .error (.missingOperand comparison.operator.label)
  else .ok ()

/-- The text to compare, if the response is there. -/
def resolve (comparison : Comparison) (responses : Responses) : Option String := do
  let key ← comparison.key
  let response ← responses.get? key
  return response.answer.resolve comparison.field

end Comparison

/-- No answer, an empty one, or `null`. -/
def isUnanswered : Option String → Bool
  | none => true
  | some text => text == "" || text == absentText

/-- Both texts, if neither is missing or empty. -/
def bothPresent (response operand : Option String) : Option (String × String) :=
  match response, operand with
  | some response, some operand =>
      if response = "" ∨ operand = "" then none else some (response, operand)
  | _, _ => none

/-- Texts are ordered by code points, which is the order of their UTF-8 bytes. -/
def compareTexts (test : String → String → Bool) (response operand : Option String) : Bool :=
  (bothPresent response operand).any fun (response, operand) => test response operand

def parseDate (nullDate : Date) (text : String) : Except ScriptError Instant :=
  match Calendar.parse nullDate text with
  | some instant => .ok instant
  | none => .error (.invalidDate text)

/-- Neither text is read as a date unless both are present. -/
def compareDates (nullDate : Date) (test : Instant → Instant → Bool)
    (response operand : Option String) : Except ScriptError Bool :=
  match bothPresent response operand with
  | none => .ok false
  | some (response, operand) => do
      let left ← parseDate nullDate response
      let right ← parseDate nullDate operand
      return test left right

def Operator.holds (nullDate : Date) (response operand : Option String) :
    Operator → Except ScriptError Bool
  | alwaysExecute => .ok true
  | eq => .ok (response.isSome && response == operand)
  | gt => .ok (compareTexts (fun left right => right < left) response operand)
  | gte => .ok (compareTexts (fun left right => right ≤ left) response operand)
  | lt => .ok (compareTexts (fun left right => left < right) response operand)
  | lte => .ok (compareTexts (fun left right => left ≤ right) response operand)
  | isEmpty => .ok (isUnanswered response)
  | isNotEmpty => .ok (!isUnanswered response)
  | after => compareDates nullDate (fun left right => right < left) response operand
  | afterOrEqual => compareDates nullDate (fun left right => right ≤ left) response operand
  | before => compareDates nullDate (fun left right => left < right) response operand
  | beforeOrEqual => compareDates nullDate (fun left right => left ≤ right) response operand
  | equalsDate => compareDates nullDate (fun left right => left.day = right.day) response operand

namespace Comparison

def holdsAtOnce (comparison : Comparison) : Bool :=
  comparison.operator == .alwaysExecute || !comparison.hasKey

/-- Whether the comparison holds of the responses; `null` read as a date is `nullDate`. -/
def evaluate (nullDate : Date) (responses : Responses) (comparison : Comparison) :
    Except ScriptError Bool :=
  if comparison.holdsAtOnce then .ok true
  else comparison.operator.holds nullDate (comparison.resolve responses) comparison.operand

end Comparison

/-- An action that a screen may take, and the comparison that decides whether it does. -/
structure Candidate where
  condition : Comparison
  action : Action
deriving DecidableEq

namespace Candidate

def always (action : Action) : Candidate := ⟨.always, action⟩

def validate (candidate : Candidate) : Except ValidationError Unit := do
  candidate.condition.validate
  candidate.action.validate

end Candidate

end BranchingInterview
