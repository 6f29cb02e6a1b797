import BranchingInterview.Json.Printer

/-!
Answers and the responses of an interview. An answer is a text or a record; comparisons see it as
a text, which for a whole record is its canonical JSON.
-/

namespace BranchingInterview

/-- The members of a JSON object in canonical form. -/
structure Record where
  members : List (String × Json)
  canonical : (Json.object members).IsCanonical
deriving DecidableEq

namespace Record

@[ext]
theorem ext {left right : Record} (hmembers : left.members = right.members) : left = right := by
  cases left
  cases right
  cases hmembers
  rfl

def toJson (record : Record) : Json := .object record.members

def get? (record : Record) (field : String) : Option Json :=
  lookupEntry field record.members

end Record

inductive Answer
  | text (value : String)
  | record (value : Record)
deriving DecidableEq

/-- A value as the text to compare: a string as it is, everything else as JSON. -/
def Json.fieldText : Json → String
  | .string value => value
  | json => json.text

def absentText : String := "null"

/-- The text of an answer, or of one field of a record; a text has no fields to choose from. -/
def Answer.resolve (field : Option String) : Answer → String
  | .text value => value
  | .record fields =>
      match field with
      | none => fields.toJson.text
      | some field => ((fields.get? field).map Json.fieldText).getD absentText

/-- The entry of a screen that an answer was given to. -/
structure Question where
  id : String
  screen : Option String := none
  prompt : String := ""
deriving DecidableEq

/-- An answer, and the question it was given to unless a script injected it. -/
structure Response where
  question : Option Question := none
  answer : Answer
deriving DecidableEq

abbrev Responses := KeyMap Response

end BranchingInterview
