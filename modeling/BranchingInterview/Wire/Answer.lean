import BranchingInterview.Answer
import BranchingInterview.Wire.Decoding

/-!
The JSON of answers and responses.
-/

namespace BranchingInterview

open Wire

/-- A member that is left out when it has no value. -/
def Wire.optionalMember (name : String) (value : Option Json) : List (String × Json) :=
  value.toList.map fun value => (name, value)

def Answer.toJson : Answer → Json
  | text value => .string value
  | record fields => fields.toJson

@[simp]
theorem Wire.optionalMember_none (name : String) : optionalMember name none = [] := rfl

@[simp]
theorem Wire.optionalMember_some (name : String) (value : Json) :
    optionalMember name (some value) = [(name, value)] := rfl

theorem Wire.names_optionalMember (name : String) (value : Option Json) :
    ((optionalMember name value).map Prod.fst).Sublist [name] := by
  cases value with
  | none => exact List.nil_sublist _
  | some value => exact List.Sublist.refl _

/-- A string or an object, with a value everywhere. -/
def Answer.ofJson (json : Json) : Decoded Answer :=
  match hjson : json.canonical? with
  | none => .error .unreadable
  | some (.string value) => .ok (text value)
  | some (.object members) =>
      .ok (record ⟨members, Json.isCanonical_of_canonical? hjson⟩)
  | some _ => .error (.noShape "Answer")

namespace Question

def toJson (question : Question) : Json :=
  .object ([("id", .string question.id)] ++
    optionalMember "screenId" (question.screen.map .string) ++
    optionalMember "prompt" (if question.prompt = "" then none else some (.string question.prompt)))

structure Draft where
  id : Option String := none
  screen : Option (Option String) := none
  prompt : Option String := none

def visit (draft : Draft) (name : String) (value : Json) : Decoded Draft :=
  match name with
  | "id" => do return { draft with id := ← fill "id" draft.id (decodeString value) }
  | "screenId" => do
      return { draft with
        screen := ← fill "screenId" draft.screen (decodeOptional decodeString value) }
  | "prompt" => do return { draft with prompt := ← fill "prompt" draft.prompt (decodeString value) }
  | _ => passOver draft value

def complete (draft : Draft) : Decoded Question := do
  return { id := ← require "id" draft.id
           screen := draft.screen.getD none
           prompt := draft.prompt.getD "" }

def ofJson (origin : Origin) : Json → Decoded Question :=
  decodeFields origin ["id", "screenId", "prompt"] visit complete {}

end Question

namespace Response

def toJson (response : Response) : Json :=
  .object (optionalMember "entry" (response.question.map Question.toJson) ++
    [("response", response.answer.toJson)])

structure Draft where
  question : Option (Option Question) := none
  answer : Option Answer := none

def visit (origin : Origin) (draft : Draft) (name : String) (value : Json) : Decoded Draft :=
  match name with
  | "entry" => do
      return { draft with
        question := ← fill "entry" draft.question (decodeOptional (Question.ofJson origin) value) }
  | "response" => do
      return { draft with answer := ← fill "response" draft.answer (Answer.ofJson value) }
  | _ => passOver draft value

def complete (draft : Draft) : Decoded Response := do
  return { question := draft.question.getD none, answer := ← require "response" draft.answer }

def ofJson (origin : Origin) : Json → Decoded Response :=
  decodeFields origin ["entry", "response"] (visit origin) complete {}

end Response

namespace Responses

def toJson (responses : Responses) : Json :=
  .object (responses.entries.map fun entry => (entry.1, entry.2.toJson))

def ofJson (origin : Origin) : Json → Decoded Responses :=
  decodeMap (Response.ofJson origin)

end Responses

end BranchingInterview
