import BranchingInterview.Wire.Action

/-!
The flat form in which actions are stored: the kind, and the payload as one text. The ids of a push
are joined by semicolons, so an id comes back as it was only if it is not empty and has none.
-/

namespace BranchingInterview

open Wire

structure StoredAction where
  kind : Action.Kind
  payload : Option String := none
deriving DecidableEq

namespace StoredAction

def delimiter : Char := ';'

def pieces : List Char → List (List Char)
  | [] => [[]]
  | c :: rest =>
      if c = delimiter then [] :: pieces rest
      else
        match pieces rest with
        | piece :: more => (c :: piece) :: more
        | [] => [[c]]

/-- The ids in the payload of a push; empty pieces are none. -/
def splitIds (payload : String) : List String :=
  ((pieces payload.toList).filter (!·.isEmpty)).map String.ofList

def joinIds (ids : List String) : String :=
  String.ofList ([delimiter].intercalate (ids.map String.toList))

def toJson (stored : StoredAction) : Json :=
  .object (("type", stored.kind.toJson) ::
    optionalMember "payload" (stored.payload.map .string))

structure Draft where
  kind : Option Action.Kind := none
  payload : Option (Option String) := none

def visit (origin : Origin) (draft : Draft) (name : String) (value : Json) : Decoded Draft :=
  match name with
  | "type" => do
      return { draft with kind := ← fill "type" draft.kind (Action.Kind.ofJson origin value) }
  | "payload" => do
      return { draft with
        payload := ← fill "payload" draft.payload (decodeOptional decodeString value) }
  | _ => passOver draft value

def complete (draft : Draft) : Decoded StoredAction := do
  return { kind := ← require "type" draft.kind, payload := draft.payload.getD none }

def ofJson (origin : Origin) : Json → Decoded StoredAction :=
  decodeFields origin ["type", "payload"] (visit origin) complete {}

end StoredAction

namespace Action

/-- The action that a stored form names; a payload that is missing counts as the empty text. -/
def ofStored (stored : StoredAction) : Except ValidationError Action :=
  let payload := stored.payload.getD ""
  match stored.kind with
  | .push => .ok (push (StoredAction.splitIds payload))
  | .skip =>
      match decodeText Responses.ofJson payload with
      | .ok responses => .ok (skip responses)
      | .error reason => .error (.invalidPayload Kind.skip.name reason.message)
  | .checkpoint => .ok (checkpoint payload)
  | .restore => .ok (restore payload)
  | .milestone => .ok (milestone payload)
  | .endInterview => .ok endInterview
  | .doNothing => .ok doNothing

def toStored (action : Action) : StoredAction :=
  { kind := action.kind
    payload :=
      match action with
      | push screens => some (StoredAction.joinIds screens)
      | skip responses => some responses.toJson.canonicalText
      | checkpoint name => some name
      | restore name => some name
      | milestone name => some name
      | endInterview => none
      | doNothing => none }

end Action

end BranchingInterview
