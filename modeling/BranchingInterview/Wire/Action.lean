import BranchingInterview.Action
import BranchingInterview.Wire.Answer

/-!
The JSON of actions: an object with the kind of an action as its `type` and, unless the kind says
it all, a `payload`. The payload may stand before the type.
-/

namespace BranchingInterview

open Wire

namespace Action

def Kind.toJson (kind : Kind) : Json := .string kind.name

def Kind.ofJson (origin : Origin) : Json → Decoded Kind :=
  decodeName origin Kind.ofName?

def payload? : Action → Option Json
  | push screens => some (.strings screens)
  | skip responses => some responses.toJson
  | checkpoint name => some (.string name)
  | restore name => some (.string name)
  | milestone name => some (.string name)
  | endInterview => none
  | doNothing => none

def toJson (action : Action) : Json :=
  .object (("type", action.kind.toJson) :: optionalMember "payload" action.payload?)

def ofPayload (origin : Origin) (kind : Kind) (payload : Json) : Decoded Action :=
  match kind with
  | .push => push <$> decodeList decodeString payload
  | .skip => skip <$> Responses.ofJson origin payload
  | .checkpoint => checkpoint <$> decodeString payload
  | .restore => restore <$> decodeString payload
  | .milestone => milestone <$> decodeString payload
  | .endInterview => do decodeNull payload; return endInterview
  | .doNothing => do decodeNull payload; return doNothing

/-- The kind at the head of an array: its name or, in a part set aside, its place among the
kinds. -/
def Kind.atHead (origin : Origin) : Json → Decoded Kind
  | .string name => findName Kind.ofName? name
  | .number (.integer place) =>
      let found : Json.Found := .number (.integer place)
      if origin = .aside ∧ 0 ≤ place then
        match Kind.all[place.toNat]? with
        | some kind => .ok kind
        | none => .error (.wrongValue found)
      else .error (.wrongType found)
  | json => .error (mismatch json)

/-- A payload that precedes the type waits for it. -/
inductive Draft
  | start
  | payload (value : Json)
  | kind (value : Kind)
  | action (value : Action)

def visit (origin : Origin) (draft : Draft) (name : String) (value : Json) : Decoded Draft :=
  match name, draft with
  | "type", .start => .kind <$> Kind.ofJson origin value
  | "type", .payload waiting => do
      return .action (← ofPayload .aside (← Kind.ofJson origin value) waiting)
  | "type", _ => .error (.repeatedField "type")
  | "payload", .start => .payload <$> setAside value
  | "payload", .kind kind => .action <$> ofPayload origin kind value
  | "payload", _ => .error (.repeatedField "payload")
  | _, draft => passOver draft value

def complete : Draft → Decoded Action
  | .start => .error (.missingField "type")
  | .payload _ => .error (.missingField "type")
  | .kind .endInterview => .ok endInterview
  | .kind .doNothing => .ok doNothing
  | .kind _ => .error (.missingField "payload")
  | .action value => .ok value

def ofJson (origin : Origin) : Json → Decoded Action
  | .object members => do complete (← visitMembers (visit origin) .start members)
  | .array [] => .error .wrongLength
  | .array (kind :: rest) => do
      let kind ← Kind.atHead origin kind
      match rest with
      | [] => throw .wrongLength
      | payload :: surplus =>
          let action ← ofPayload origin kind payload
          if surplus.isEmpty then return action else throw origin.surplus
  | json => .error (mismatch json)

end Action

end BranchingInterview
