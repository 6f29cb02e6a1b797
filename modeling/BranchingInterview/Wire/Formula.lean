import BranchingInterview.Formula
import BranchingInterview.Wire.Comparison

/-!
The JSON of condition trees. A formula does not say whether it is a group or a comparison: a tree
that decodes as a group is one.
-/

namespace BranchingInterview

open Wire

def GroupKind.toJson (kind : GroupKind) : Json := .string kind.name

def GroupKind.ofJson (origin : Origin) : Json → Decoded GroupKind :=
  decodeName origin GroupKind.ofName?

namespace Formula

mutual

def toJson : Formula → Json
  | leaf comparison => comparison.toJson
  | group id kind conditions =>
      .object (optionalMember "id" (id.map .string) ++
        [("type", kind.toJson), ("conditions", .array (allToJson conditions))])

def allToJson : List Formula → List Json
  | [] => []
  | condition :: rest => condition.toJson :: allToJson rest

end

end Formula

namespace Group

def toJson (group : Group) : Json := group.toFormula.toJson

structure Draft where
  id : Option String := none
  kind : Option GroupKind := none
  conditions : Option (List Formula) := none

def visit (origin : Origin) (decodeCondition : Json → Decoded Formula) (draft : Draft)
    (name : String) (value : Json) : Decoded Draft :=
  match name with
  | "id" => do return { draft with id := ← fill "id" draft.id (decodeString value) }
  | "type" => do return { draft with kind := ← fill "type" draft.kind (GroupKind.ofJson origin value) }
  | "conditions" => do
      return { draft with
        conditions := ← fill "conditions" draft.conditions (decodeList decodeCondition value) }
  | _ => passOver draft value

def complete (draft : Draft) : Decoded Group := do
  return { id := draft.id
           kind := ← require "type" draft.kind
           conditions := ← require "conditions" draft.conditions }

def decode (origin : Origin) (decodeCondition : Json → Decoded Formula) : Json → Decoded Group :=
  decodeFields origin ["id", "type", "conditions"] (visit origin decodeCondition) complete {}

end Group

namespace Formula

/-- Decodes a formula from a tree that is nested less deep than `levels`. -/
def decode : Nat → Json → Decoded Formula
  | 0, _ => .error .unreadable
  | levels + 1, json =>
      match Group.decode .aside (decode levels) json with
      | .ok found => .ok found.toFormula
      | .error _ =>
          match Comparison.ofJson .aside json with
          | .ok comparison => .ok (leaf comparison)
          | .error _ => .error (.noShape "Condition")

/-- A group if the tree is one, else a comparison; why it is neither is not told. -/
def ofJson (json : Json) : Decoded Formula := do
  let json ← setAside json
  decode (json.depth + 1) json

end Formula

/-- A missing id is left open. -/
def Group.ofJson (origin : Origin) : Json → Decoded Group :=
  Group.decode origin Formula.ofJson

end BranchingInterview
