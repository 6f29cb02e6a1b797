import BranchingInterview.Comparison
import BranchingInterview.Wire.Action

/-!
The JSON of comparisons and candidate actions. A candidate is one object that holds the fields of
its comparison next to its `actionConfig`.
-/

namespace BranchingInterview

open Wire

namespace Operator

def toJson (operator : Operator) : Json := .string operator.name

def ofJson (json : Json) : Decoded Operator := do
  let name ← decodeString json
  match ofName? name with
  | some operator => return operator
  | none => throw (.unknownOperator name)

end Operator

namespace Comparison

def members (comparison : Comparison) : List (String × Json) :=
  [("operator", comparison.operator.toJson)] ++
    optionalMember "responseKey" (comparison.key.map .string) ++
    optionalMember "responseKeyField" (comparison.field.map .string) ++
    optionalMember "value" (comparison.operand.map .string)

def toJson (comparison : Comparison) : Json := .object comparison.members

structure Draft where
  operator : Option Operator := none
  key : Option (Option String) := none
  field : Option (Option String) := none
  operand : Option (Option String) := none

inductive Field
  | operator
  | key
  | field
  | operand
deriving DecidableEq

/-- The field that a name stands for; two fields have a second name. -/
def Field.ofName? : String → Option Field
  | "operator" => some operator
  | "conditionalOperator" => some operator
  | "responseKey" => some key
  | "responseKeyField" => some field
  | "responseKeyLookupField" => some field
  | "value" => some operand
  | _ => none

def visitField (draft : Draft) (value : Json) : Field → Decoded Draft
  | .operator => do
      return { draft with operator := ← fill "operator" draft.operator (Operator.ofJson value) }
  | .key => do
      return { draft with
        key := ← fill "responseKey" draft.key (decodeOptional decodeString value) }
  | .field => do
      return { draft with
        field := ← fill "responseKeyField" draft.field (decodeOptional decodeString value) }
  | .operand => do
      return { draft with
        operand := ← fill "value" draft.operand (decodeOptional decodeString value) }

def visit (draft : Draft) (name : String) (value : Json) : Decoded Draft :=
  match Field.ofName? name with
  | some known => visitField draft value known
  | none => passOver draft value

def complete (draft : Draft) : Decoded Comparison := do
  return { operator := ← require "operator" draft.operator
           key := draft.key.getD none
           field := draft.field.getD none
           operand := draft.operand.getD none }

def ofJson (origin : Origin) : Json → Decoded Comparison :=
  decodeFields origin ["operator", "responseKey", "responseKeyField", "value"] visit complete {}

end Comparison

namespace Candidate

def toJson (candidate : Candidate) : Json :=
  .object (candidate.condition.members ++ [("actionConfig", candidate.action.toJson)])

/-- The members beside the action are set aside until it is known that there is one. -/
structure Draft where
  action : Option Action := none
  others : List (String × Json) := []

def visit (origin : Origin) (draft : Draft) (name : String) (value : Json) : Decoded Draft :=
  match name with
  | "actionConfig" => do
      return { draft with
        action := ← fill "actionConfig" draft.action (Action.ofJson origin value) }
  | _ => do return { draft with others := draft.others ++ [(name, ← setAside value)] }

def complete (draft : Draft) : Decoded Candidate := do
  let action ← require "actionConfig" draft.action
  let condition ← visitMembers Comparison.visit {} draft.others
  return ⟨← Comparison.complete condition, action⟩

def ofJson (origin : Origin) : Json → Decoded Candidate
  | .object members => do complete (← visitMembers (visit origin) {} members)
  | json => .error (mismatch json)

end Candidate

end BranchingInterview
