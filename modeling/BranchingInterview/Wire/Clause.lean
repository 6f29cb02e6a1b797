import BranchingInterview.Clause
import BranchingInterview.Wire.Formula

/-!
The JSON of chains. The rest of a chain does not say whether it is another clause or an action: a
tree that decodes as a clause is one.
-/

namespace BranchingInterview

open Wire

/-- A branch with the JSON of what follows it. -/
def Branch.toJson (branch : Branch) (rest : Json) : Json :=
  .object (optionalMember "id" (branch.id.map .string) ++
    [("conditionGroup", branch.guard.toJson), ("action", branch.action.toJson),
      ("elseClause", rest)])

def Chain.toJson : Chain → Json
  | .otherwise action => action.toJson
  | .branch first rest => first.toJson rest.toJson

namespace Clause

def toJson (clause : Clause) : Json := clause.first.toJson clause.rest.toJson

structure Draft where
  id : Option String := none
  guard : Option Group := none
  action : Option Action := none
  rest : Option Chain := none

def visit (origin : Origin) (decodeRest : Json → Decoded Chain) (draft : Draft) (name : String)
    (value : Json) : Decoded Draft :=
  match name with
  | "id" => do return { draft with id := ← fill "id" draft.id (decodeString value) }
  | "conditionGroup" => do
      return { draft with guard := ← fill "conditionGroup" draft.guard (Group.ofJson origin value) }
  | "action" => do
      return { draft with action := ← fill "action" draft.action (Action.ofJson origin value) }
  | "elseClause" => do
      return { draft with rest := ← fill "elseClause" draft.rest (decodeRest value) }
  | _ => passOver draft value

def complete (draft : Draft) : Decoded Clause := do
  let guard ← require "conditionGroup" draft.guard
  let action ← require "action" draft.action
  let rest ← require "elseClause" draft.rest
  return { first := { id := draft.id, guard, action }, rest }

def decode (origin : Origin) (decodeRest : Json → Decoded Chain) : Json → Decoded Clause :=
  decodeFields origin ["id", "conditionGroup", "action", "elseClause"] (visit origin decodeRest)
    complete {}

end Clause

namespace Chain

/-- Decodes a chain from a tree that is nested less deep than `levels`. -/
def decode : Nat → Json → Decoded Chain
  | 0, _ => .error .unreadable
  | levels + 1, json =>
      match Clause.decode .aside (decode levels) json with
      | .ok clause => .ok clause.toChain
      | .error _ =>
          match Action.ofJson .aside json with
          | .ok action => .ok (otherwise action)
          | .error _ => .error (.noShape "ElseClause")

/-- A clause if the tree is one, else an action; why it is neither is not told. -/
def ofJson (json : Json) : Decoded Chain := do
  let json ← setAside json
  decode (json.depth + 1) json

end Chain

/-- A missing id is left open. -/
def Clause.ofJson (origin : Origin) : Json → Decoded Clause :=
  Clause.decode origin Chain.ofJson

end BranchingInterview
