import BranchingInterview.Interview
import BranchingInterview.Wire.Comparison

/-!
The JSON of screens and interviews.
-/

namespace BranchingInterview

open Wire

namespace Screen

def toJson (screen : Screen) : Json :=
  .object ([("id", .string screen.id), ("title", .string screen.title),
      ("headerText", .string screen.headerText),
      ("isInStartingState", .bool screen.isInStartingState)] ++
    optionalMember "startingStateOrder"
      (screen.startingStateOrder.map fun order => .integer order.toNat))

structure Draft where
  id : Option String := none
  title : Option String := none
  headerText : Option String := none
  isInStartingState : Option Bool := none
  startingStateOrder : Option (Option UInt32) := none

def visit (draft : Draft) (name : String) (value : Json) : Decoded Draft :=
  match name with
  | "id" => do return { draft with id := ← fill "id" draft.id (decodeString value) }
  | "title" => do return { draft with title := ← fill "title" draft.title (decodeString value) }
  | "headerText" => do
      return { draft with headerText := ← fill "headerText" draft.headerText (decodeString value) }
  | "isInStartingState" => do
      return { draft with
        isInStartingState := ← fill "isInStartingState" draft.isInStartingState (decodeBool value) }
  | "startingStateOrder" => do
      return { draft with
        startingStateOrder := ← fill "startingStateOrder" draft.startingStateOrder
          (decodeOptional decodeUInt32 value) }
  | _ => passOver draft value

def complete (draft : Draft) : Decoded Screen := do
  return { id := ← require "id" draft.id
           title := draft.title.getD ""
           headerText := draft.headerText.getD ""
           isInStartingState := draft.isInStartingState.getD false
           startingStateOrder := draft.startingStateOrder.getD none }

def ofJson (origin : Origin) : Json → Decoded Screen :=
  decodeFields origin ["id", "title", "headerText", "isInStartingState", "startingStateOrder"]
    visit complete {}

end Screen

namespace Interview

def actionsToJson (actions : KeyMap (List Candidate)) : Json :=
  .object (actions.entries.map fun entry => (entry.1, .array (entry.2.map Candidate.toJson)))

def toJson (interview : Interview) : Json :=
  .object ([("id", .string interview.id), ("name", .string interview.name),
      ("screens", .array (interview.screens.map Screen.toJson))] ++
    optionalMember "startingState"
      (if interview.startingState.isEmpty then none else some (.strings interview.startingState)) ++
    [("actions", actionsToJson interview.actions)])

structure Draft where
  id : Option String := none
  name : Option String := none
  screens : Option (List Screen) := none
  startingState : Option (List String) := none
  actions : Option (KeyMap (List Candidate)) := none

def visit (origin : Origin) (draft : Draft) (name : String) (value : Json) : Decoded Draft :=
  match name with
  | "id" => do return { draft with id := ← fill "id" draft.id (decodeString value) }
  | "name" => do return { draft with name := ← fill "name" draft.name (decodeString value) }
  | "screens" => do
      return { draft with
        screens := ← fill "screens" draft.screens (decodeList (Screen.ofJson origin) value) }
  | "startingState" => do
      return { draft with
        startingState := ← fill "startingState" draft.startingState
          (decodeList decodeString value) }
  | "actions" => do
      return { draft with
        actions := ← fill "actions" draft.actions
          (decodeMap (decodeList (Candidate.ofJson origin)) value) }
  | _ => passOver draft value

def complete (draft : Draft) : Decoded Interview := do
  return { id := draft.id.getD ""
           name := draft.name.getD ""
           screens := ← require "screens" draft.screens
           startingState := draft.startingState.getD []
           actions := draft.actions.getD {} }

def ofJson (origin : Origin) : Json → Decoded Interview :=
  decodeFields origin ["id", "name", "screens", "startingState", "actions"] (visit origin)
    complete {}

end Interview

end BranchingInterview
