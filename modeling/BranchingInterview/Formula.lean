import BranchingInterview.Comparison
import BranchingInterview.NodeId

/-!
Conditions combined by AND and OR in groups of any nesting. Evaluation goes from left to right and
stops at the first condition that decides its group, so only conditions it reaches can fail.
-/

namespace BranchingInterview

inductive GroupKind
  | and
  | or
deriving DecidableEq, Repr

namespace GroupKind

def all : List GroupKind := [and, or]

def name : GroupKind → String
  | and => "and"
  | or => "or"

def ofName? (name : String) : Option GroupKind :=
  all.find? (·.name == name)

/-- The value of an empty group; any other value of a condition decides its group. -/
def neutral : GroupKind → Bool
  | and => true
  | or => false

theorem ofName?_name (kind : GroupKind) : ofName? kind.name = some kind := by
  cases kind <;> decide +kernel

end GroupKind

inductive Formula
  | leaf (comparison : Comparison)
  | group (id : Option String) (kind : GroupKind) (conditions : List Formula)

/-- A group, which is a formula that is not a single comparison. -/
structure Group where
  id : Option String := none
  kind : GroupKind
  conditions : List Formula

def Group.toFormula (group : Group) : Formula :=
  .group group.id group.kind group.conditions

namespace Formula

mutual

def leaves : Formula → List Comparison
  | leaf comparison => [comparison]
  | group _ _ conditions => leavesOfAll conditions

def leavesOfAll : List Formula → List Comparison
  | [] => []
  | condition :: rest => condition.leaves ++ leavesOfAll rest

end

section

variable {ε : Type} (test : Comparison → Except ε Bool)

mutual

def evaluate : Formula → Except ε Bool
  | leaf comparison => test comparison
  | group _ kind conditions => evaluateAll kind conditions

def evaluateAll (kind : GroupKind) : List Formula → Except ε Bool
  | [] => .ok kind.neutral
  | condition :: rest => do
      if (← condition.evaluate) = kind.neutral then evaluateAll kind rest
      else .ok (!kind.neutral)

end

mutual

def reached : Formula → List Comparison
  | leaf comparison => [comparison]
  | group _ kind conditions => reachedOfAll kind conditions

def reachedOfAll (kind : GroupKind) : List Formula → List Comparison
  | [] => []
  | condition :: rest =>
      match condition.evaluate test with
      | .error _ => condition.reached
      | .ok value =>
          if value = kind.neutral then condition.reached ++ reachedOfAll kind rest
          else condition.reached

end

end

mutual

/-- Gives an id to every group that has none. -/
def assignIds (seed : Nat) : List Nat → Formula → Formula
  | _, leaf comparison => leaf comparison
  | path, group id kind conditions =>
      group (some (id.getD (NodeId.generate seed path))) kind
        (assignIdsToAll seed (path ++ [1]) conditions)

def assignIdsToAll (seed : Nat) : List Nat → List Formula → List Formula
  | _, [] => []
  | path, condition :: rest =>
      condition.assignIds seed path :: assignIdsToAll seed (path ++ [0]) rest

end

mutual

theorem assignIds_assignIds (seed other : Nat) : ∀ (path otherPath : List Nat) (formula : Formula),
    (formula.assignIds other otherPath).assignIds seed path = formula.assignIds other otherPath
  | _, _, leaf _ => rfl
  | path, otherPath, group id kind conditions => by
      have hconditions := assignIdsToAll_assignIdsToAll seed other (path ++ [1]) (otherPath ++ [1])
        conditions
      rw [assignIds, assignIds, hconditions, Option.getD_some]

theorem assignIdsToAll_assignIdsToAll (seed other : Nat) :
    ∀ (path otherPath : List Nat) (conditions : List Formula),
      assignIdsToAll seed path (assignIdsToAll other otherPath conditions) =
        assignIdsToAll other otherPath conditions
  | _, _, [] => rfl
  | path, otherPath, condition :: rest => by
      rw [assignIdsToAll, assignIdsToAll, assignIds_assignIds seed other path otherPath condition,
        assignIdsToAll_assignIdsToAll seed other (path ++ [0]) (otherPath ++ [0]) rest]

end

end Formula

namespace Group

def leaves (group : Group) : List Comparison :=
  Formula.leavesOfAll group.conditions

def evaluate {ε : Type} (test : Comparison → Except ε Bool) (group : Group) : Except ε Bool :=
  Formula.evaluateAll test group.kind group.conditions

def reached {ε : Type} (test : Comparison → Except ε Bool) (group : Group) : List Comparison :=
  Formula.reachedOfAll test group.kind group.conditions

def assignIds (seed : Nat) (path : List Nat) (group : Group) : Group :=
  { group with
    id := some (group.id.getD (NodeId.generate seed path))
    conditions := Formula.assignIdsToAll seed (path ++ [1]) group.conditions }

theorem assignIds_assignIds (seed other : Nat) (path otherPath : List Nat) (group : Group) :
    (group.assignIds other otherPath).assignIds seed path = group.assignIds other otherPath := by
  obtain ⟨id, kind, conditions⟩ := group
  have hconditions := Formula.assignIdsToAll_assignIdsToAll seed other (path ++ [1])
    (otherPath ++ [1]) conditions
  rw [assignIds, assignIds, hconditions, Option.getD_some]

end Group

end BranchingInterview
