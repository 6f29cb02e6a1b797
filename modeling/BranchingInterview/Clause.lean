import BranchingInterview.Formula

/-!
Chains of guarded actions, read as if, else if and else: the action of the first branch whose
guard holds is selected, or the last action of the chain if none does.
-/

namespace BranchingInterview

structure Branch where
  id : Option String := none
  guard : Group
  action : Action

inductive Chain
  | otherwise (action : Action)
  | branch (first : Branch) (rest : Chain)

/-- A chain with at least one branch. -/
structure Clause where
  first : Branch
  rest : Chain := .otherwise .doNothing

namespace Chain

variable {ε : Type}

def branches : Chain → List Branch
  | otherwise _ => []
  | branch first rest => first :: rest.branches

def actions : Chain → List Action
  | otherwise action => [action]
  | branch first rest => first.action :: rest.actions

def conditions : Chain → List Comparison
  | otherwise _ => []
  | branch first rest => first.guard.leaves ++ rest.conditions

def select (test : Comparison → Except ε Bool) : Chain → Except ε Action
  | otherwise action => .ok action
  | branch first rest => do
      if ← first.guard.evaluate test then .ok first.action else rest.select test

def reached (test : Comparison → Except ε Bool) : Chain → List Comparison
  | otherwise _ => []
  | branch first rest =>
      first.guard.reached test ++
        match first.guard.evaluate test with
        | .ok false => rest.reached test
        | _ => []

/-- Gives an id to every branch and group that has none. -/
def assignIds (seed : Nat) : List Nat → Chain → Chain
  | _, otherwise action => otherwise action
  | path, branch first rest =>
      branch
        { first with
          id := some (first.id.getD (NodeId.generate seed path))
          guard := first.guard.assignIds seed (path ++ [1]) }
        (rest.assignIds seed (path ++ [0]))

theorem assignIds_assignIds (seed other : Nat) (path otherPath : List Nat) (chain : Chain) :
    (chain.assignIds other otherPath).assignIds seed path = chain.assignIds other otherPath := by
  induction chain generalizing path otherPath with
  | otherwise action => rfl
  | branch first rest ih =>
      obtain ⟨id, guard, action⟩ := first
      rw [assignIds, assignIds, ih, Group.assignIds_assignIds, Option.getD_some]

end Chain

/-- Whether `alwaysExecute` stands only where it may: first, and then alone. -/
def validateAlways : List Comparison → Except ValidationError Unit
  | [] => .ok ()
  | first :: rest =>
      if rest.any (·.operator == .alwaysExecute) then .error .nestedAlways
      else if first.operator == .alwaysExecute && !rest.isEmpty then .error .alwaysNotAlone
      else .ok ()

namespace Clause

variable {ε : Type}

def toChain (clause : Clause) : Chain := .branch clause.first clause.rest

def actions (clause : Clause) : List Action := clause.toChain.actions

def conditions (clause : Clause) : List Comparison := clause.toChain.conditions

def select (test : Comparison → Except ε Bool) (clause : Clause) : Except ε Action :=
  clause.toChain.select test

def reached (test : Comparison → Except ε Bool) (clause : Clause) : List Comparison :=
  clause.toChain.reached test

/-- The place of `alwaysExecute` is checked first, then every comparison, then every action. -/
def validate (clause : Clause) : Except ValidationError Unit := do
  validateAlways clause.conditions
  clause.conditions.forM Comparison.validate
  clause.actions.forM Action.validate

def assignIds (seed : Nat) (clause : Clause) : Clause :=
  { first :=
      { clause.first with
        id := some (clause.first.id.getD (NodeId.generate seed []))
        guard := clause.first.guard.assignIds seed [1] }
    rest := clause.rest.assignIds seed [0] }

theorem assignIds_assignIds (seed other : Nat) (clause : Clause) :
    (clause.assignIds other).assignIds seed = clause.assignIds other := by
  obtain ⟨⟨id, guard, action⟩, rest⟩ := clause
  rw [assignIds, assignIds, Chain.assignIds_assignIds, Group.assignIds_assignIds, Option.getD_some]

end Clause

end BranchingInterview
