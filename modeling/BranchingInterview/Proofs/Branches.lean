import BranchingInterview.Clause
import Mathlib.Control.Monad.Basic

/-!
Chains as lists of guards. A chain has one action more than it has guards, and selects the action at
the place of the first guard that holds, or the last one if none does. A guard that fails before any
other holds makes the selection fail; what stands after the guard that decides is not looked at.
-/

namespace BranchingInterview

variable {ε : Type}

namespace Chain

/-- The guards, each tried only if those before it do not hold. -/
def guards (chain : Chain) : List Group := chain.branches.map Branch.guard

/-- The action if no guard holds. -/
def lastAction : Chain → Action
  | otherwise action => action
  | branch _ rest => rest.lastAction

theorem guards_branch (first : Branch) (rest : Chain) :
    (branch first rest).guards = first.guard :: rest.guards := rfl

theorem actions_eq (chain : Chain) :
    chain.actions = chain.branches.map Branch.action ++ [chain.lastAction] := by
  induction chain with
  | otherwise action => rfl
  | branch first rest ih =>
      rw [actions, branches, lastAction, ih]
      simp

theorem length_actions (chain : Chain) : chain.actions.length = chain.guards.length + 1 := by
  rw [actions_eq, guards]
  simp

theorem conditions_eq (chain : Chain) : chain.conditions = chain.guards.flatMap Group.leaves := by
  induction chain with
  | otherwise action => rfl
  | branch first rest ih => rw [conditions, ih, guards_branch, List.flatMap_cons]

section

variable {test : Comparison → Except ε Bool} {chain other : Chain} {place : Nat} {guard : Group}
  {action : Action}

theorem select_branch_of_not_holds {first : Branch} (hfirst : first.guard.evaluate test = .ok false)
    (rest : Chain) : (branch first rest).select test = rest.select test := by
  rw [select, hfirst]
  rfl

/-- The first guard that holds or fails settles what is selected. -/
theorem select_of_decided (hguard : chain.guards[place]? = some guard)
    (haction : chain.actions[place]? = some action)
    (hbefore : ∀ earlier ∈ chain.guards.take place, earlier.evaluate test = .ok false)
    (hdecides : guard.evaluate test ≠ .ok false) :
    chain.select test = (guard.evaluate test).map fun _ => action := by
  induction chain generalizing place with
  | otherwise last => simp [guards, branches] at hguard
  | branch first rest ih =>
      cases place with
      | zero =>
          obtain rfl : first.guard = guard := Option.some.inj hguard
          obtain rfl : first.action = action := Option.some.inj haction
          rw [select]
          rcases hresult : first.guard.evaluate test with error | _ | _
          · rfl
          · exact absurd hresult hdecides
          · rfl
      | succ place =>
          rw [guards_branch, List.take_succ_cons, List.forall_mem_cons] at hbefore
          rw [select_branch_of_not_holds hbefore.1]
          exact ih hguard haction hbefore.2

theorem select_of_none_holds (hnone : ∀ guard ∈ chain.guards, guard.evaluate test = .ok false) :
    chain.select test = .ok chain.lastAction := by
  induction chain with
  | otherwise last => rfl
  | branch first rest ih =>
      rw [guards_branch, List.forall_mem_cons] at hnone
      rw [select_branch_of_not_holds hnone.1, lastAction]
      exact ih hnone.2

/-- Lists that begin alike have the same member at the last place where they do. -/
theorem getElem?_eq_of_take_eq {α : Type} {left right : List α}
    (hsame : left.take (place + 1) = right.take (place + 1)) : left[place]? = right[place]? := by
  have hplace := congrArg (fun list : List α => list[place]?) hsame
  simpa [List.getElem?_take] using hplace

theorem take_eq_of_take_succ_eq {α : Type} {left right : List α}
    (hsame : left.take (place + 1) = right.take (place + 1)) :
    left.take place = right.take place := by
  have hshorter := congrArg (List.take place) hsame
  simpa [List.take_take] using hshorter

/-- What stands after the guard that settles the selection does not matter. -/
theorem select_eq_of_take_eq (hguard : chain.guards[place]? = some guard)
    (haction : chain.actions[place]? = some action)
    (hbefore : ∀ earlier ∈ chain.guards.take place, earlier.evaluate test = .ok false)
    (hdecides : guard.evaluate test ≠ .ok false)
    (hguards : other.guards.take (place + 1) = chain.guards.take (place + 1))
    (hactions : other.actions.take (place + 1) = chain.actions.take (place + 1)) :
    other.select test = chain.select test := by
  have hotherGuard := (getElem?_eq_of_take_eq hguards).trans hguard
  have hotherAction := (getElem?_eq_of_take_eq hactions).trans haction
  rw [select_of_decided hguard haction hbefore hdecides]
  rw [← take_eq_of_take_succ_eq hguards] at hbefore
  exact select_of_decided hotherGuard hotherAction hbefore hdecides

end

end Chain

namespace Clause

def guards (clause : Clause) : List Group := clause.toChain.guards

/-- A clause selects the action of the first guard that holds, or else the last action. It fails as
the first guard does that fails before any holds, and looks no further than it needs to. -/
theorem select_first_guard (clause : Clause) (nullDate : Date) (responses : Responses) :
    let test := Comparison.evaluate nullDate responses
    (∀ place guard action, clause.guards[place]? = some guard →
        clause.actions[place]? = some action →
        (∀ earlier ∈ clause.guards.take place, earlier.evaluate test = .ok false) →
        (guard.evaluate test = .ok true → clause.select test = .ok action) ∧
          (∀ error, guard.evaluate test = .error error → clause.select test = .error error) ∧
          (guard.evaluate test ≠ .ok false → ∀ other : Clause,
            other.guards.take (place + 1) = clause.guards.take (place + 1) →
            other.actions.take (place + 1) = clause.actions.take (place + 1) →
            other.select test = clause.select test)) ∧
      (∀ action, clause.actions[clause.guards.length]? = some action →
        (∀ guard ∈ clause.guards, guard.evaluate test = .ok false) →
        clause.select test = .ok action) ∧
      clause.actions.length = clause.guards.length + 1 ∧
      clause.conditions = clause.guards.flatMap Group.leaves := by
  intro test
  refine ⟨?_, ?_, clause.toChain.length_actions, clause.toChain.conditions_eq⟩
  · intro place guard action hguard haction hbefore
    have hdecided := Chain.select_of_decided hguard haction hbefore
    refine ⟨fun hholds => ?_, fun error hfails => ?_, fun hdecides other hguards hactions => ?_⟩
    · rw [hholds] at hdecided
      exact hdecided (by simp)
    · rw [hfails] at hdecided
      exact hdecided (by simp)
    · exact Chain.select_eq_of_take_eq hguard haction hbefore hdecides hguards hactions
  · intro action haction hnone
    have hlast : clause.actions[clause.guards.length]? = some clause.toChain.lastAction := by
      have hactions : clause.actions =
          clause.toChain.branches.map Branch.action ++ [clause.toChain.lastAction] :=
        clause.toChain.actions_eq
      rw [hactions, List.getElem?_append_right (by simp [guards, Chain.guards])]
      simp [guards, Chain.guards]
    obtain rfl := Option.some.inj (hlast.symm.trans haction)
    exact Chain.select_of_none_holds hnone

theorem select_first_guard_pets :
    let responses : Responses := .ofList [("pet", { answer := .text "dog" })]
    let test := Comparison.evaluate .epoch responses
    let is (pet : String) : Group :=
      ⟨none, .and, [.leaf { operator := .eq, key := some "pet", operand := some pet }]⟩
    let fails : Group :=
      ⟨none, .or, [.leaf { operator := .after, key := some "pet", operand := some "2024-01-01" }]⟩
    let clause : Clause :=
      ⟨{ guard := is "cat", action := .push ["cats"] },
        .branch { guard := is "dog", action := .push ["dogs"] }
          (.branch { guard := fails, action := .endInterview } (.otherwise .doNothing))⟩
    let shorter : Clause :=
      ⟨{ guard := is "cat", action := .push ["cats"] },
        .branch { guard := is "dog", action := .push ["dogs"] } (.otherwise .endInterview)⟩
    let failing : Clause :=
      ⟨{ guard := is "cat", action := .push ["cats"] },
        .branch { guard := fails, action := .endInterview } (.otherwise .doNothing)⟩
    let unmatched : Clause := { first := { guard := is "cat", action := .push ["cats"] } }
    clause.select test = .ok (.push ["dogs"]) ∧ shorter.select test = clause.select test ∧
      failing.select test = .error (.invalidDate "dog") ∧
      unmatched.select test = .ok .doNothing := by
  intro responses test is fails clause shorter failing unmatched
  have hcat : (is "cat").evaluate test = .ok false := by rfl
  have hdog : (is "dog").evaluate test = .ok true := by rfl
  have hfails : fails.evaluate test = .error (.invalidDate "dog") := by
    decide +kernel +zetaReduce
  have hbefore : ∀ earlier ∈ [is "cat"], earlier.evaluate test = .ok false := by
    simpa using hcat
  obtain ⟨hselect, -, hsame⟩ :=
    (select_first_guard clause .epoch responses).1 1 (is "dog") (.push ["dogs"]) rfl rfl hbefore
  obtain ⟨-, herror, -⟩ :=
    (select_first_guard failing .epoch responses).1 1 fails .endInterview rfl rfl hbefore
  have hlast := (select_first_guard unmatched .epoch responses).2.1 .doNothing rfl hbefore
  refine ⟨hselect hdog, hsame ?_ shorter rfl rfl, herror _ hfails, hlast⟩
  rw [hdog]
  simp

end Clause

end BranchingInterview
