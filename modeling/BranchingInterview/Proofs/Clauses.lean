import BranchingInterview.Proofs.Branches
import BranchingInterview.Proofs.SoleAlways
import BranchingInterview.Proofs.Unanswered

/-!
What validation finds in a clause, and what it promises of its run. The place of `alwaysExecute` is
looked at before anything else, then each comparison of the chain from left to right, then its
actions. A clause that passes selects no empty push, and evaluates no comparison without a key
unless that is all there is in it.
-/

namespace BranchingInterview

variable {α ε : Type}

/-- Checking items one after the other gives what the first one gives that does not pass. -/
theorem forM_eq_find? (check : α → Except ε Unit) (items : List α) :
    items.forM check =
      match items.find? fun item => !(check item).isOk with
      | some item => check item
      | none => .ok () := by
  induction items with
  | nil => rfl
  | cons item rest ih =>
      rw [List.forM, ih]
      cases hitem : check item with
      | error error =>
          rw [List.find?_cons_of_pos (by rw [hitem]; rfl)]
          exact hitem.symm
      | ok _ =>
          rw [List.find?_cons_of_neg (by rw [hitem]; simp [Except.isOk, Except.toBool])]
          rfl

theorem Action.forM_validate (actions : List Action) :
    actions.forM validate = if .push [] ∈ actions then .error .emptyPush else .ok () := by
  induction actions with
  | nil => rfl
  | cons action rest ih =>
      rw [List.forM, ih, validate_eq]
      by_cases hempty : action = .push []
      · simp [hempty]
        rfl
      · have hother : ¬Action.push [] = action := fun heq => hempty heq.symm
        simp only [List.mem_cons, hother, hempty, false_or, if_false]
        rfl

theorem validateAlways_eq (conditions : List Comparison) :
    validateAlways conditions =
      if conditions.tail.any (·.operator = .alwaysExecute) then .error .nestedAlways
      else if conditions.head?.map Comparison.operator = some .alwaysExecute ∧
          1 < conditions.length then .error .alwaysNotAlone
      else .ok () := by
  cases conditions with
  | nil => rfl
  | cons first rest =>
      have halone : (first.operator == .alwaysExecute && !rest.isEmpty) = true ↔
          ((first :: rest).head?.map Comparison.operator = some .alwaysExecute ∧
            1 < (first :: rest).length) := by
        cases rest <;> simp
      rw [validateAlways]
      exact if_congr Iff.rfl rfl (if_congr halone rfl rfl)

namespace Formula

variable {test other : Comparison → Except ε Bool}

theorem mem_reachedOfAll {kind : GroupKind} {condition : Formula} {rest : List Formula}
    {comparison : Comparison} (hmem : comparison ∈ condition.reached test) :
    comparison ∈ reachedOfAll test kind (condition :: rest) := by
  rw [reachedOfAll]
  split
  · exact hmem
  · split
    · exact List.mem_append_left _ hmem
    · exact hmem

mutual

/-- Only leaves are evaluated. -/
theorem reached_subset : ∀ formula : Formula, formula.reached test ⊆ formula.leaves
  | leaf _ => List.Subset.refl _
  | group _ kind conditions => reachedOfAll_subset kind conditions

theorem reachedOfAll_subset (kind : GroupKind) : ∀ conditions : List Formula,
    reachedOfAll test kind conditions ⊆ leavesOfAll conditions
  | [] => List.Subset.refl _
  | condition :: rest => by
      have hfirst := List.Subset.trans (reached_subset condition)
        (List.subset_append_left condition.leaves (leavesOfAll rest))
      have hrest := List.Subset.trans (reachedOfAll_subset kind rest)
        (List.subset_append_right condition.leaves (leavesOfAll rest))
      rw [reachedOfAll, leavesOfAll]
      split
      · exact hfirst
      · split
        · exact List.append_subset.2 ⟨hfirst, hrest⟩
        · exact hfirst

end

mutual

/-- Leaves that are not evaluated do not matter. -/
theorem evaluate_of_reached : ∀ formula : Formula,
    (∀ comparison ∈ formula.reached test, other comparison = test comparison) →
      formula.evaluate other = formula.evaluate test
  | leaf _, hsame => hsame _ List.mem_cons_self
  | group _ kind conditions, hsame => evaluateAll_of_reached kind conditions hsame

theorem evaluateAll_of_reached (kind : GroupKind) : ∀ conditions : List Formula,
    (∀ comparison ∈ reachedOfAll test kind conditions, other comparison = test comparison) →
      evaluateAll other kind conditions = evaluateAll test kind conditions
  | [], _ => rfl
  | condition :: rest, hsame => by
      have hfirst := evaluate_of_reached condition fun comparison hmem =>
        hsame comparison (mem_reachedOfAll hmem)
      rw [evaluateAll, evaluateAll, hfirst]
      cases hvalue : condition.evaluate test with
      | error error => rfl
      | ok value =>
          by_cases hneutral : value = kind.neutral
          · rw [reachedOfAll, hvalue] at hsame
            simp only [hneutral, if_true] at hsame
            rw [evaluateAll_of_reached kind rest fun comparison hmem =>
              hsame comparison (List.mem_append_right _ hmem)]
          · change (if value = kind.neutral then _ else _) = if value = kind.neutral then _ else _
            rw [if_neg hneutral, if_neg hneutral]

end

end Formula

namespace Chain

variable {test other : Comparison → Except ε Bool}

theorem reached_subset (chain : Chain) : chain.reached test ⊆ chain.conditions := by
  induction chain with
  | otherwise action => exact List.Subset.refl _
  | branch first rest ih =>
      have hguard : first.guard.reached test ⊆ first.guard.leaves :=
        Formula.reachedOfAll_subset first.guard.kind first.guard.conditions
      have hfirst := List.Subset.trans hguard
        (List.subset_append_left first.guard.leaves rest.conditions)
      have hrest := List.Subset.trans ih
        (List.subset_append_right first.guard.leaves rest.conditions)
      rw [reached, conditions]
      split
      · exact List.append_subset.2 ⟨hfirst, hrest⟩
      · exact List.append_subset.2 ⟨hfirst, List.nil_subset _⟩

theorem select_of_reached {chain : Chain}
    (hsame : ∀ comparison ∈ chain.reached test, other comparison = test comparison) :
    chain.select other = chain.select test := by
  induction chain with
  | otherwise action => rfl
  | branch first rest ih =>
      rw [reached, List.forall_mem_append] at hsame
      have hguard : first.guard.evaluate other = first.guard.evaluate test :=
        Formula.evaluateAll_of_reached first.guard.kind first.guard.conditions hsame.1
      rw [select, select, hguard]
      rcases hresult : first.guard.evaluate test with error | _ | _
      · rfl
      · rw [hresult] at hsame
        exact ih hsame.2
      · rfl

theorem mem_actions_of_select {chain : Chain} {action : Action}
    (hselect : chain.select test = .ok action) : action ∈ chain.actions := by
  induction chain with
  | otherwise last =>
      obtain rfl : last = action := Except.ok.inj hselect
      exact List.mem_singleton_self last
  | branch first rest ih =>
      rw [select] at hselect
      rcases hresult : first.guard.evaluate test with error | _ | _
      · rw [hresult] at hselect
        cases hselect
      · rw [hresult] at hselect
        exact List.mem_cons_of_mem _ (ih hselect)
      · rw [hresult] at hselect
        obtain rfl : first.action = action := Except.ok.inj hselect
        exact List.mem_cons_self

end Chain

namespace Clause

/-- The leaves of all guards, from left to right. -/
def leaves (clause : Clause) : List Comparison := clause.guards.flatMap Group.leaves

/-- The actions of all branches and then the one that is left if no guard holds. -/
def outcomes (clause : Clause) : List Action :=
  clause.toChain.branches.map Branch.action ++ [clause.toChain.lastAction]

theorem validate_eq (clause : Clause) :
    clause.validate =
      if clause.leaves.tail.any (·.operator = .alwaysExecute) then .error .nestedAlways
      else if clause.leaves.head?.map Comparison.operator = some .alwaysExecute ∧
          1 < clause.leaves.length then .error .alwaysNotAlone
      else
        match clause.leaves.find? fun leaf => !leaf.validate.isOk with
        | some leaf => leaf.validate
        | none => if .push [] ∈ clause.outcomes then .error .emptyPush else .ok () := by
  have hconditions : clause.conditions = clause.leaves := clause.toChain.conditions_eq
  have hactions : clause.actions = clause.outcomes := clause.toChain.actions_eq
  rw [validate, hconditions, hactions, validateAlways_eq, forM_eq_find?, Action.forM_validate]
  by_cases hnested : clause.leaves.tail.any (·.operator = .alwaysExecute) = true
  · rw [if_pos hnested, if_pos hnested]
    rfl
  · rw [if_neg hnested, if_neg hnested]
    by_cases halone : clause.leaves.head?.map Comparison.operator = some .alwaysExecute ∧
        1 < clause.leaves.length
    · rw [if_pos halone, if_pos halone]
      rfl
    · rw [if_neg halone, if_neg halone]
      cases hfound : clause.leaves.find? fun leaf => !leaf.validate.isOk with
      | none => rfl
      | some leaf =>
          have hfails := List.find?_some hfound
          cases hleaf : leaf.validate with
          | error error =>
              simp only [hleaf]
              rfl
          | ok _ => simp [hleaf, Except.isOk, Except.toBool] at hfails

theorem hasKey_of_reached {clause : Clause} (hvalid : clause.validate = .ok ())
    {test : Comparison → Except ε Bool} {leaf : Comparison} (hreached : leaf ∈ clause.reached test)
    (hkey : leaf.hasKey = false) : leaf.operator = .alwaysExecute ∧ clause.leaves = [leaf] := by
  have hmem : leaf ∈ clause.conditions := clause.toChain.reached_subset hreached
  obtain ⟨-, hleaves, -⟩ := validate_eq_ok_iff.1 hvalid
  have halways : leaf.operator = .alwaysExecute := by
    by_contra hlooks
    rw [Comparison.hasKey_of_validate (hleaves leaf hmem) hlooks] at hkey
    cases hkey
  have hsole := conditions_eq_of_validate hvalid hmem halways
  exact ⟨halways, clause.toChain.conditions_eq.symm.trans hsole⟩

theorem validate_of_select {clause : Clause} (hvalid : clause.validate = .ok ())
    {test : Comparison → Except ε Bool} {action : Action}
    (hselect : clause.select test = .ok action) : action.validate = .ok () := by
  obtain ⟨-, -, hactions⟩ := validate_eq_ok_iff.1 hvalid
  exact hactions action (Chain.mem_actions_of_select hselect)

/-- Validation reports the place of `alwaysExecute`, then the first comparison that lacks something,
then an empty push. A clause that passes selects no empty push for any responses, and of the
comparisons it evaluates, which are all that matter to the selection, none is without a key but one
that holds always and stands alone. -/
theorem validate_and_select (clause : Clause) :
    clause.validate =
        (if clause.leaves.tail.any (·.operator = .alwaysExecute) then .error .nestedAlways
        else if clause.leaves.head?.map Comparison.operator = some .alwaysExecute ∧
            1 < clause.leaves.length then .error .alwaysNotAlone
        else
          match clause.leaves.find? fun leaf => !leaf.validate.isOk with
          | some leaf => leaf.validate
          | none => if .push [] ∈ clause.outcomes then .error .emptyPush else .ok ()) ∧
      ∀ nullDate responses,
        let test := Comparison.evaluate nullDate responses
        (clause.validate = .ok () →
          (∀ action, clause.select test = .ok action → action.validate = .ok ()) ∧
            ∀ leaf ∈ clause.reached test, leaf.hasKey = false →
              leaf.operator = .alwaysExecute ∧ clause.leaves = [leaf]) ∧
          ∀ other : Comparison → Except ScriptError Bool,
            (∀ leaf ∈ clause.reached test, other leaf = test leaf) →
              clause.select other = clause.select test := by
  refine ⟨clause.validate_eq, fun nullDate responses => ⟨fun hvalid => ?_, fun other => ?_⟩⟩
  · exact ⟨fun action => validate_of_select hvalid, fun leaf => hasKey_of_reached hvalid⟩
  · exact Chain.select_of_reached

/-- A dog is told by the second guard, without a look at the date beside it: a date that cannot be
read changes nothing. The same clause is not valid if it ends in an empty push, and a condition that
holds always may stand in groups if it is the only one. -/
theorem validate_and_select_nested :
    let test := Comparison.evaluate .epoch (.ofList [("pet", { answer := .text "dog" })])
    let about (operator : Operator) (operand : String) : Formula :=
      .leaf { operator, key := some "pet", operand := some operand }
    let clause : Clause :=
      ⟨{ guard := ⟨none, .or, [about .eq "cat", .group none .and [about .eq "tiger"]]⟩
         action := .push ["cats"] },
        .branch
          { guard := ⟨none, .and, [.group none .or [about .eq "dog", about .after "2024-01-01"]]⟩
            action := .push ["dogs"] }
          (.otherwise .endInterview)⟩
    let empty : Clause := { clause with rest := .otherwise (.push []) }
    let other (comparison : Comparison) : Except ScriptError Bool :=
      if comparison.operator = .eq then test comparison else .error (.invalidDate "dog")
    let always : Clause :=
      { first := { guard := ⟨none, .and, [.group none .or [.leaf .always]]⟩, action := .skip {} } }
    clause.validate = .ok () ∧ clause.select test = .ok (.push ["dogs"]) ∧
      (Action.push ["dogs"]).validate = .ok () ∧ clause.select other = clause.select test ∧
      empty.validate = .error .emptyPush ∧ always.leaves = [.always] := by
  intro test about clause empty other always
  have hvalid : clause.validate = .ok () := by rfl
  have hselect : clause.select test = .ok (.push ["dogs"]) := by rfl
  have hreached : ∀ leaf ∈ clause.reached test, other leaf = test leaf := by
    intro leaf hmem
    have hreads : leaf.operator = .eq := by
      revert leaf hmem
      decide +kernel +zetaReduce
    exact if_pos hreads
  obtain ⟨hruns, hsame⟩ := (validate_and_select clause).2 .epoch
    (.ofList [("pet", { answer := .text "dog" })])
  obtain ⟨-, hsole⟩ := ((validate_and_select always).2 .epoch {}).1 (by rfl)
  refine ⟨hvalid, hselect, (hruns hvalid).1 _ hselect, hsame other hreached, ?_, ?_⟩
  · exact (validate_and_select empty).1.trans (by rfl)
  · exact (hsole .always (by decide +kernel +zetaReduce) rfl).2

end Clause

end BranchingInterview
