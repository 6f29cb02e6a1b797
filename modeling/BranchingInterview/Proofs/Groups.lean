import BranchingInterview.Formula
import Mathlib.Control.Monad.Basic

/-!
Groups as formulas of AND and OR. Evaluation goes from left to right, stops early, and may fail.
What it returns is the plain value of the formula, whatever truth values the conditions that fail
are given; what it fails with is the error of one condition, and no condition after that one
matters.
-/

namespace BranchingInterview

variable {ε : Type}

namespace GroupKind

/-- The value of a group with conditions of some values. -/
def combine : GroupKind → List Bool → Bool
  | and, values => values.all id
  | or, values => values.any id

theorem combine_nil (kind : GroupKind) : kind.combine [] = kind.neutral := by
  cases kind <;> rfl

theorem combine_cons (kind : GroupKind) (value : Bool) (values : List Bool) :
    kind.combine (value :: values) =
      if value = kind.neutral then kind.combine values else !kind.neutral := by
  cases kind <;> cases value <;> rfl

end GroupKind

/-- Gives the leaf at each position a truth value, which is its own result unless it fails. -/
def Completes (test : Comparison → Except ε Bool) (leaves : List Comparison)
    (assignment : Nat → Bool) : Prop :=
  ∀ position comparison result, leaves[position]? = some comparison →
    test comparison = .ok result → assignment position = result

theorem Completes.left {test : Comparison → Except ε Bool} {first rest : List Comparison}
    {assignment : Nat → Bool} (hcompletes : Completes test (first ++ rest) assignment) :
    Completes test first assignment := by
  intro position comparison result hleaf
  refine hcompletes position comparison result ?_
  have hposition : position < first.length := (List.getElem?_eq_some_iff.1 hleaf).1
  rwa [List.getElem?_append_left hposition]

theorem Completes.right {test : Comparison → Except ε Bool} {first rest : List Comparison}
    {assignment : Nat → Bool} (hcompletes : Completes test (first ++ rest) assignment) :
    Completes test rest fun position => assignment (position + first.length) := by
  intro position comparison result hleaf
  refine hcompletes (position + first.length) comparison result ?_
  rwa [List.getElem?_append_right (Nat.le_add_left _ _), Nat.add_sub_cancel]

namespace Formula

mutual

/-- The plain value, given a truth value for the leaf at each position. -/
def value : (Nat → Bool) → Formula → Bool
  | assignment, leaf _ => assignment 0
  | assignment, group _ kind conditions => kind.combine (valuesOfAll assignment conditions)

def valuesOfAll : (Nat → Bool) → List Formula → List Bool
  | _, [] => []
  | assignment, condition :: rest =>
      condition.value assignment ::
        valuesOfAll (fun position => assignment (position + condition.leaves.length)) rest

end

mutual

/-- Puts a formula in the place of the leaf at each position. -/
def substitute : (Nat → Comparison → Formula) → Formula → Formula
  | choose, leaf comparison => choose 0 comparison
  | choose, group id kind conditions => group id kind (substituteInAll choose conditions)

def substituteInAll : (Nat → Comparison → Formula) → List Formula → List Formula
  | _, [] => []
  | choose, condition :: rest =>
      condition.substitute choose ::
        substituteInAll (fun position => choose (position + condition.leaves.length)) rest

end

/-- The children of groups stand in another order. -/
inductive Rearranged : Formula → Formula → Prop
  | refl (formula : Formula) : Rearranged formula formula
  | children {id : Option String} {kind : GroupKind} {conditions others : List Formula}
      (hperm : conditions.Perm others) :
      Rearranged (group id kind conditions) (group id kind others)
  | inside {id : Option String} {kind : GroupKind} {before after : List Formula}
      {condition other : Formula} (hchild : Rearranged condition other) :
      Rearranged (group id kind (before ++ condition :: after))
        (group id kind (before ++ other :: after))
  | trans {first second third : Formula} (hfirst : Rearranged first second)
      (hsecond : Rearranged second third) : Rearranged first third

section

variable {test : Comparison → Except ε Bool} {kind : GroupKind} {condition : Formula}
  {rest : List Formula}

theorem evaluateAll_cons_eq_ok_iff {result : Bool} :
    evaluateAll test kind (condition :: rest) = .ok result ↔
      (condition.evaluate test = .ok kind.neutral ∧ evaluateAll test kind rest = .ok result) ∨
        (condition.evaluate test = .ok (!kind.neutral) ∧ result = !kind.neutral) := by
  rw [evaluateAll]
  rcases condition.evaluate test with error | value
  · constructor
    · intro hresult
      cases hresult
    · rintro (⟨hvalue, -⟩ | ⟨hvalue, -⟩) <;> cases hvalue
  · change (if value = kind.neutral then evaluateAll test kind rest else .ok (!kind.neutral)) =
      .ok result ↔ _
    by_cases hneutral : value = kind.neutral
    · simp [hneutral]
    · have hother : value = !kind.neutral := Bool.eq_not.2 hneutral
      simp [hother, eq_comm]

theorem evaluateAll_cons_eq_error_iff {error : ε} :
    evaluateAll test kind (condition :: rest) = .error error ↔
      condition.evaluate test = .error error ∨
        (condition.evaluate test = .ok kind.neutral ∧
          evaluateAll test kind rest = .error error) := by
  rw [evaluateAll]
  rcases condition.evaluate test with reason | value
  · constructor
    · intro herror
      cases herror
      exact Or.inl rfl
    · rintro (herror | ⟨hvalue, -⟩)
      · cases herror
        rfl
      · cases hvalue
  · change (if value = kind.neutral then evaluateAll test kind rest else .ok (!kind.neutral)) =
      .error error ↔ _
    by_cases hneutral : value = kind.neutral
    · simp [hneutral]
    · simp [hneutral]

end

section

variable (test : Comparison → Except ε Bool)

mutual

theorem value_of_evaluate : ∀ (formula : Formula) (result : Bool) (assignment : Nat → Bool),
    formula.evaluate test = .ok result → Completes test formula.leaves assignment →
      formula.value assignment = result
  | leaf comparison, result, _, hresult, hcompletes =>
      hcompletes 0 comparison result rfl hresult
  | group _ kind conditions, result, assignment, hresult, hcompletes =>
      combine_of_evaluateAll kind conditions result assignment hresult hcompletes

theorem combine_of_evaluateAll (kind : GroupKind) :
    ∀ (conditions : List Formula) (result : Bool) (assignment : Nat → Bool),
      evaluateAll test kind conditions = .ok result →
        Completes test (leavesOfAll conditions) assignment →
          kind.combine (valuesOfAll assignment conditions) = result
  | [], result, _, hresult, _ => by
      rw [valuesOfAll, kind.combine_nil]
      exact Except.ok.inj hresult
  | condition :: rest, result, assignment, hresult, hcompletes => by
      rw [valuesOfAll, kind.combine_cons]
      rcases evaluateAll_cons_eq_ok_iff.1 hresult with ⟨hfirst, hrest⟩ | ⟨hfirst, hdecided⟩
      · rw [value_of_evaluate condition _ assignment hfirst hcompletes.left, if_pos rfl]
        exact combine_of_evaluateAll kind rest result _ hrest hcompletes.right
      · rw [value_of_evaluate condition _ assignment hfirst hcompletes.left,
          if_neg (by simp), hdecided]

end

end

mutual

/-- Leaves that are put in their own places change nothing. -/
theorem substitute_eq_self : ∀ (formula : Formula) (choose : Nat → Comparison → Formula),
    (∀ position < formula.leaves.length, ∀ comparison,
        choose position comparison = leaf comparison) →
      formula.substitute choose = formula
  | leaf comparison, choose, hchoose => hchoose 0 Nat.one_pos comparison
  | group id kind conditions, choose, hchoose => by
      rw [substitute, substituteInAll_eq_self conditions choose hchoose]

theorem substituteInAll_eq_self :
    ∀ (conditions : List Formula) (choose : Nat → Comparison → Formula),
      (∀ position < (leavesOfAll conditions).length, ∀ comparison,
          choose position comparison = leaf comparison) →
        substituteInAll choose conditions = conditions
  | [], _, _ => rfl
  | condition :: rest, choose, hchoose => by
      rw [leavesOfAll, List.length_append] at hchoose
      have hfirst := substitute_eq_self condition choose fun position hposition =>
        hchoose position (Nat.lt_add_right _ hposition)
      have hrest := substituteInAll_eq_self rest
        (fun position => choose (position + condition.leaves.length)) fun position hposition =>
          hchoose _ (by omega)
      rw [substituteInAll, hfirst, hrest]

end

/-- A leaf fails, and makes a formula fail in the same way whatever stands after it. -/
def FailsAt (test : Comparison → Except ε Bool) (leaves : List Comparison)
    (replaced : (Nat → Comparison → Formula) → Except ε Bool) (error : ε) : Prop :=
  ∃ position comparison, leaves[position]? = some comparison ∧ test comparison = .error error ∧
    ∀ choose : Nat → Comparison → Formula,
      (∀ earlier ≤ position, ∀ comparison, choose earlier comparison = leaf comparison) →
        replaced choose = .error error

section

variable (test : Comparison → Except ε Bool) (error : ε)

mutual

theorem failsAt_of_evaluate : ∀ formula : Formula, formula.evaluate test = .error error →
    FailsAt test formula.leaves (fun choose => (formula.substitute choose).evaluate test) error
  | leaf comparison, herror => by
      refine ⟨0, comparison, rfl, herror, fun choose hchoose => ?_⟩
      have hsame : (leaf comparison).substitute choose = leaf comparison :=
        hchoose 0 Nat.le.refl comparison
      change ((leaf comparison).substitute choose).evaluate test = .error error
      rw [hsame, herror]
  | group _ kind conditions, herror => failsAt_of_evaluateAll kind conditions herror

theorem failsAt_of_evaluateAll (kind : GroupKind) :
    ∀ conditions : List Formula, evaluateAll test kind conditions = .error error →
      FailsAt test (leavesOfAll conditions)
        (fun choose => evaluateAll test kind (substituteInAll choose conditions)) error
  | [], herror => by cases herror
  | condition :: rest, herror => by
      -- Positions count on across the conditions, so those of the rest are shifted.
      rcases evaluateAll_cons_eq_error_iff.1 herror with hfirst | ⟨hfirst, hrest⟩
      · obtain ⟨position, comparison, hleaf, hfails, hafter⟩ :=
          failsAt_of_evaluate condition hfirst
        have hposition : position < condition.leaves.length :=
          (List.getElem?_eq_some_iff.1 hleaf).1
        refine ⟨position, comparison, ?_, hfails, fun choose hchoose => ?_⟩
        · rw [leavesOfAll, List.getElem?_append_left hposition, hleaf]
        · exact evaluateAll_cons_eq_error_iff.2 (Or.inl (hafter choose hchoose))
      · obtain ⟨position, comparison, hleaf, hfails, hafter⟩ :=
          failsAt_of_evaluateAll kind rest hrest
        refine ⟨position + condition.leaves.length, comparison, ?_, hfails,
          fun choose hchoose => ?_⟩
        · rw [leavesOfAll, List.getElem?_append_right (Nat.le_add_left _ _), Nat.add_sub_cancel,
            hleaf]
        · have hsame := substitute_eq_self condition choose fun earlier hearlier =>
            hchoose earlier (by omega)
          have hlater := hafter (fun earlier => choose (earlier + condition.leaves.length))
            fun earlier hearlier => hchoose _ (by omega)
          exact evaluateAll_cons_eq_error_iff.2 (Or.inr ⟨by rw [hsame, hfirst], hlater⟩)

end

end

section

variable {test : Comparison → Except ε Bool} {formula other : Formula}

def AllReturn (test : Comparison → Except ε Bool) (leaves : List Comparison) : Prop :=
  ∀ comparison ∈ leaves, ∃ result, test comparison = .ok result

theorem exists_evaluate_eq_ok (formula : Formula) (hreturn : AllReturn test formula.leaves) :
    ∃ result, formula.evaluate test = .ok result := by
  cases hresult : formula.evaluate test with
  | ok result => exact ⟨result, rfl⟩
  | error error =>
      obtain ⟨position, comparison, hleaf, hfails, -⟩ :=
        failsAt_of_evaluate test error formula hresult
      obtain ⟨result, hreturns⟩ := hreturn comparison (List.mem_of_getElem? hleaf)
      rw [hfails] at hreturns
      cases hreturns

theorem leavesOfAll_eq_flatMap (conditions : List Formula) :
    leavesOfAll conditions = conditions.flatMap leaves := by
  induction conditions with
  | nil => rfl
  | cons condition rest ih => rw [leavesOfAll, List.flatMap_cons, ih]

/-- Without failures the conditions of a group may be evaluated in any order. -/
theorem evaluateAll_perm (kind : GroupKind) {conditions others : List Formula}
    (hperm : conditions.Perm others)
    (hreturn : ∀ condition ∈ conditions, ∃ result, condition.evaluate test = .ok result) :
    evaluateAll test kind others = evaluateAll test kind conditions := by
  induction hperm with
  | nil => rfl
  | cons condition hperm ih =>
      have hrest := ih fun later hlater => hreturn later (List.mem_cons_of_mem _ hlater)
      rw [evaluateAll, evaluateAll, hrest]
  | swap first second rest =>
      obtain ⟨firstResult, hfirst⟩ := hreturn first (by simp)
      obtain ⟨secondResult, hsecond⟩ := hreturn second (by simp)
      simp only [evaluateAll, hfirst, hsecond]
      cases kind <;> cases firstResult <;> cases secondResult <;> rfl
  | trans hfirst hsecond ihFirst ihSecond =>
      have hreturnSecond := fun condition hcondition =>
        hreturn condition (hfirst.mem_iff.2 hcondition)
      rw [ihSecond hreturnSecond, ihFirst hreturn]

theorem Rearranged.leaves_perm (hrearranged : formula.Rearranged other) :
    formula.leaves.Perm other.leaves := by
  induction hrearranged with
  | refl formula => exact List.Perm.refl _
  | children hperm =>
      rw [leaves, leaves, leavesOfAll_eq_flatMap, leavesOfAll_eq_flatMap]
      exact hperm.flatMap_right leaves
  | inside hchild ih =>
      rw [leaves, leaves, leavesOfAll_eq_flatMap, leavesOfAll_eq_flatMap, List.flatMap_append,
        List.flatMap_append, List.flatMap_cons, List.flatMap_cons]
      exact (ih.append_right _).append_left _
  | trans hfirst hsecond ihFirst ihSecond => exact ihFirst.trans ihSecond

theorem Rearranged.evaluate_eq (hrearranged : formula.Rearranged other)
    (hreturn : AllReturn test formula.leaves) : other.evaluate test = formula.evaluate test := by
  induction hrearranged with
  | refl formula => rfl
  | @children id kind conditions others hperm =>
      refine evaluateAll_perm kind hperm fun condition hcondition => ?_
      refine exists_evaluate_eq_ok condition fun comparison hcomparison => hreturn comparison ?_
      rw [leaves, leavesOfAll_eq_flatMap]
      exact List.mem_flatMap_of_mem hcondition hcomparison
  | @inside id kind before after condition other hchild ih =>
      rw [leaves, leavesOfAll_eq_flatMap, List.flatMap_append, List.flatMap_cons] at hreturn
      have hsame := ih fun comparison hcomparison =>
        hreturn comparison (by simp [hcomparison])
      rw [evaluate, evaluate]
      clear hreturn
      induction before with
      | nil => rw [List.nil_append, List.nil_append, evaluateAll, evaluateAll, hsame]
      | cons earlier before ih =>
          rw [List.cons_append, List.cons_append, evaluateAll, evaluateAll, ih]
  | trans hfirst hsecond ihFirst ihSecond =>
      have hsecondReturn := fun comparison hcomparison =>
        hreturn comparison (hfirst.leaves_perm.mem_iff.2 hcomparison)
      rw [ihSecond hsecondReturn, ihFirst hreturn]

end

end Formula

namespace Group

def substitute (choose : Nat → Comparison → Formula) (group : Group) : Group :=
  { group with conditions := Formula.substituteInAll choose group.conditions }

/-- A group returns the plain value of its formula, or the error of a leaf that those after it
cannot prevent. Where no leaf fails, the order of the conditions in its groups does not matter. -/
theorem evaluate_plain_value (group : Group) (nullDate : Date) (responses : Responses) :
    let test := Comparison.evaluate nullDate responses
    (∀ result, group.evaluate test = .ok result →
        ∀ assignment, Completes test group.leaves assignment →
          group.toFormula.value assignment = result) ∧
      (∀ error, group.evaluate test = .error error →
        ∃ position comparison, group.leaves[position]? = some comparison ∧
          test comparison = .error error ∧
          ∀ choose : Nat → Comparison → Formula,
            (∀ earlier ≤ position, ∀ comparison, choose earlier comparison = .leaf comparison) →
              (group.substitute choose).evaluate test = .error error) ∧
      ((∀ comparison ∈ group.leaves, ∃ result, test comparison = .ok result) →
        ∀ assignment, Completes test group.leaves assignment →
          ∀ other : Group, group.toFormula.Rearranged other.toFormula →
            other.evaluate test = .ok (group.toFormula.value assignment)) := by
  intro test
  have hvalue : ∀ result, group.evaluate test = .ok result →
      ∀ assignment, Completes test group.leaves assignment →
        group.toFormula.value assignment = result := by
    intro result hresult assignment hcompletes
    exact Formula.value_of_evaluate test group.toFormula result assignment hresult hcompletes
  refine ⟨hvalue, ?_, ?_⟩
  · intro error herror
    exact Formula.failsAt_of_evaluate test error group.toFormula herror
  · intro hreturn assignment hcompletes other hrearranged
    obtain ⟨result, hresult⟩ := Formula.exists_evaluate_eq_ok group.toFormula hreturn
    rw [hvalue result hresult assignment hcompletes, ← hresult]
    exact hrearranged.evaluate_eq hreturn

theorem evaluate_plain_value_mixed :
    let responses : Responses := .ofList [("q", { answer := .text "soon" })]
    let test := Comparison.evaluate .epoch responses
    let holds : Comparison := { operator := .isNotEmpty, key := some "q" }
    let misses : Comparison := { operator := .isEmpty, key := some "q" }
    let fails : Comparison := { operator := .after, key := some "q", operand := some "2024-01-01" }
    let stopped : Group := ⟨none, .or, [.leaf holds, .group none .and [.leaf fails]]⟩
    let failing : Group := ⟨none, .and, [.group none .or [.leaf misses, .leaf fails], .leaf misses]⟩
    let sound : Group := ⟨none, .and, [.group none .or [.leaf misses, .leaf holds], .leaf holds]⟩
    let turned : Group := ⟨none, .and, [.leaf holds, .group none .or [.leaf holds, .leaf misses]]⟩
    stopped.evaluate test = .ok true ∧
      (∀ assignment, assignment 0 = true → stopped.toFormula.value assignment = true) ∧
      failing.evaluate test = .error (.invalidDate "soon") ∧
      (∃ position : Nat, failing.leaves[position]? = some fails) ∧
      (failing.substitute fun position comparison =>
        .leaf (if position = 2 then .always else comparison)).evaluate test =
          .error (.invalidDate "soon") ∧
      sound.toFormula.Rearranged turned.toFormula ∧ turned.evaluate test = .ok true := by
  intro responses test holds misses fails stopped failing sound turned
  have hholds : test holds = .ok true := by rfl
  have hmisses : test misses = .ok false := by rfl
  have hfails : test fails = .error (.invalidDate "soon") := by decide +kernel +zetaReduce
  have hfailing : failing.evaluate test = .error (.invalidDate "soon") := by
    decide +kernel +zetaReduce
  obtain ⟨position, comparison, hleaf, herror, hafter⟩ :=
    (evaluate_plain_value failing .epoch responses).2.1 _ hfailing
  have hposition : position = 1 := by
    match position with
    | 0 | 2 =>
        cases hleaf
        cases hmisses.symm.trans herror
    | 1 => rfl
  subst hposition
  have hstopped : stopped.evaluate test = .ok true := by rfl
  have hrearranged : sound.toFormula.Rearranged turned.toFormula :=
    .trans (.children (.swap _ _ []))
      (@Formula.Rearranged.inside none .and [.leaf holds] [] _ _ (.children (.swap _ _ [])))
  refine ⟨hstopped, ?_, hfailing, ⟨1, rfl⟩, ?_, hrearranged, ?_⟩
  · intro assignment hassignment
    refine (evaluate_plain_value stopped .epoch responses).1 true hstopped assignment ?_
    intro position comparison result hleaf hresult
    match position with
    | 0 =>
        cases hleaf
        rw [hassignment]
        exact Except.ok.inj (hholds.symm.trans hresult)
    | 1 =>
        cases hleaf
        cases hfails.symm.trans hresult
  · refine hafter _ fun earlier hearlier comparison => ?_
    rw [if_neg (by omega)]
  · refine (evaluate_plain_value sound .epoch responses).2.2 ?_ (fun position => position != 0) ?_
      turned hrearranged
    · intro comparison hcomparison
      rcases List.mem_cons.1 hcomparison with rfl | hcomparison
      · exact ⟨false, hmisses⟩
      · rcases List.mem_cons.1 hcomparison with rfl | hcomparison
        · exact ⟨true, hholds⟩
        · cases List.mem_singleton.1 hcomparison
          exact ⟨true, hholds⟩
    · intro position comparison result hleaf hresult
      match position with
      | 0 =>
          cases hleaf
          exact Except.ok.inj (hmisses.symm.trans hresult)
      | 1 | 2 =>
          cases hleaf
          exact Except.ok.inj (hholds.symm.trans hresult)

end Group

end BranchingInterview
