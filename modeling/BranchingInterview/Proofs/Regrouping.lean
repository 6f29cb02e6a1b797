import BranchingInterview.Proofs.Groups
import Mathlib.Logic.Relation

/-!
Groups within groups. A group among the conditions of a group of its own kind may give way to its
conditions, and a group with one condition to that condition: evaluation meets the same comparisons in
the same order, and returns the same value or fails with the same error.
-/

namespace BranchingInterview

variable {ε : Type}

namespace Formula

/-- At one position a group has given way to what it holds. -/
inductive Regrouped : Formula → Formula → Prop
  | spliced {id inner : Option String} {kind : GroupKind} {before conditions after : List Formula} :
      Regrouped (group id kind (before ++ group inner kind conditions :: after))
        (group id kind (before ++ conditions ++ after))
  | unwrapped {id : Option String} {kind : GroupKind} {condition : Formula} :
      Regrouped (group id kind [condition]) condition
  | inside {id : Option String} {kind : GroupKind} {before after : List Formula}
      {condition other : Formula} (hchild : Regrouped condition other) :
      Regrouped (group id kind (before ++ condition :: after))
        (group id kind (before ++ other :: after))

theorem leavesOfAll_append (first rest : List Formula) :
    leavesOfAll (first ++ rest) = leavesOfAll first ++ leavesOfAll rest := by
  rw [leavesOfAll_eq_flatMap, leavesOfAll_eq_flatMap, leavesOfAll_eq_flatMap, List.flatMap_append]

theorem Regrouped.leaves_eq {formula other : Formula} (hregrouped : formula.Regrouped other) :
    other.leaves = formula.leaves := by
  induction hregrouped with
  | spliced =>
      rw [leaves, leaves, List.append_assoc, leavesOfAll_append, leavesOfAll_append,
        leavesOfAll_append, leavesOfAll, leaves]
  | unwrapped => rw [leaves, leavesOfAll, leavesOfAll, List.append_nil]
  | inside hchild ih =>
      rw [leaves, leaves, leavesOfAll_append, leavesOfAll_append, leavesOfAll, leavesOfAll, ih]

section

variable (test : Comparison → Except ε Bool) (kind : GroupKind)

/-- The conditions of a group decide it, or leave it to the conditions after them. -/
theorem evaluateAll_append (first rest : List Formula) :
    evaluateAll test kind (first ++ rest) =
      evaluateAll test kind first >>= fun value =>
        if value = kind.neutral then evaluateAll test kind rest else .ok (!kind.neutral) := by
  induction first with
  | nil => exact (if_pos rfl).symm
  | cons condition first ih =>
      rw [List.cons_append, evaluateAll, evaluateAll, ih]
      cases condition.evaluate test with
      | error error => rfl
      | ok value =>
          simp only [bind, Except.bind]
          by_cases hneutral : value = kind.neutral
          · rw [if_pos hneutral, if_pos hneutral]
          · rw [if_neg hneutral, if_neg hneutral]
            exact (if_neg (Bool.not_not_eq.2 rfl)).symm

theorem evaluateAll_singleton (condition : Formula) :
    evaluateAll test kind [condition] = condition.evaluate test := by
  rw [evaluateAll]
  cases condition.evaluate test with
  | error error => rfl
  | ok value =>
      change (if value = kind.neutral then Except.ok kind.neutral else .ok (!kind.neutral)) = .ok value
      by_cases hneutral : value = kind.neutral
      · rw [if_pos hneutral, hneutral]
      · rw [if_neg hneutral, Bool.eq_not.2 hneutral]

theorem evaluateAll_splice (inner : Option String) (before conditions after : List Formula) :
    evaluateAll test kind (before ++ group inner kind conditions :: after) =
      evaluateAll test kind (before ++ conditions ++ after) := by
  have hgroup : evaluateAll test kind (group inner kind conditions :: after) =
      evaluateAll test kind (conditions ++ after) := by
    rw [evaluateAll, evaluate, evaluateAll_append]
  rw [List.append_assoc, evaluateAll_append, evaluateAll_append test kind before, hgroup]

theorem evaluateAll_replace {condition other : Formula}
    (hsame : other.evaluate test = condition.evaluate test) (before after : List Formula) :
    evaluateAll test kind (before ++ other :: after) =
      evaluateAll test kind (before ++ condition :: after) := by
  have hcondition : evaluateAll test kind (other :: after) =
      evaluateAll test kind (condition :: after) := by
    rw [evaluateAll, evaluateAll, hsame]
  rw [evaluateAll_append, evaluateAll_append test kind before, hcondition]

end

theorem Regrouped.evaluate_eq {formula other : Formula} (hregrouped : formula.Regrouped other)
    (test : Comparison → Except ε Bool) : other.evaluate test = formula.evaluate test := by
  induction hregrouped with
  | spliced => exact (evaluateAll_splice test _ _ _ _ _).symm
  | unwrapped => exact (evaluateAll_singleton test _ _).symm
  | inside hchild ih => exact evaluateAll_replace test _ ih _ _

section

variable {formula other : Formula} (hregrouped : Relation.ReflTransGen Regrouped formula other)

include hregrouped

theorem leaves_eq_of_reflTransGen : other.leaves = formula.leaves := by
  induction hregrouped with
  | refl => rfl
  | tail hbefore hstep ih => exact hstep.leaves_eq.trans ih

theorem evaluate_eq_of_reflTransGen (test : Comparison → Except ε Bool) :
    other.evaluate test = formula.evaluate test := by
  induction hregrouped with
  | refl => rfl
  | tail hbefore hstep ih => exact (hstep.evaluate_eq test).trans ih

end

end Formula

namespace Group

/-- Groups that give way to what they hold, at any positions and one after the other, take nothing from
the leaves and change neither what a group returns nor how it fails. -/
theorem evaluate_of_regrouped {group other : Group}
    (hregrouped : Relation.ReflTransGen Formula.Regrouped group.toFormula other.toFormula) :
    other.leaves = group.leaves ∧
      ∀ nullDate responses, other.evaluate (Comparison.evaluate nullDate responses) =
        group.evaluate (Comparison.evaluate nullDate responses) := by
  have hleaves : other.toFormula.leaves = group.toFormula.leaves :=
    Formula.leaves_eq_of_reflTransGen hregrouped
  have hevaluate (test : Comparison → Except ScriptError Bool) :
      other.toFormula.evaluate test = group.toFormula.evaluate test :=
    Formula.evaluate_eq_of_reflTransGen hregrouped test
  exact ⟨hleaves, fun nullDate responses => hevaluate _⟩

/-- A group without conditions, one with a single condition two levels down, and the group around
that one, in front of a condition that fails. -/
theorem evaluate_of_regrouped_nested :
    let responses : Responses := .ofList [("q", { answer := .text "soon" })]
    let holds : Comparison := { operator := .isNotEmpty, key := some "q" }
    let misses : Comparison := { operator := .isEmpty, key := some "q" }
    let fails : Comparison := { operator := .after, key := some "q", operand := some "2024-01-01" }
    let nested : Group := ⟨none, .or, [.leaf misses, .group (some "empty") .or [],
      .group none .and [.group none .and [.group none .or [.leaf holds], .leaf fails],
        .leaf misses]]⟩
    let flat : Group :=
      ⟨none, .or, [.leaf misses, .group none .and [.leaf holds, .leaf fails, .leaf misses]]⟩
    Relation.ReflTransGen Formula.Regrouped nested.toFormula flat.toFormula ∧
      flat.leaves = [misses, holds, fails, misses] ∧
      flat.evaluate (Comparison.evaluate .epoch responses) = .error (.invalidDate "soon") := by
  intro responses holds misses fails nested flat
  let wrapped : Formula := .group none .or [.leaf holds]
  let around (condition : Formula) : Formula :=
    .group none .and [.group none .and [condition, .leaf fails], .leaf misses]
  have hempty : nested.toFormula.Regrouped (.group none .or [.leaf misses, around wrapped]) :=
    @Formula.Regrouped.spliced none (some "empty") .or [.leaf misses] [] [around wrapped]
  have hwrapped : (around wrapped).Regrouped (around (.leaf holds)) :=
    @Formula.Regrouped.inside none .and [] [.leaf misses] _ _
      (@Formula.Regrouped.inside none .and [] [.leaf fails] _ _ .unwrapped)
  have haround : (around (.leaf holds)).Regrouped
      (.group none .and [.leaf holds, .leaf fails, .leaf misses]) :=
    @Formula.Regrouped.spliced none none .and [] [.leaf holds, .leaf fails] [.leaf misses]
  have hinside {condition other : Formula} (hchild : condition.Regrouped other) :
      (Formula.group none .or [.leaf misses, condition]).Regrouped
        (.group none .or [.leaf misses, other]) :=
    @Formula.Regrouped.inside none .or [.leaf misses] [] _ _ hchild
  have hregrouped : Relation.ReflTransGen Formula.Regrouped nested.toFormula flat.toFormula :=
    ((Relation.ReflTransGen.single hempty).tail (hinside hwrapped)).tail (hinside haround)
  have hnested : nested.evaluate (Comparison.evaluate .epoch responses) =
      .error (.invalidDate "soon") := by decide +kernel +zetaReduce
  obtain ⟨hleaves, hevaluate⟩ := evaluate_of_regrouped hregrouped
  exact ⟨hregrouped, hleaves.trans rfl, (hevaluate .epoch responses).trans hnested⟩

end Group

end BranchingInterview
