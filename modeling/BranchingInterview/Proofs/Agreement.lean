import BranchingInterview.Clause
import BranchingInterview.Proofs.Calls
import BranchingInterview.Router.Stack

/-!
What branching depends on: of the responses only the texts that its conditions resolve to. Responses
that agree on these may differ in everything else.
-/

namespace BranchingInterview

variable {σ ε : Type}

/-- Resolves to the same text, or is unanswered, in both. -/
def Comparison.AgreesOn (comparison : Comparison) (left right : Responses) : Prop :=
  comparison.resolve left = comparison.resolve right

namespace Comparison

variable {comparison : Comparison} {left right : Responses}

theorem AgreesOn.evaluate_eq (hagrees : comparison.AgreesOn left right) (nullDate : Date) :
    comparison.evaluate nullDate left = comparison.evaluate nullDate right := by
  rw [evaluate, evaluate, hagrees]

theorem AgreesOn.events_eq (hagrees : comparison.AgreesOn left right) (nullDate : Date) :
    comparison.events nullDate left = comparison.events nullDate right := by
  rw [events, events, hagrees.evaluate_eq nullDate, hagrees]

end Comparison

namespace Formula

variable {test other : Comparison → Except ε Bool}

mutual

theorem evaluate_congr : ∀ formula : Formula,
    (∀ comparison ∈ formula.leaves, test comparison = other comparison) →
      formula.evaluate test = formula.evaluate other
  | leaf comparison, hsame => hsame comparison List.mem_cons_self
  | group _ kind conditions, hsame => evaluateAll_congr kind conditions hsame

theorem evaluateAll_congr (kind : GroupKind) : ∀ conditions : List Formula,
    (∀ comparison ∈ leavesOfAll conditions, test comparison = other comparison) →
      evaluateAll test kind conditions = evaluateAll other kind conditions
  | [], _ => rfl
  | condition :: rest, hsame => by
      rw [leavesOfAll] at hsame
      have hfirst := evaluate_congr condition fun comparison hleaf =>
        hsame comparison (List.mem_append_left _ hleaf)
      have hrest := evaluateAll_congr kind rest fun comparison hleaf =>
        hsame comparison (List.mem_append_right _ hleaf)
      rw [evaluateAll, evaluateAll, hfirst, hrest]

end

end Formula

theorem Chain.select_congr {test other : Comparison → Except ε Bool} {chain : Chain}
    (hsame : ∀ comparison ∈ chain.conditions, test comparison = other comparison) :
    chain.select test = chain.select other := by
  induction chain with
  | otherwise action => rfl
  | branch first rest ih =>
      rw [conditions] at hsame
      have hguard : first.guard.evaluate test = first.guard.evaluate other :=
        Formula.evaluateAll_congr first.guard.kind first.guard.conditions fun comparison hleaf =>
          hsame comparison (List.mem_append_left _ hleaf)
      have hrest := ih fun comparison hleaf => hsame comparison (List.mem_append_right _ hleaf)
      rw [select, select, hguard, hrest]

theorem forM_congr {α : Type} {m : Type → Type} [Monad m] {items : List α} {step other : α → m Unit}
    (hsame : ∀ item ∈ items, step item = other item) : items.forM step = items.forM other := by
  induction items with
  | nil => rfl
  | cons item rest ih =>
      have hrest := ih fun later hlater => hsame later (List.mem_cons_of_mem _ hlater)
      rw [List.forM, List.forM, hsame item List.mem_cons_self, hrest]

theorem Turn.check_congr {comparison : Comparison} {left right : Responses}
    (hagrees : comparison.AgreesOn left right) (context : TurnContext σ) (nullDate : Date) :
    check context nullDate left comparison = check context nullDate right comparison := by
  rw [check, check, hagrees.events_eq nullDate, hagrees.evaluate_eq nullDate]

/-- Responses that agree make the same turn, with the same reports too. -/
theorem Script.process_congr {script : Script} {screen : Screen} {left right : Responses}
    (hagrees : ∀ candidate ∈ script.actionsFor screen.id,
      candidate.condition.AgreesOn left right) (router : Router σ) :
    script.process router screen left = script.process router screen right := by
  let context := script.context router (some screen.id)
  let step (responses : Responses) (candidate : Candidate) : Turn σ Unit := do
    if ← Turn.check context script.settings.nullDate responses candidate.condition then
      Turn.perform context candidate.action
  have hsteps : (script.actionsFor screen.id).forM (step left) =
      (script.actionsFor screen.id).forM (step right) := by
    refine forM_congr fun candidate hcandidate => ?_
    simp only [step]
    rw [Turn.check_congr (hagrees candidate hcandidate)]
  exact congrArg (· >>= fun _ => Turn.send context .next) hsteps

/-- Responses on which the conditions agree have the same effect on turns, groups and chains. -/
theorem branching_congr (left right : Responses) :
    (∀ (σ : Type) (script : Script) (router : Router σ) (state : σ) (screen : Screen),
        (∀ candidate ∈ script.actionsFor screen.id,
          candidate.condition.resolve left = candidate.condition.resolve right) →
        script.reply router state (.process screen left) =
          script.reply router state (.process screen right)) ∧
      (∀ (nullDate : Date) (group : Group),
        (∀ comparison ∈ group.leaves, comparison.resolve left = comparison.resolve right) →
        group.evaluate (Comparison.evaluate nullDate left) =
          group.evaluate (Comparison.evaluate nullDate right)) ∧
      ∀ (nullDate : Date) (clause : Clause),
        (∀ comparison ∈ clause.conditions, comparison.resolve left = comparison.resolve right) →
        clause.select (Comparison.evaluate nullDate left) =
          clause.select (Comparison.evaluate nullDate right) := by
  refine ⟨?_, ?_, ?_⟩
  · intro σ script router state screen hagrees
    rw [Script.reply, Script.reply, Script.process_congr hagrees router.recording]
  · intro nullDate group hagrees
    exact Formula.evaluateAll_congr group.kind group.conditions fun comparison hleaf =>
      Comparison.AgreesOn.evaluate_eq (hagrees comparison hleaf) nullDate
  · intro nullDate clause hagrees
    exact Chain.select_congr fun comparison hleaf =>
      Comparison.AgreesOn.evaluate_eq (hagrees comparison hleaf) nullDate

/-- The answers differ in a field, in their question and in the responses beside them. -/
theorem branching_congr_field :
    let comparison : Comparison :=
      { operator := .eq, key := some "q", field := some "x", operand := some "1" }
    let script : Script :=
      { interview :=
          { screens := [{ id := "a" }, { id := "b" }]
            actions := .ofList [("a", [⟨comparison, .push ["b"]⟩])] } }
    let group : Group := ⟨none, .and, [.group none .or [.leaf comparison]]⟩
    let clause : Clause := ⟨⟨none, group, .endInterview⟩, .otherwise .doNothing⟩
    let left : Responses := .ofList
      [("q", { question := some { id := "e" }
               answer := .record ⟨[("x", .string "1"), ("y", .null)], by decide, by trivial⟩ }),
        ("r", { answer := .text "here" })]
    let right : Responses := .ofList
      [("q",
        { answer := .record ⟨[("x", .string "1"), ("y", .bool true)], by decide, by trivial⟩ })]
    left ≠ right ∧ comparison.resolve left = comparison.resolve right ∧
      script.reply StackRouter.route {} (.process { id := "a" } left) =
        script.reply StackRouter.route {} (.process { id := "a" } right) ∧
      group.evaluate (Comparison.evaluate .epoch left) =
        group.evaluate (Comparison.evaluate .epoch right) ∧
      clause.select (Comparison.evaluate .epoch left) =
        clause.select (Comparison.evaluate .epoch right) := by
  intro comparison script group clause left right
  have hagrees : comparison.resolve left = comparison.resolve right := by decide +kernel +zetaReduce
  obtain ⟨hturn, hgroup, hclause⟩ := branching_congr left right
  refine ⟨by decide +kernel +zetaReduce, hagrees,
    hturn _ script StackRouter.route {} { id := "a" } ?_, hgroup .epoch group ?_,
    hclause .epoch clause ?_⟩
  · intro candidate hcandidate
    cases List.mem_singleton.1 hcandidate
    exact hagrees
  · intro other hleaf
    cases List.mem_singleton.1 hleaf
    exact hagrees
  · intro other hleaf
    cases List.mem_singleton.1 hleaf
    exact hagrees

end BranchingInterview
