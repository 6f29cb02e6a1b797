import BranchingInterview.Proofs.Policy
import BranchingInterview.Proofs.Stacks

/-!
Pushing screens. All ids are resolved before anything is sent: under the strict policy an id without
a screen ends the push there and then. The screens found are pushed in reverse, so that the first
one is shown first, until the router rejects one.
-/

namespace BranchingInterview

variable {σ : Type}

/-- A table of screens by their ids. -/
structure ScreenIndex where
  table : KeyMap Screen
  keyed : ∀ id screen, table.get? id = some screen → screen.id = id

namespace ScreenIndex

variable (index : ScreenIndex)

def screens : List Screen := index.table.entries.map Prod.snd

variable {index}

theorem mem_screens_iff {screen : Screen} :
    screen ∈ index.screens ↔ index.table.get? screen.id = some screen := by
  rw [screens, List.mem_map]
  constructor
  · rintro ⟨⟨id, screen⟩, hentry, rfl⟩
    have hfound := KeyMap.get?_eq_some_iff.2 hentry
    rwa [index.keyed id screen hfound]
  · intro hfound
    exact ⟨(screen.id, screen), KeyMap.get?_eq_some_iff.1 hfound, rfl⟩

theorem findScreen?_screens (index : ScreenIndex) (id : String) :
    findScreen? index.screens id = index.table.get? id := by
  cases hfound : findScreen? index.screens id with
  | some screen =>
      have hid := findScreen?_id hfound
      have hmem : screen ∈ index.screens := List.mem_reverse.1 (List.mem_of_find?_eq_some hfound)
      rw [← hid, mem_screens_iff.1 hmem]
  | none =>
      cases hheld : index.table.get? id with
      | none => rfl
      | some screen =>
          have hid := index.keyed id screen hheld
          rw [← hid] at hheld
          have hmem := List.mem_reverse.2 (mem_screens_iff.2 hheld)
          exact absurd (beq_iff_eq.2 hid) (List.find?_eq_none.1 hfound screen hmem)

end ScreenIndex

/-- Strictly, what is missing is the first id that is not found. -/
theorem pushPlan_of_missing {screens : List Screen} {before after : List String} {id : String}
    (hbefore : ∀ earlier ∈ before, (findScreen? screens earlier).isSome)
    (hmissing : findScreen? screens id = none) :
    pushPlan screens .strict (before ++ id :: after) = .fail (.missingScreen id) := by
  have hfirst : firstMissing? screens (before ++ id :: after) = some id := by
    rw [firstMissing?, List.find?_eq_some_iff_append]
    exact ⟨by rw [hmissing]; rfl, before, after, rfl, fun earlier hmem => by
      simpa using hbefore earlier hmem⟩
  simp only [pushPlan, resolution, hfirst]

theorem pushPlan_of_resolved {screens : List Screen} {policy : ScreenPolicy} {ids : List String}
    (hresolved : policy = .lenient ∨ ∀ id ∈ ids, (findScreen? screens id).isSome) :
    pushPlan screens policy ids =
      { commands := (resolvedScreens screens ids).reverse.map .push } := by
  rcases hresolved with rfl | hfound
  · rfl
  · have hnone := firstMissing?_eq_none_iff.2 hfound
    simp only [pushPlan, resolution, hnone]

namespace TurnContext

/-- Pushes screens as a call of its own. -/
def push (context : TurnContext σ) (ids : List String) (state : σ) : Reply × σ :=
  (Turn.pushScreens { context with router := context.router.recording } ids).reply state

theorem push_eq (context : TurnContext σ) (ids : List String) (state : σ) :
    context.push ids state =
      (pushPlan context.screens context.policy ids).reply context.router state := by
  rw [push, Turn.reply, Turn.carriesOut_pushScreens]
  rfl

theorem reply_setup (script : Script) (router : Router σ) (state : σ) :
    script.reply router state .setup =
      (script.context router none).push script.interview.startingIds state := by
  rw [Script.reply_eq, push_eq]
  rfl

theorem result_push_ne_missingScreen {context : TurnContext σ} (hpolicy : context.policy = .lenient)
    (ids : List String) (state : σ) (id : String) :
    (context.push ids state).1.result ≠ .error (.missingScreen id) := by
  rw [push_eq, pushPlan_of_resolved (Or.inl hpolicy)]
  intro hmissing
  have hfailure := Plan.failure_of_execute hmissing (by simp)
  cases hfailure

/-- Under the strict policy the first id that is not found ends a push before anything is sent. In
any other case the screens found are pushed in reverse, up to the first one that the router rejects.
Setting up is a push of the starting screens, and any table of screens can be looked up in. -/
theorem push_reversed (context : TurnContext σ) (ids : List String) (state : σ) :
    (∀ before id after, context.policy = .strict → ids = before ++ id :: after →
        (∀ earlier ∈ before, (findScreen? context.screens earlier).isSome) →
        findScreen? context.screens id = none →
        context.push ids state = (⟨[], .error (.missingScreen id)⟩, state)) ∧
      (context.policy = .lenient ∨ (∀ id ∈ ids, (findScreen? context.screens id).isSome) →
        let pushes := (ids.filterMap (findScreen? context.screens)).reverse.map Command.push
        (∃ after, context.router.sendAll pushes state = (.ok (), after) ∧
            context.push ids state = (⟨pushes, .ok ()⟩, after)) ∨
          ∃ before command rest reached reason after, pushes = before ++ command :: rest ∧
            context.router.sendAll before state = (.ok (), reached) ∧
            context.router command reached = (.error reason, after) ∧
            context.push ids state =
              (⟨before ++ [command], .error (.rejected reason)⟩, after)) ∧
      (context.policy = .lenient →
        ∀ id, (context.push ids state).1.result ≠ .error (.missingScreen id)) ∧
      (∀ script : Script, ∀ router : Router σ, script.reply router state .setup =
        (script.context router none).push script.interview.startingIds state) ∧
      ∀ index : ScreenIndex, ∀ id, findScreen? index.screens id = index.table.get? id := by
  refine ⟨?_, fun hresolved => ?_, ?_, ?_, ScreenIndex.findScreen?_screens⟩
  · rintro before id after hstrict rfl hbefore hmissing
    rw [push_eq, hstrict, pushPlan_of_missing hbefore hmissing]
    rfl
  · intro pushes
    have hplan : pushPlan context.screens context.policy ids = { commands := pushes } :=
      pushPlan_of_resolved hresolved
    rw [push_eq, hplan]
    rcases context.router.accepted_or_rejected pushes state with ⟨after, haccepted⟩ |
      ⟨before, command, rest, reached, reason, after, hsplit, hbefore, hrejects⟩
    · exact Or.inl ⟨after, haccepted, Plan.reply_of_accepted haccepted⟩
    · exact Or.inr ⟨before, command, rest, reached, reason, after, hsplit, hbefore, hrejects,
        Plan.reply_of_rejected hsplit hbefore hrejects⟩
  · exact fun hlenient => result_push_ne_missingScreen hlenient ids state
  · exact fun script router => reply_setup script router state

/-- Of two ids without a screen the first one is named. The lenient policy drops both, and then the
router takes one push only. -/
theorem push_reversed_ghosts :
    let router : Router Nat
      | _, 0 => (.error .stackUnderflow, 0)
      | _, left + 1 => (.ok (), left)
    let context (policy : ScreenPolicy) : TurnContext Nat :=
      { router, screens := [{ id := "a" }, { id := "b" }], policy }
    let ids := ["a", "ghost", "b", "gone", "a"]
    (context .strict).push ids 1 = (⟨[], .error (.missingScreen "ghost")⟩, 1) ∧
      ((context .lenient).push ids 1).1.commands =
        [.push { id := "a" }, .push { id := "b" }] ∧
      ∃ sent reason, (context .lenient).push ids 1 = (⟨sent, .error (.rejected reason)⟩, 0) := by
  intro router context ids
  have hstrict := (push_reversed (context .strict) ids 1).1 ["a"] "ghost" ["b", "gone", "a"] rfl
    rfl (by decide) (by decide)
  refine ⟨hstrict, by rfl, ?_⟩
  rcases (push_reversed (context .lenient) ids 1).2.1 (Or.inl rfl) with ⟨after, haccepted, -⟩ |
    ⟨before, command, rest, reached, reason, after, -, -, -, hreply⟩
  · cases haccepted
  · have hafter : after = 0 := (congrArg Prod.snd hreply).symm
    exact ⟨before ++ [command], reason, hafter ▸ hreply⟩

end TurnContext

end BranchingInterview
