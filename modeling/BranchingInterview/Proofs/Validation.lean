import BranchingInterview.Turn

/-!
What a valid interview promises: its starting screens exist, its candidates are complete, and they
push screens that exist.
-/

namespace BranchingInterview

variable {α β ε : Type}

theorem check_bind_eq_ok_iff {check : Except ε Unit} {next : Unit → Except ε β} {result : β} :
    (check >>= next) = .ok result ↔ check = .ok () ∧ next () = .ok result := by
  cases check with
  | error error =>
      constructor
      · intro hresult
        cases hresult
      · rintro ⟨hcheck, -⟩
        cases hcheck
  | ok _ => exact ⟨fun hnext => ⟨rfl, hnext⟩, And.right⟩

theorem forM_eq_ok_iff {items : List α} {check : α → Except ε Unit} :
    items.forM check = .ok () ↔ ∀ item ∈ items, check item = .ok () := by
  induction items with
  | nil => exact ⟨fun _ _ hmem => absurd hmem List.not_mem_nil, fun _ => rfl⟩
  | cons item rest ih =>
      rw [List.forM, check_bind_eq_ok_iff, List.forall_mem_cons, ← ih]

theorem Action.validate_eq (action : Action) :
    action.validate = if action = .push [] then .error .emptyPush else .ok () := by
  rcases action with (_ | ⟨id, ids⟩) | _ | _ | _ | _ | _ | _ <;> simp [validate]

/-- The ids of the screens that an action asks for. -/
def Action.targets : Action → List String
  | push ids => ids
  | _ => []

/-- A script finds a screen for an id just if the interview has one. -/
theorem isSome_findScreen? (interview : Interview) (id : String) :
    (findScreen? interview.screens id).isSome = interview.hasScreen id := by
  rw [Bool.eq_iff_iff, findScreen?, List.find?_isSome, Interview.hasScreen, List.any_eq_true]
  simp only [List.mem_reverse]

namespace Interview

variable {interview : Interview}

theorem validateScreens_eq_ok_iff {referrer : String} {ids : List String} :
    interview.validateScreens referrer ids = .ok () ↔ ∀ id ∈ ids, interview.hasScreen id := by
  have hnone : ids.find? (fun id => !interview.hasScreen id) = none ↔
      ∀ id ∈ ids, interview.hasScreen id := by
    simp only [List.find?_eq_none, Bool.not_eq_true', Bool.not_eq_false]
  rw [← hnone, validateScreens]
  cases ids.find? fun id => !interview.hasScreen id with
  | none => exact ⟨fun _ => rfl, fun _ => rfl⟩
  | some id =>
      constructor
      · intro hok
        cases hok
      · intro hnone
        cases hnone

theorem validateCandidate_eq_ok_iff {screen : String} {candidate : Candidate} :
    interview.validateCandidate screen candidate = .ok () ↔
      candidate.validate = .ok () ∧ ∀ id ∈ candidate.action.targets, interview.hasScreen id := by
  rw [validateCandidate, check_bind_eq_ok_iff]
  refine and_congr_right fun _ => ?_
  cases candidate.action with
  | push ids => exact validateScreens_eq_ok_iff
  | _ => exact iff_of_true rfl fun _ hid => absurd hid List.not_mem_nil

theorem validate_eq_ok_iff :
    interview.validate = .ok () ↔
      (∀ id ∈ interview.startingIds, interview.hasScreen id) ∧
        ∀ entry ∈ interview.actions.entries, ∀ candidate ∈ entry.2,
          interview.validateCandidate entry.1 candidate = .ok () := by
  rw [validate, check_bind_eq_ok_iff, validateScreens_eq_ok_iff]
  simp only [forM_eq_ok_iff]

theorem validateCandidate_of_mem_actionsFor (hvalid : interview.validate = .ok ())
    {screen : String} {candidate : Candidate} (hmem : candidate ∈ interview.actionsFor screen) :
    interview.validateCandidate screen candidate = .ok () := by
  rw [actionsFor] at hmem
  cases hfound : interview.actions.get? screen with
  | none =>
      rw [hfound] at hmem
      exact absurd hmem List.not_mem_nil
  | some candidates =>
      rw [hfound] at hmem
      exact (validate_eq_ok_iff.1 hvalid).2 _ (mem_of_lookupEntry hfound) candidate hmem

end Interview

end BranchingInterview
