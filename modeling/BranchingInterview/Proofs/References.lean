import BranchingInterview.Proofs.Requests

/-!
The screens that an interview refers to: those it starts at, those its actions push, and those its
candidates are attached to. Validation finds the first two kinds wherever they stand and passes over
the third, so a valid interview may hold candidates of a screen that it does not have. No call for a
screen of the interview ever looks at them.
-/

namespace BranchingInterview

variable {σ α : Type}

/-- The entries whose keys pass a test. -/
def KeyMap.restrict (map : KeyMap α) (keeps : String → Bool) : KeyMap α where
  entries := map.entries.filter fun entry => keeps entry.1
  ascending := List.Pairwise.sublist (List.filter_sublist.map Prod.fst) map.ascending

theorem KeyMap.get?_restrict {map : KeyMap α} {keeps : String → Bool} {key : String}
    (hkeeps : keeps key = true) : (map.restrict keeps).get? key = map.get? key := by
  change lookupEntry key (map.entries.filter fun entry => keeps entry.1) =
    lookupEntry key map.entries
  induction map.entries with
  | nil => rfl
  | cons entry rest ih =>
      by_cases hentry : keeps entry.1 = true
      · rw [List.filter_cons, if_pos hentry, lookupEntry_cons, lookupEntry_cons, ih]
      · have hother : entry.1 ≠ key := by
          rintro rfl
          exact hentry hkeeps
        rw [List.filter_cons, if_neg hentry, lookupEntry_cons, if_neg hother, ih]

/-- A host processes only screens of the interview. -/
def Call.KeepsTo (interview : Interview) : Call σ → Prop
  | .process screen _ => interview.hasScreen screen.id
  | _ => True

namespace Interview

/-- The candidates of every screen, in the order in which they are checked. -/
def candidates (interview : Interview) : List Candidate :=
  interview.actions.entries.flatMap Prod.snd

/-- The ids that some candidate pushes. -/
def targets (interview : Interview) : List String :=
  interview.candidates.flatMap fun candidate => candidate.action.targets

/-- The ids of the screens that candidates are attached to. -/
def holders (interview : Interview) : List String :=
  (interview.actions.entries.filter fun entry => !entry.2.isEmpty).map Prod.fst

def references (interview : Interview) : List String :=
  interview.startingIds ++ interview.targets ++ interview.holders

/-- The interview without the candidates of screens that it does not have. -/
def withoutStrays (interview : Interview) : Interview :=
  { interview with actions := interview.actions.restrict interview.hasScreen }

variable {interview : Interview}

theorem actionsFor_withoutStrays {screen : String} (hscreen : interview.hasScreen screen = true) :
    interview.withoutStrays.actionsFor screen = interview.actionsFor screen := by
  rw [actionsFor, actionsFor, withoutStrays, KeyMap.get?_restrict hscreen]

theorem hasScreen_of_mem_holders_withoutStrays {id : String}
    (hmem : id ∈ interview.withoutStrays.holders) : interview.hasScreen id = true := by
  obtain ⟨entry, hentry, rfl⟩ := List.mem_map.1 hmem
  exact (List.mem_filter.1 (List.mem_filter.1 hentry).1).2

/-- Candidates of a screen that the interview does not have change nothing. -/
theorem reply_withoutStrays (settings : Settings) (router : Router σ) (state : σ) {call : Call σ}
    (hcall : call.KeepsTo interview) :
    Script.reply { interview := interview.withoutStrays, settings } router state call =
      Script.reply { interview, settings } router state call := by
  have hplan : Script.callPlan { interview := interview.withoutStrays, settings } call =
      Script.callPlan { interview, settings } call := by
    cases call with
    | setup => rfl
    | process screen responses =>
        rw [Script.callPlan, Script.callPlan, Script.processPlan, Script.processPlan,
          Script.actionsFor, Script.actionsFor, actionsFor_withoutStrays hcall]
        rfl
    | host change => rfl
  rw [Script.reply_eq, Script.reply_eq, hplan]

theorem forall_mem_candidates {property : Candidate → Prop} :
    (∀ candidate ∈ interview.candidates, property candidate) ↔
      ∀ entry ∈ interview.actions.entries, ∀ candidate ∈ entry.2, property candidate := by
  simp only [candidates, List.forall_mem_flatMap]

/-- Where candidates are attached does not matter to whether an interview is valid. -/
theorem validate_eq_ok_iff_candidates :
    interview.validate = .ok () ↔
      (∀ candidate ∈ interview.candidates, candidate.validate = .ok ()) ∧
        ∀ id ∈ interview.startingIds ++ interview.targets, interview.hasScreen id := by
  have htargets : (∀ id ∈ interview.targets, interview.hasScreen id) ↔
      ∀ candidate ∈ interview.candidates,
        ∀ id ∈ candidate.action.targets, interview.hasScreen id := by
    simp only [targets, List.forall_mem_flatMap]
  rw [validate_eq_ok_iff, List.forall_mem_append, htargets]
  simp only [validateCandidate_eq_ok_iff, forall_mem_candidates]
  constructor
  · rintro ⟨hstarting, hcandidates⟩
    exact ⟨fun entry hentry candidate hmem => (hcandidates entry hentry candidate hmem).1,
      hstarting, fun entry hentry candidate hmem => (hcandidates entry hentry candidate hmem).2⟩
  · rintro ⟨hvalid, hstarting, hpushed⟩
    exact ⟨hstarting, fun entry hentry candidate hmem =>
      ⟨hvalid entry hentry candidate hmem, hpushed entry hentry candidate hmem⟩⟩

/-- What validation asks of an interview, and what it leaves open: every reference of a valid
interview is to a screen it has just if the screens that candidates are attached to exist, and the
candidates of the others might as well not be there. -/
theorem validate_references (interview : Interview) :
    (interview.validate = .ok () ↔
        (∀ candidate ∈ interview.candidates, candidate.validate = .ok ()) ∧
          ∀ id ∈ interview.startingIds ++ interview.targets, interview.hasScreen id) ∧
      (interview.validate = .ok () →
        ((∀ id ∈ interview.references, interview.hasScreen id) ↔
          ∀ id ∈ interview.holders, interview.hasScreen id)) ∧
      (∀ id ∈ interview.withoutStrays.holders, interview.hasScreen id) ∧
      ∀ (σ : Type) (settings : Settings) (router : Router σ) (state : σ) (call : Call σ),
        call.KeepsTo interview →
          Script.reply { interview := interview.withoutStrays, settings } router state call =
            Script.reply { interview, settings } router state call := by
  refine ⟨validate_eq_ok_iff_candidates, fun hvalid => ?_,
    fun _ => hasScreen_of_mem_holders_withoutStrays,
    fun _ settings router state _ => reply_withoutStrays settings router state⟩
  have hchecked := (validate_eq_ok_iff_candidates.1 hvalid).2
  rw [references, List.forall_mem_append]
  exact and_iff_right hchecked

/-- The name of a screen is misspelled where its candidate is attached to it. -/
theorem not_hasScreen_references_misspelled :
    let interview : Interview :=
      { screens := [{ id := "s1" }, { id := "s2" }]
        startingState := ["s1"]
        actions := .ofList [("S1", [.always (.push ["s2"])])] }
    interview.validate = .ok () ∧ interview.actionsFor "s1" = [] ∧
      "S1" ∈ interview.holders ∧ interview.hasScreen "S1" = false ∧
      ¬∀ id ∈ interview.references, interview.hasScreen id := by
  intro interview
  have hheld : "S1" ∈ interview.holders := by decide
  have hmissing : interview.hasScreen "S1" = false := by decide
  refine ⟨by rfl, by rfl, hheld, hmissing, fun hscreens => ?_⟩
  have hfound := hscreens "S1" (List.mem_append_right _ hheld)
  rw [hmissing] at hfound
  cases hfound

end Interview

end BranchingInterview
