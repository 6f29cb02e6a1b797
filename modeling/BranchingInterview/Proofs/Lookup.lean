import BranchingInterview.Proofs.Requests
import BranchingInterview.Router.Stack
import Mathlib.Data.List.Sigma

/-!
The two ways to look up a screen. An interview takes the first entry with an id, a script the last
one. They find the same entry for every id just if no two entries share one, which validation does
not ask for.
-/

namespace BranchingInterview

variable {α : Type}

/-- The first and the last match are the same one just if there is at most one. -/
theorem find?_reverse_eq_iff {entries : List α} (hentries : entries.Nodup) (test : α → Bool) :
    entries.reverse.find? test = entries.find? test ↔
      ∀ entry ∈ entries, ∀ other ∈ entries, test entry → test other → entry = other := by
  induction entries with
  | nil => simp
  | cons head rest ih =>
      obtain ⟨hhead, hrest⟩ := List.nodup_cons.1 hentries
      rw [List.reverse_cons, List.find?_append]
      by_cases hmatch : test head = true
      · rw [List.find?_cons_of_pos hmatch, List.find?_cons_of_pos hmatch]
        cases hfound : rest.reverse.find? test with
        | none =>
            have honly : ∀ entry ∈ head :: rest, test entry → entry = head := by
              intro entry hentry htest
              refine (List.mem_cons.1 hentry).resolve_right fun hlater => ?_
              exact List.find?_eq_none.1 hfound entry (List.mem_reverse.2 hlater) htest
            refine iff_of_true rfl fun entry hentry other hother htest htestOther => ?_
            rw [honly entry hentry htest, honly other hother htestOther]
        | some later =>
            have hlater : later ∈ rest := List.mem_reverse.1 (List.mem_of_find?_eq_some hfound)
            have hne : later ≠ head := fun heq => hhead (heq ▸ hlater)
            refine iff_of_false (fun hsame => hne (Option.some.inj hsame)) fun hunique => hne ?_
            exact hunique later (List.mem_cons_of_mem head hlater) head List.mem_cons_self
              (List.find?_some hfound) hmatch
      · rw [List.find?_cons_of_neg hmatch, List.find?_cons_of_neg hmatch, List.find?_nil,
          Option.or_none, ih hrest]
        have hrestOnly : ∀ entry ∈ head :: rest, test entry → entry ∈ rest := by
          intro entry hentry htest
          refine (List.mem_cons.1 hentry).resolve_left ?_
          rintro rfl
          exact hmatch htest
        constructor
        · intro hunique entry hentry other hother htest htestOther
          exact hunique entry (hrestOnly entry hentry htest) other
            (hrestOnly other hother htestOther) htest htestOther
        · intro hunique entry hentry other hother
          exact hunique entry (List.mem_cons_of_mem head hentry) other
            (List.mem_cons_of_mem head hother)

/-- The screens of an interview with their places. -/
def Interview.entries (interview : Interview) : List (Screen × Nat) := interview.screens.zipIdx

/-- The entry that an interview finds for an id. -/
def Interview.entryOf? (interview : Interview) (id : String) : Option (Screen × Nat) :=
  interview.entries.find? (·.1.id == id)

/-- The entry that a script finds for an id. -/
def Script.entryOf? (script : Script) (id : String) : Option (Screen × Nat) :=
  script.interview.entries.reverse.find? (·.1.id == id)

namespace Interview

variable (interview : Interview)

theorem map_fst_entries : interview.entries.map Prod.fst = interview.screens :=
  List.zipIdx_map_fst 0 interview.screens

theorem nodup_entries : interview.entries.Nodup :=
  (List.nodup_zipIdx_map_snd interview.screens).of_map Prod.snd

theorem map_fst_entryOf? (id : String) :
    (interview.entryOf? id).map Prod.fst = interview.screen? id := by
  rw [screen?, ← interview.map_fst_entries, List.find?_map]
  rfl

end Interview

namespace Script

variable (script : Script)

theorem map_fst_entryOf? (id : String) :
    (script.entryOf? id).map Prod.fst = script.screen? id := by
  rw [screen?, findScreen?, ← script.interview.map_fst_entries, ← List.map_reverse, List.find?_map]
  rfl

theorem entryOf?_eq_iff :
    (∀ id, script.entryOf? id = script.interview.entryOf? id) ↔
      (script.interview.screens.map Screen.id).Nodup := by
  have hids : script.interview.screens.map Screen.id =
      script.interview.entries.map fun entry => entry.1.id := by
    rw [← script.interview.map_fst_entries, List.map_map]
    rfl
  have hentries := script.interview.nodup_entries
  rw [hids, List.nodup_map_iff_inj_on hentries]
  simp only [entryOf?, Interview.entryOf?, find?_reverse_eq_iff hentries, beq_iff_eq]
  constructor
  · intro hunique entry hentry other hother hid
    exact hunique other.1.id entry hentry other hother hid rfl
  · intro hunique id entry hentry other hother hid hidOther
    exact hunique entry hentry other hother (hid.trans hidOther.symm)

theorem screen?_eq_of_nodup (hnodup : (script.interview.screens.map Screen.id).Nodup)
    (id : String) : script.screen? id = script.interview.screen? id := by
  rw [← script.map_fst_entryOf?, ← script.interview.map_fst_entryOf?,
    script.entryOf?_eq_iff.2 hnodup id]

/-- The lookups of the interview and of the script find the same entry for every id, and every
screen that a call pushes is the one the interview finds for an id the call asks for. -/
structure AgreesOnScreens : Prop where
  entries : ∀ id, script.entryOf? id = script.interview.entryOf? id
  pushes : ∀ (σ : Type) (router : Router σ) (state : σ) (call : Call σ) (screen : Screen),
    .push screen ∈ (script.reply router state call).1.commands →
      ∃ id ∈ script.requests call, script.interview.screen? id = some screen

/-- The two agree under any settings just if no id is that of two screens. -/
theorem agreesOnScreens_iff :
    script.AgreesOnScreens ↔ (script.interview.screens.map Screen.id).Nodup := by
  constructor
  · intro hagrees
    exact script.entryOf?_eq_iff.1 hagrees.entries
  · intro hnodup
    refine ⟨script.entryOf?_eq_iff.2 hnodup, ?_⟩
    intro σ router state call screen hpush
    obtain ⟨id, hid, hfound⟩ := script.exists_request_of_push hpush
    rw [script.screen?_eq_of_nodup hnodup] at hfound
    exact ⟨id, hid, hfound⟩

/-- A valid interview with two screens of one id shows the title of one and pushes the other. -/
theorem not_agreesOnScreens_sharedId :
    let interview : Interview :=
      { screens := [{ id := "a", title := "First" }, { id := "a", title := "Second" }]
        startingState := ["a"] }
    let script : Script := { interview }
    interview.validate = .ok () ∧
      interview.screen? "a" = some { id := "a", title := "First" } ∧
      script.screen? "a" = some { id := "a", title := "Second" } ∧
      (script.reply StackRouter.route {} .setup).1.commands =
        [.push { id := "a", title := "Second" }] ∧
      ¬script.AgreesOnScreens := by
  intro interview script
  refine ⟨by rfl, by rfl, by rfl, by rfl, fun hagrees => ?_⟩
  have hsame := hagrees.entries "a"
  revert hsame
  decide

end Script

end BranchingInterview
