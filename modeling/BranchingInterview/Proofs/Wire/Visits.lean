import BranchingInterview.Proofs.Json.ReadBack
import BranchingInterview.Proofs.Wire.Recovery

/-!
Drafts and the visits that fill them: what is known of a draft when the visits of all parts of a
tree succeed.
-/

namespace BranchingInterview.Wire

variable {α δ : Type} {visit : δ → String → Json → Decoded δ} {start last : δ}

theorem visitMembers_cons_eq_ok_iff {name : String} {value : Json} {rest : List (String × Json)} :
    visitMembers visit start ((name, value) :: rest) = .ok last ↔
      isUnnamed value = false ∧
        ∃ next, visit start name value = .ok next ∧ visitMembers visit next rest = .ok last := by
  rw [visitMembers]
  constructor
  · intro hlast
    cases hnamed : isUnnamed value with
    | true => rw [hnamed] at hlast; cases hlast
    | false =>
        rw [hnamed] at hlast
        cases hnext : visit start name value with
        | error error => rw [hnext] at hlast; cases hlast
        | ok next =>
            rw [hnext] at hlast
            exact ⟨rfl, next, rfl, hlast⟩
  · rintro ⟨hnamed, next, hnext, hlast⟩
    rw [hnamed, hnext]
    exact hlast

theorem visitMembers_preserves (holds : δ → Prop) {members : List (String × Json)}
    (hvisit : ∀ member ∈ members, ∀ draft next, holds draft →
      visit draft member.1 member.2 = .ok next → holds next)
    (hstart : holds start) (hlast : visitMembers visit start members = .ok last) : holds last := by
  induction members generalizing start with
  | nil => cases hlast; exact hstart
  | cons member rest ih =>
      obtain ⟨hmember, hrest⟩ := List.forall_mem_cons.1 hvisit
      obtain ⟨-, next, hnext, hlast⟩ := visitMembers_cons_eq_ok_iff.1 hlast
      exact ih hrest (hmember start next hstart hnext) hlast

theorem visitItems_preserves (holds : δ → Prop) {names : List String} {items surplus : List Json}
    (hvisit : ∀ item ∈ items, ∀ name draft next, holds draft →
      visit draft name item = .ok next → holds next)
    (hstart : holds start) (hlast : visitItems visit start names items = .ok (last, surplus)) :
    holds last := by
  induction items generalizing start names with
  | nil => cases names <;> cases hlast <;> exact hstart
  | cons item rest ih =>
      cases names with
      | nil => cases hlast; exact hstart
      | cons name names =>
          obtain ⟨hitem, hrest⟩ := List.forall_mem_cons.1 hvisit
          rw [visitItems] at hlast
          cases hnext : visit start name item with
          | error error => rw [hnext] at hlast; cases hlast
          | ok next =>
              rw [hnext] at hlast
              exact ih hrest (hitem name start next hstart hnext) hlast

/-- An array lists all fields that are needed, and nothing more. -/
theorem decodeFields_array_eq_ok_iff {origin : Origin} {names : List String}
    {complete : δ → Decoded α} {items : List Json} {value : α} :
    decodeFields origin names visit complete start (.array items) = .ok value ↔
      ∃ draft, visitItems visit start names items = .ok (draft, []) ∧
        complete draft = .ok value := by
  rw [decodeFields]
  cases visitItems visit start names items with
  | error error => exact iff_of_false nofun nofun
  | ok visited =>
      obtain ⟨draft, surplus⟩ := visited
      rw [ok_bind]
      dsimp only
      cases hcomplete : complete draft with
      | error error =>
          refine iff_of_false nofun ?_
          rintro ⟨_, heq, hvalue⟩
          cases heq
          rw [hcomplete] at hvalue
          cases hvalue
      | ok completed =>
          cases surplus with
          | cons item rest => exact iff_of_false nofun nofun
          | nil =>
              refine ⟨fun hvalue => ⟨draft, rfl, hcomplete.trans hvalue⟩, ?_⟩
              rintro ⟨_, heq, hvalue⟩
              cases heq
              exact hcomplete.symm.trans hvalue

/-- What every visit of a part keeps holds of the draft that is completed. -/
theorem exists_draft_of_decodeFields (holds : δ → Prop) {origin : Origin} {names : List String}
    {complete : δ → Decoded α} {json : Json} {value : α}
    (hvisit : ∀ name part draft next, part.depth < json.depth → holds draft →
      visit draft name part = .ok next → holds next)
    (hstart : holds start)
    (hvalue : decodeFields origin names visit complete start json = .ok value) :
    0 < json.depth ∧ ∃ draft, holds draft ∧ complete draft = .ok value := by
  cases json with
  | object members =>
      have hdepth := Json.depthOfMembers_le.1 (Nat.le_refl (Json.depthOfMembers members))
      rw [decodeFields] at hvalue
      cases hdraft : visitMembers visit start members with
      | error error => rw [hdraft] at hvalue; cases hvalue
      | ok draft =>
          rw [hdraft] at hvalue
          refine ⟨Nat.succ_pos _, draft, ?_, hvalue⟩
          exact visitMembers_preserves holds (fun member hmember draft next =>
            hvisit _ _ draft next (Nat.lt_succ_of_le (hdepth member hmember))) hstart hdraft
  | array items =>
      have hdepth := Json.depthOfItems_le.1 (Nat.le_refl (Json.depthOfItems items))
      obtain ⟨draft, hvisited, hvalue⟩ := decodeFields_array_eq_ok_iff.1 hvalue
      refine ⟨Nat.succ_pos _, draft, ?_, hvalue⟩
      exact visitItems_preserves holds (fun item hitem name draft next =>
        hvisit name _ draft next (Nat.lt_succ_of_le (hdepth item hitem))) hstart hvisited
  | null | bool | number | string | flaw => cases hvalue

/-- A visit that fills a place leaves there what it decoded. -/
theorem exists_of_fill {name : String} {place : Option α} {value : Decoded α} {set : Option α → δ}
    (hfill : (fill name place value >>= fun filled => pure (set filled)) = .ok last) :
    ∃ found, value = .ok found ∧ last = set (some found) := by
  cases place with
  | some held => cases hfill
  | none =>
      cases value with
      | error error => cases hfill
      | ok found =>
          cases hfill
          exact ⟨found, rfl, rfl⟩

theorem eq_of_passOver {value : Json} (hpass : passOver start value = .ok last) : last = start := by
  unfold passOver at hpass
  split at hpass <;> cases hpass
  rfl

end BranchingInterview.Wire
