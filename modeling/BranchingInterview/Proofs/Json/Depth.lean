import BranchingInterview.Proofs.Json.ReadBack

/-!
How deep trees are nested: reading gives none that is nested too deep to be read back, and a
canonical form is nested no deeper than what it is the form of.
-/

namespace BranchingInterview.Json

theorem depth_readString (chars : List Char) : (readString chars).found.depth = 0 := by
  unfold readString
  split
  · rfl
  · split <;> rfl

theorem depth_readNumber (chars : List Char) : (readNumber chars).found.depth = 0 := by
  unfold readNumber
  split
  · rfl
  · split <;> rfl

theorem Reading.depth_limitDepth_le {depth : Nat} {reading : Reading Json}
    (hdepth : reading.found.depth ≤ depth - 1 + 1) :
    (reading.limitDepth depth).found.depth ≤ depth := by
  cases depth with
  | zero =>
      unfold limitDepth
      split
      · exact Nat.le_refl 0
      · exact Nat.le_refl 0
      · contradiction
  | succ depth => exact hdepth

theorem depth_nameMember_le {depth : Nat} {value : Reading Json}
    (hvalue : value.found.depth ≤ depth) (pieces : List Piece) :
    (nameMember pieces value).2.depth ≤ depth := by
  unfold nameMember
  split
  · exact hvalue
  · exact Nat.zero_le _
  · exact Nat.zero_le _

mutual

theorem depth_readValue_le : ∀ (fuel depth : Nat) (chars : List Char),
    (readValue fuel depth chars).found.depth ≤ depth
  | 0, _, _ => Nat.zero_le _
  | fuel + 1, depth, chars => by
      unfold readValue
      split
      iterate 3
        next => exact Nat.zero_le _
      next rest =>
        rw [depth_readString]
        exact Nat.zero_le _
      next =>
        split <;> refine Reading.depth_limitDepth_le ?_
        next => exact Nat.le_add_left _ _
        next rest _ =>
          exact Nat.succ_le_succ (depthOfItems_le.2 (depth_readItems_le fuel (depth - 1) _))
      next =>
        split <;> refine Reading.depth_limitDepth_le ?_
        next => exact Nat.le_add_left _ _
        next rest _ =>
          exact Nat.succ_le_succ (depthOfMembers_le.2 (depth_readMembers_le fuel (depth - 1) _))
      next =>
        rw [depth_readNumber]
        exact Nat.zero_le _

theorem depth_readItems_le : ∀ (fuel depth : Nat) (chars : List Char),
    ∀ item ∈ (readItems fuel depth chars).found, item.depth ≤ depth
  | 0, _, _ => List.forall_mem_singleton.2 (Nat.zero_le _)
  | fuel + 1, depth, chars => by
      have hitem := depth_readValue_le fuel depth chars
      unfold readItems
      dsimp only
      split
      · exact List.forall_mem_singleton.2 hitem
      · exact List.forall_mem_cons.2 ⟨hitem, depth_readItems_le fuel depth _⟩
      · exact List.forall_mem_singleton.2 hitem
      · exact List.forall_mem_cons.2 ⟨hitem, List.forall_mem_singleton.2 (Nat.zero_le _)⟩

theorem depth_readMembers_le : ∀ (fuel depth : Nat) (chars : List Char),
    ∀ member ∈ (readMembers fuel depth chars).found, member.2.depth ≤ depth
  | 0, _, _ => List.forall_mem_singleton.2 (Nat.zero_le _)
  | fuel + 1, depth, chars => by
      unfold readMembers
      split
      next rest =>
        split
        next => exact List.forall_mem_singleton.2 (Nat.zero_le _)
        next pieces rest _ =>
          have hvalue : Json.depth (Reading.found (match skipSpace rest with
              | ':' :: rest => readValue fuel depth rest
              | _ => .malformed)) ≤ depth := by
            split
            · exact depth_readValue_le fuel depth _
            · exact Nat.zero_le _
          have hmember := depth_nameMember_le hvalue pieces
          dsimp only
          split
          · exact List.forall_mem_singleton.2 hmember
          · exact List.forall_mem_cons.2 ⟨hmember, depth_readMembers_le fuel depth _⟩
          · exact List.forall_mem_singleton.2 hmember
          · exact List.forall_mem_cons.2 ⟨hmember, List.forall_mem_singleton.2 (Nat.zero_le _)⟩
      next => exact List.forall_mem_singleton.2 (Nat.zero_le _)

end

theorem depth_root_le (text : String) : (Document.read text).root.depth ≤ maxDepth :=
  depth_readValue_le _ maxDepth _

mutual

theorem depth_canonical?_le : ∀ {json result : Json},
    json.canonical? = some result → result.depth ≤ json.depth
  | .null, _, hresult | .bool _, _, hresult | .number _, _, hresult | .string _, _, hresult => by
      cases hresult
      exact Nat.le_refl _
  | .array items, _, hresult => by
      obtain ⟨results, hresults, rfl⟩ := Option.map_eq_some_iff.1 hresult
      exact Nat.succ_le_succ (depthOfItems_le.2 (depth_canonicalItems?_le hresults))
  | .object members, _, hresult => by
      obtain ⟨values, hvalues, rfl⟩ := Option.map_eq_some_iff.1 hresult
      refine Nat.succ_le_succ (depthOfMembers_le.2 fun member hmember => ?_)
      exact depth_canonicalMembers?_le hvalues member (mem_of_mem_sortEntries hmember)

theorem depth_canonicalItems?_le : ∀ {items results : List Json},
    canonicalItems? items = some results → ∀ result ∈ results, result.depth ≤ depthOfItems items
  | [], _, hresults => by
      cases hresults
      exact nofun
  | item :: rest, _, hresults => by
      obtain ⟨value, hvalue, hresults⟩ := Option.bind_eq_some_iff.1 hresults
      obtain ⟨values, hvalues, hresults⟩ := Option.bind_eq_some_iff.1 hresults
      cases hresults
      refine List.forall_mem_cons.2 ⟨?_, fun result hresult => ?_⟩
      · exact Nat.le_trans (depth_canonical?_le hvalue) (Nat.le_max_left _ _)
      · exact Nat.le_trans (depth_canonicalItems?_le hvalues result hresult) (Nat.le_max_right _ _)

theorem depth_canonicalMembers?_le : ∀ {members results : List (String × Json)},
    canonicalMembers? members = some results →
    ∀ result ∈ results, result.2.depth ≤ depthOfMembers members
  | [], _, hresults => by
      cases hresults
      exact nofun
  | (_, value) :: rest, _, hresults => by
      obtain ⟨value, hvalue, hresults⟩ := Option.bind_eq_some_iff.1 hresults
      obtain ⟨values, hvalues, hresults⟩ := Option.bind_eq_some_iff.1 hresults
      cases hresults
      refine List.forall_mem_cons.2 ⟨?_, fun result hresult => ?_⟩
      · exact Nat.le_trans (depth_canonical?_le hvalue) (Nat.le_max_left _ _)
      · exact Nat.le_trans (depth_canonicalMembers?_le hvalues result hresult)
          (Nat.le_max_right _ _)

end

end BranchingInterview.Json
