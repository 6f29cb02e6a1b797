import BranchingInterview.Proofs.Wire.Records
import BranchingInterview.Wire.Clause

/-!
Trees come back from their JSON. A part that may be of two shapes is tried as the first of them, so
the JSON of the second must not fit it: a comparison has no kind of group, and an action guards
nothing.
-/

namespace BranchingInterview

open Wire

variable {origin : Origin}

@[simp]
theorem GroupKind.canonical?_toJson (kind : GroupKind) :
    kind.toJson.canonical? = some kind.toJson := rfl

section Formulas

variable {id : Option String} {kind : GroupKind} {conditions : List Formula} {items : List Json}

theorem Group.canonical?_object {source value : Json} (hsource : source.canonical? = some value) :
    (Json.object (optionalMember "id" (id.map .string) ++
        [("type", kind.toJson), ("conditions", source)])).canonical? = some (.object
      (("conditions", value) ::
        (optionalMember "id" (id.map .string) ++ [("type", kind.toJson)]))) := by
  cases id <;> simp (disch := decide) [hsource, sortEntries, insertEntry_of_lt, insertEntry_of_gt]

theorem Formula.canonical?_group
    (hitems : Json.canonicalItems? (allToJson conditions) = some items) :
    (group id kind conditions).toJson.canonical? = some (.object
      (("conditions", .array items) ::
        (optionalMember "id" (id.map .string) ++ [("type", kind.toJson)]))) := by
  rw [toJson, Group.canonical?_object (Json.canonical?_array hitems)]

theorem Group.decode_object {decodeCondition : Json → Decoded Formula}
    (hitems : Json.canonicalItems? (Formula.allToJson conditions) = some items)
    (hdecode : items.mapM decodeCondition = .ok conditions) :
    decode origin decodeCondition (.object
      (("conditions", .array items) ::
        (optionalMember "id" (id.map .string) ++ [("type", kind.toJson)]))) =
      .ok { id, kind, conditions } := by
  have harray := Json.canonical?_array hitems
  have hvisitConditions : visit origin decodeCondition {} "conditions" (.array items) =
      .ok { conditions := some conditions } := by
    rw [visit, decodeList, hdecode]
    rfl
  have hvisitId : visitMembers (visit origin decodeCondition) { conditions := some conditions }
      (optionalMember "id" (id.map .string)) = .ok { id, conditions := some conditions } := by
    cases id <;> rfl
  have hvisitKind : visit origin decodeCondition { id, conditions := some conditions } "type"
      kind.toJson = .ok { id, kind := some kind, conditions := some conditions } := by
    rw [visit, GroupKind.ofJson, GroupKind.toJson, decodeName_string (GroupKind.ofName?_name kind)]
    rfl
  rw [decode, decodeFields, visitMembers_cons harray hvisitConditions, visitMembers_append hvisitId,
    visitMembers_cons kind.canonical?_toJson hvisitKind]
  rfl

/-- A comparison has no kind of group. -/
theorem Group.decode_comparison (decodeCondition : Json → Decoded Formula)
    (comparison : Comparison) :
    decode origin decodeCondition comparison.toJson = .error (.missingField "type") := by
  obtain ⟨operator, key, field, operand⟩ := comparison
  cases key <;> cases field <;> cases operand <;> rfl

end Formulas

namespace Formula

mutual

theorem exists_json : ∀ formula : Formula, ∃ json, formula.toJson.canonical? = some json ∧
    ∀ levels, json.depth < levels → decode levels json = .ok formula
  | leaf comparison => by
      refine ⟨comparison.toJson, comparison.canonical?_toJson, fun levels hlevels => ?_⟩
      obtain ⟨levels, rfl⟩ := Nat.exists_eq_add_one_of_ne_zero (Nat.ne_zero_of_lt hlevels)
      -- The decoder tries a group first, which fails for want of a kind.
      have hcomparison : Comparison.ofJson .aside comparison.toJson = .ok comparison :=
        comparison.visitMembers_members
      rw [decode, Group.decode_comparison, hcomparison]
  | group id kind conditions => by
      obtain ⟨items, hitems, hdecode⟩ := exists_items conditions
      refine ⟨_, canonical?_group hitems, fun levels hlevels => ?_⟩
      obtain ⟨levels, rfl⟩ := Nat.exists_eq_add_one_of_ne_zero (Nat.ne_zero_of_lt hlevels)
      -- The conditions are nested one level less deep than the object that lists them.
      have hdeeper : Json.depthOfItems items < levels := by
        simp only [Json.depth, Json.depthOfMembers] at hlevels
        omega
      rw [decode, Group.decode_object hitems (hdecode levels hdeeper)]
      rfl

theorem exists_items : ∀ conditions : List Formula, ∃ items,
    Json.canonicalItems? (allToJson conditions) = some items ∧
    ∀ levels, Json.depthOfItems items < levels → items.mapM (decode levels) = .ok conditions
  | [] => ⟨[], rfl, fun _ _ => rfl⟩
  | condition :: rest => by
      obtain ⟨json, hjson, hcondition⟩ := exists_json condition
      obtain ⟨items, hitems, hrest⟩ := exists_items rest
      refine ⟨json :: items, ?_, fun levels hlevels => ?_⟩
      · rw [allToJson, Json.canonicalItems?, hjson, hitems]
        rfl
      · rw [Json.depthOfItems] at hlevels
        rw [List.mapM_cons, hcondition levels (by omega), hrest levels (by omega)]
        rfl

end

theorem recovers (formula : Formula) : Recovers toJson ofJson formula := by
  obtain ⟨json, hjson, hdecode⟩ := exists_json formula
  refine ⟨json, hjson, ?_⟩
  rw [ofJson, setAside_of_canonical? hjson, ok_bind]
  exact hdecode (json.depth + 1) (Nat.lt_succ_self _)

theorem allToJson_eq_map (conditions : List Formula) :
    allToJson conditions = conditions.map toJson := by
  induction conditions with
  | nil => rfl
  | cons condition rest ih => rw [allToJson, ih, List.map_cons]

end Formula

theorem Group.recovers (origin : Origin) (group : Group) :
    Recovers toJson (ofJson origin) group := by
  obtain ⟨id, kind, conditions⟩ := group
  obtain ⟨items, hitems, hdecode⟩ :=
    exists_items_of_recovers fun condition (_ : condition ∈ conditions) => condition.recovers
  rw [← Formula.allToJson_eq_map] at hitems
  exact ⟨_, Formula.canonical?_group hitems, decode_object hitems hdecode⟩

section Chains

variable {first : Branch} {source rest guardJson actionJson : Json}

theorem Clause.canonical?_object {id : Option String} {guard action : Json}
    (hguard : guard.canonical? = some guardJson) (haction : action.canonical? = some actionJson)
    (hrest : source.canonical? = some rest) :
    (Json.object (optionalMember "id" (id.map .string) ++
        [("conditionGroup", guard), ("action", action), ("elseClause", source)])).canonical? =
      some (.object
        ([("action", actionJson), ("conditionGroup", guardJson), ("elseClause", rest)] ++
          optionalMember "id" (id.map .string))) := by
  cases id <;>
    simp (disch := decide) [hguard, haction, hrest, sortEntries, insertEntry_of_lt,
      insertEntry_of_gt]

theorem Branch.canonical?_toJson (hguard : first.guard.toJson.canonical? = some guardJson)
    (haction : first.action.toJson.canonical? = some actionJson)
    (hrest : source.canonical? = some rest) :
    (first.toJson source).canonical? = some (.object
      ([("action", actionJson), ("conditionGroup", guardJson), ("elseClause", rest)] ++
        optionalMember "id" (first.id.map .string))) :=
  Clause.canonical?_object hguard haction hrest

theorem Clause.decode_object {decodeRest : Json → Decoded Chain} {chain : Chain}
    (hguard : first.guard.toJson.canonical? = some guardJson)
    (hdecodeGuard : Group.ofJson origin guardJson = .ok first.guard)
    (haction : first.action.toJson.canonical? = some actionJson)
    (hdecodeAction : Action.ofJson origin actionJson = .ok first.action)
    (hrest : source.canonical? = some rest) (hdecodeRest : decodeRest rest = .ok chain) :
    decode origin decodeRest (.object
      ([("action", actionJson), ("conditionGroup", guardJson), ("elseClause", rest)] ++
        optionalMember "id" (first.id.map .string))) = .ok { first, rest := chain } := by
  obtain ⟨id, guard, action⟩ := first
  have hvisitAction : visit origin decodeRest {} "action" actionJson =
      .ok { action := some action } := by
    rw [visit, hdecodeAction]
    rfl
  have hvisitGuard : visit origin decodeRest { action := some action } "conditionGroup" guardJson =
      .ok { guard := some guard, action := some action } := by
    rw [visit, hdecodeGuard]
    rfl
  have hvisitRest : visit origin decodeRest { guard := some guard, action := some action }
      "elseClause" rest =
      .ok { guard := some guard, action := some action, rest := some chain } := by
    rw [visit, hdecodeRest]
    rfl
  rw [decode, decodeFields, List.cons_append, List.cons_append, List.singleton_append,
    visitMembers_cons haction hvisitAction, visitMembers_cons hguard hvisitGuard,
    visitMembers_cons hrest hvisitRest]
  cases id <;> rfl

/-- An action guards nothing. -/
theorem Clause.decode_action {action : Action} {json : Json}
    (hjson : action.toJson.canonical? = some json) (decodeRest : Json → Decoded Chain) :
    decode origin decodeRest json = .error (.missingField "conditionGroup") := by
  have hkind : visit origin decodeRest {} "type" action.kind.toJson = .ok {} := rfl
  cases hpayload : action.payload? with
  | none =>
      rw [Action.canonical?_toJson_of_none hpayload] at hjson
      cases hjson
      rfl
  | some source =>
      obtain ⟨payload, hsource, -⟩ := Action.exists_payload hpayload
      rw [Action.canonical?_toJson_of_some hpayload hsource] at hjson
      cases hjson
      have hvisit : visit origin decodeRest {} "payload" payload = .ok {} := by
        have hpass : passOver ({} : Draft) payload = .ok {} := passOver_of_canonical? hsource _
        exact hpass
      rw [decode, decodeFields, visitMembers_cons hsource hvisit]
      rfl

end Chains

namespace Chain

theorem exists_json (chain : Chain) : ∃ json, chain.toJson.canonical? = some json ∧
    ∀ levels, json.depth < levels → decode levels json = .ok chain := by
  induction chain with
  | otherwise action =>
      obtain ⟨json, hjson, hdecode⟩ := action.recovers .aside
      refine ⟨json, hjson, fun levels hlevels => ?_⟩
      obtain ⟨levels, rfl⟩ := Nat.exists_eq_add_one_of_ne_zero (Nat.ne_zero_of_lt hlevels)
      -- The decoder tries a clause first, which fails for want of a guard.
      rw [decode, Clause.decode_action hjson, hdecode]
  | branch first rest ih =>
      obtain ⟨restJson, hrest, hdecodeRest⟩ := ih
      obtain ⟨guardJson, hguard, hdecodeGuard⟩ := first.guard.recovers .aside
      obtain ⟨actionJson, haction, hdecodeAction⟩ := first.action.recovers .aside
      refine ⟨_, Branch.canonical?_toJson hguard haction hrest, fun levels hlevels => ?_⟩
      obtain ⟨levels, rfl⟩ := Nat.exists_eq_add_one_of_ne_zero (Nat.ne_zero_of_lt hlevels)
      have hdeeper : restJson.depth < levels := by
        simp only [List.cons_append, Json.depth, Json.depthOfMembers] at hlevels
        omega
      rw [decode, Clause.decode_object hguard hdecodeGuard haction hdecodeAction hrest
        (hdecodeRest levels hdeeper)]
      rfl

theorem recovers (chain : Chain) : Recovers toJson ofJson chain := by
  obtain ⟨json, hjson, hdecode⟩ := chain.exists_json
  refine ⟨json, hjson, ?_⟩
  rw [ofJson, setAside_of_canonical? hjson, ok_bind]
  exact hdecode (json.depth + 1) (Nat.lt_succ_self _)

end Chain

theorem Clause.recovers (origin : Origin) (clause : Clause) :
    Recovers toJson (ofJson origin) clause := by
  obtain ⟨first, rest⟩ := clause
  obtain ⟨restJson, hrest, hdecodeRest⟩ := rest.recovers
  obtain ⟨guardJson, hguard, hdecodeGuard⟩ := first.guard.recovers origin
  obtain ⟨actionJson, haction, hdecodeAction⟩ := first.action.recovers origin
  exact ⟨_, Branch.canonical?_toJson hguard haction hrest,
    decode_object hguard hdecodeGuard haction hdecodeAction hrest hdecodeRest⟩

/-- Every value comes back from its JSON, wherever that is held. An id that is missing stays so
unless ids are assigned, and assigning ids changes none that came back. -/
theorem wire_roundTrip (origin : Origin) :
    (∀ interview, Recovers Interview.toJson (Interview.ofJson origin) interview) ∧
    (∀ screen, Recovers Screen.toJson (Screen.ofJson origin) screen) ∧
    (∀ candidate, Recovers Candidate.toJson (Candidate.ofJson origin) candidate) ∧
    (∀ comparison, Recovers Comparison.toJson (Comparison.ofJson origin) comparison) ∧
    (∀ action, Recovers Action.toJson (Action.ofJson origin) action) ∧
    (∀ stored, Recovers StoredAction.toJson (StoredAction.ofJson origin) stored) ∧
    (∀ responses, Recovers Responses.toJson (Responses.ofJson origin) responses) ∧
    (∀ clause, Recovers Clause.toJson (Clause.ofJson origin) clause) ∧
    (∀ chain, Recovers Chain.toJson Chain.ofJson chain) ∧
    (∀ group, Recovers Group.toJson (Group.ofJson origin) group) ∧
    (∀ formula, Recovers Formula.toJson Formula.ofJson formula) ∧
    ∀ (seed other : Nat) (path otherPath : List Nat),
      (∀ clause : Clause, Recovers Clause.toJson
        (fun json => (Clause.ofJson origin json).map (Clause.assignIds seed))
        (clause.assignIds other)) ∧
      (∀ chain : Chain, Recovers Chain.toJson
        (fun json => (Chain.ofJson json).map (Chain.assignIds seed path))
        (chain.assignIds other otherPath)) ∧
      (∀ group : Group, Recovers Group.toJson
        (fun json => (Group.ofJson origin json).map (Group.assignIds seed path))
        (group.assignIds other otherPath)) ∧
      ∀ formula : Formula, Recovers Formula.toJson
        (fun json => (Formula.ofJson json).map (Formula.assignIds seed path))
        (formula.assignIds other otherPath) := by
  refine ⟨Interview.recovers origin, Screen.recovers origin, Candidate.recovers origin,
    Comparison.recovers origin, Action.recovers origin, StoredAction.recovers origin,
    Responses.recovers origin, Clause.recovers origin, Chain.recovers, Group.recovers origin,
    Formula.recovers, ?_⟩
  intro seed other path otherPath
  refine ⟨?_, ?_, ?_, ?_⟩
  · intro clause
    exact (Clause.recovers origin _).map_of_eq (clause.assignIds_assignIds seed other)
  · intro chain
    exact (Chain.recovers _).map_of_eq (chain.assignIds_assignIds seed other path otherPath)
  · intro group
    exact (Group.recovers origin _).map_of_eq (group.assignIds_assignIds seed other path otherPath)
  · intro formula
    exact (Formula.recovers _).map_of_eq
      (Formula.assignIds_assignIds seed other path otherPath formula)

end BranchingInterview
