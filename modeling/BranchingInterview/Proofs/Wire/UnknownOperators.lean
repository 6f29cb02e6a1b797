import BranchingInterview.Proofs.Wire.Places
import BranchingInterview.Proofs.Wire.Trees
import Mathlib.Data.List.Nodup

/-!
Operators with unknown names. A condition stands among merged members or in a part that may be of
two shapes, of which the second is tried when the first one fails. No shape fits a condition with a
name that no operator has, so nothing is decoded wherever in a tree it stands.
-/

namespace BranchingInterview

open Wire

theorem Json.canonicalItems?_append {first rest firstResult restResult : List Json}
    (hfirst : canonicalItems? first = some firstResult)
    (hrest : canonicalItems? rest = some restResult) :
    canonicalItems? (first ++ rest) = some (firstResult ++ restResult) := by
  induction first generalizing firstResult with
  | nil =>
      cases hfirst
      exact hrest
  | cons item first ih =>
      rw [canonicalItems?] at hfirst
      obtain ⟨result, hitem, hfirst⟩ := Option.bind_eq_some_iff.1 hfirst
      obtain ⟨results, hresults, hfirst⟩ := Option.bind_eq_some_iff.1 hfirst
      cases hfirst
      rw [List.cons_append, canonicalItems?, hitem, ih hresults]
      rfl

namespace Wire

variable {α β δ : Type}

/-- The canonical JSON of a tree is refused with an error. -/
def Refuses (decode : Json → Decoded α) (error : DecodeError) (source : Json) : Prop :=
  ∃ json, source.canonical? = some json ∧ decode json = .error error

theorem Refuses.both {decode : Json → Decoded α} {other : Json → Decoded β}
    {error otherError : DecodeError} {source : Json} (hsource : Refuses decode error source)
    (hother : Refuses other otherError source) :
    ∃ json, source.canonical? = some json ∧ decode json = .error error ∧
      other json = .error otherError := by
  obtain ⟨json, hjson, hdecode⟩ := hsource
  obtain ⟨_, hsame, hdecodeOther⟩ := hother
  cases hjson.symm.trans hsame
  exact ⟨json, hjson, hdecode, hdecodeOther⟩

theorem visitMembers_cons_of_error {visit : δ → String → Json → Decoded δ} {draft : δ}
    {name : String} {source value : Json} {error : DecodeError}
    (hvalue : source.canonical? = some value) (hvisit : visit draft name value = .error error)
    (rest : List (String × Json)) :
    visitMembers visit draft ((name, value) :: rest) = .error error := by
  rw [visitMembers, isUnnamed_of_isWhole (isWhole_of_canonical? hvalue), hvisit]
  rfl

section Containers

variable {encode : α → Json} {decode : Json → Decoded α} {source : Json} {error : DecodeError}

theorem exists_canonical_items {before after : List α} {json : Json}
    (hvalues : ∀ value ∈ before ++ after, Recovers encode decode value)
    (hjson : source.canonical? = some json) :
    ∃ items rest, (Json.array (before.map encode ++ source :: after.map encode)).canonical? =
        some (.array (items ++ json :: rest)) ∧ items.mapM decode = .ok before := by
  obtain ⟨items, hitems, hbefore⟩ := exists_items_of_recovers fun value hvalue =>
    hvalues value (List.mem_append_left after hvalue)
  obtain ⟨rest, hrest, -⟩ := exists_items_of_recovers fun value hvalue =>
    hvalues value (List.mem_append_right before hvalue)
  have hall : Json.canonicalItems? (source :: after.map encode) = some (json :: rest) := by
    rw [Json.canonicalItems?, hjson, hrest]
    rfl
  exact ⟨items, rest, Json.canonical?_array (Json.canonicalItems?_append hitems hall), hbefore⟩

theorem Refuses.list {before after : List α}
    (hvalues : ∀ value ∈ before ++ after, Recovers encode decode value)
    (hsource : Refuses decode error source) :
    Refuses (decodeList decode) error
      (.array (before.map encode ++ source :: after.map encode)) := by
  obtain ⟨json, hjson, hdecode⟩ := hsource
  obtain ⟨items, rest, hitems, hbefore⟩ := exists_canonical_items hvalues hjson
  refine ⟨_, hitems, ?_⟩
  rw [decodeList, List.mapM_append, hbefore, ok_bind, List.mapM_cons, hdecode]
  rfl

/-- An item that is refused has the whole list refused, if only for an item before it. -/
theorem Refuses.exists_list {decodeItem : Json → Decoded α} (before after : List α)
    (hvalues : ∀ value ∈ before ++ after, Recovers encode decode value)
    (hsource : Refuses decodeItem error source) :
    ∃ first, Refuses (decodeList decodeItem) first
      (.array (before.map encode ++ source :: after.map encode)) := by
  obtain ⟨json, hjson, hdecode⟩ := hsource
  obtain ⟨items, rest, hitems, -⟩ := exists_canonical_items hvalues hjson
  cases hbefore : items.mapM decodeItem with
  | error first =>
      refine ⟨first, _, hitems, ?_⟩
      rw [decodeList, List.mapM_append, hbefore]
      rfl
  | ok values =>
      refine ⟨error, _, hitems, ?_⟩
      rw [decodeList, List.mapM_append, hbefore, ok_bind, List.mapM_cons, hdecode]
      rfl

theorem Refuses.map {before after : List (String × α)} {name : String}
    (hentries : ∀ entry ∈ before ++ after, Recovers encode decode entry.2)
    (hascending : (before.map Prod.fst ++ name :: after.map Prod.fst).Pairwise (· < ·))
    (hsource : Refuses decode error source) :
    Refuses (decodeMap decode) error
      (.object (before.map (fun entry => (entry.1, encode entry.2)) ++
        (name, source) :: after.map fun entry => (entry.1, encode entry.2))) := by
  obtain ⟨json, hjson, hdecode⟩ := hsource
  obtain ⟨members, hmembers, hnames, hbefore⟩ := exists_members_of_recovers fun entry hentry =>
    hentries entry (List.mem_append_left after hentry)
  obtain ⟨rest, hrest, hrestNames, -⟩ := exists_members_of_recovers fun entry hentry =>
    hentries entry (List.mem_append_right before hentry)
  have hall : Json.canonicalMembers? ((name, source) ::
      after.map fun entry => (entry.1, encode entry.2)) = some ((name, json) :: rest) := by
    rw [Json.canonicalMembers?_cons, hjson, hrest]
    rfl
  have hsorted : Ascending (members ++ (name, json) :: rest) := by
    rw [Ascending, List.map_append, List.map_cons, hnames, hrestNames]
    exact hascending
  refine ⟨.object (members ++ (name, json) :: rest), ?_, ?_⟩
  · rw [Json.canonical?_object, Json.canonicalMembers?_append hmembers hall, Option.map_some,
      sortEntries_of_ascending hsorted]
  · rw [decodeMap, visitMembers_append (hbefore {}),
      visitMembers_cons_of_error hjson (by rw [hdecode]; rfl)]

end Containers

end Wire

/-- An operator stands at a place, and a tree with another name there is refused. -/
structure Wire.RefusesAt {α : Type} (decode : Json → Decoded α) (error : DecodeError)
    (name : String) (source : Json) (entry : Json.Place × Comparison) : Prop where
  part : source.part? entry.1 = some entry.2.operator.toJson
  refuses : Refuses decode error (source.put entry.1 (.string name))

variable {origin : Origin} {name : String}

theorem Wire.RefusesAt.list {α : Type} {encode : α → Json} {decode : Json → Decoded α}
    {error : DecodeError} {placed : α → Placed} {values : List α}
    (hvalues : ∀ value ∈ values, Recovers encode decode value)
    (hplaced : ∀ value ∈ values, ∀ entry ∈ placed value,
      RefusesAt decode error name (encode value) entry) :
    ∀ entry ∈ Placed.ofItems placed 0 values,
      RefusesAt (decodeList decode) error name (.array (values.map encode)) entry := by
  intro entry hentry
  obtain ⟨before, value, after, place, rfl, hmem, hpart, hput⟩ := Placed.exists_item hentry encode
  have hvalue := hplaced value (by simp) _ hmem
  refine ⟨hpart.trans hvalue.part, ?_⟩
  rw [hput]
  refine hvalue.refuses.list fun other hother => hvalues other ?_
  rcases List.mem_append.1 hother with hbefore | hafter
  · exact List.mem_append_left _ hbefore
  · exact List.mem_append_right _ (List.mem_cons_of_mem _ hafter)

theorem Operator.ofJson_unknown (hname : ∀ operator : Operator, operator.name ≠ name) :
    ofJson (.string name) = .error (.unknownOperator name) := by
  have hnone : ofName? name = none := by
    rw [Option.eq_none_iff_forall_ne_some]
    exact fun operator hfound => hname operator (eq_name_of_ofName? hfound).symm
  rw [ofJson, decodeString, ok_bind, hnone]
  rfl

namespace Comparison

/-- The members of a comparison with another name for its operator. -/
def misnamed (name : String) (comparison : Comparison) : List (String × Json) :=
  ("operator", .string name) :: comparison.members.tail

variable {comparison : Comparison}

theorem canonicalMembers?_misnamed :
    Json.canonicalMembers? (comparison.misnamed name) = some (comparison.misnamed name) := by
  obtain ⟨operator, key, field, operand⟩ := comparison
  cases key <;> cases field <;> cases operand <;> rfl

theorem names_misnamed :
    ((comparison.misnamed name).map Prod.fst).Sublist
      ["operator", "responseKey", "responseKeyField", "value"] :=
  comparison.names_members

theorem visitMembers_misnamed (comparison : Comparison)
    (hname : ∀ operator : Operator, operator.name ≠ name) :
    visitMembers visit {} (comparison.misnamed name) = .error (.unknownOperator name) := by
  have hvisit : visit {} "operator" (.string name) = .error (.unknownOperator name) := by
    have hfield : Field.ofName? "operator" = some .operator := rfl
    rw [visit, hfield]
    simp only [visitField, Operator.ofJson_unknown hname]
    rfl
  exact visitMembers_cons_of_error (Json.canonical?_string name) hvisit _

section Merged

variable (name) (comparison) {others : List (String × Json)}
  (hothers : ∀ member ∈ others, member.1 ≠ "operator")
include hothers

theorem ne_operator : ∀ member ∈ [] ++ (comparison.members.tail ++ others),
    member.1 ≠ "operator" := by
  have hleast := (ascending_cons.1 comparison.ascending_members).1
  intro member hmember
  rw [List.nil_append] at hmember
  rcases List.mem_append.1 hmember with hown | hother
  · exact fun heq => String.lt_irrefl _ (heq ▸ hleast member hown)
  · exact hothers member hother

theorem part?_operator :
    (Json.object (comparison.members ++ others)).part? [.member "operator"] =
      some comparison.operator.toJson :=
  Json.part?_member (ne_operator comparison hothers)

theorem put_operator :
    (Json.object (comparison.members ++ others)).put [.member "operator"] (.string name) =
      .object (comparison.misnamed name ++ others) :=
  Json.put_member (ne_operator comparison hothers)

end Merged

end Comparison

theorem Candidate.refusesAt (hname : ∀ operator : Operator, operator.name ≠ name)
    {candidate : Candidate} {entry : Json.Place × Comparison}
    (hentry : entry ∈ candidate.condition.placed) :
    RefusesAt (ofJson origin) (.unknownOperator name) name candidate.toJson entry := by
  obtain ⟨condition, action⟩ := candidate
  cases List.mem_singleton.1 hentry
  have hothers : ∀ member ∈ [("actionConfig", action.toJson)], member.1 ≠ "operator" := by
    intro member hmember
    cases List.mem_singleton.1 hmember
    exact (by decide : "actionConfig" ≠ "operator")
  refine ⟨condition.part?_operator hothers, ?_⟩
  obtain ⟨actionJson, haction, hdecode⟩ := action.recovers origin
  rw [toJson, condition.put_operator name hothers]
  refine ⟨_, canonical?_object Comparison.names_misnamed Comparison.canonicalMembers?_misnamed
    haction, ?_⟩
  have hvisit : visit origin {} "actionConfig" actionJson = .ok { action := some action } := by
    rw [visit, hdecode]
    rfl
  have hothers : visitMembers (visit origin) { action := some action } (condition.misnamed name) =
      .ok { action := some action, others := condition.misnamed name } := by
    obtain ⟨operator, key, field, operand⟩ := condition
    cases key <;> cases field <;> cases operand <;> rfl
  rw [ofJson, visitMembers_cons haction hvisit, hothers, ok_bind]
  have hcondition := condition.visitMembers_misnamed hname
  rw [complete, hcondition]
  rfl

section Formulas

variable {id : Option String} {kind : GroupKind} {source new : Json} {place : Json.Place}

theorem Group.part?_conditions :
    (Json.object (optionalMember "id" (id.map .string) ++
        [("type", kind.toJson), ("conditions", source)])).part? (.member "conditions" :: place) =
      source.part? place := by
  cases id <;> rfl

theorem Group.put_conditions :
    (Json.object (optionalMember "id" (id.map .string) ++
        [("type", kind.toJson), ("conditions", source)])).put (.member "conditions" :: place) new =
      .object (optionalMember "id" (id.map .string) ++
        [("type", kind.toJson), ("conditions", source.put place new)]) := by
  cases id <;> rfl

theorem Group.refuses {decodeCondition : Json → Decoded Formula} {error : DecodeError}
    (hsource : Refuses (decodeList decodeCondition) error source) :
    Refuses (decode origin decodeCondition) error (.object (optionalMember "id" (id.map .string) ++
      [("type", kind.toJson), ("conditions", source)])) := by
  obtain ⟨json, hjson, hdecode⟩ := hsource
  refine ⟨_, canonical?_object hjson, ?_⟩
  have hvisit : visit origin decodeCondition {} "conditions" json = .error error := by
    rw [visit, hdecode]
    rfl
  rw [decode, decodeFields, visitMembers_cons_of_error hjson hvisit]
  rfl

/-- A group has no operator. -/
theorem Comparison.refuses_group {value : Json} (hvalue : source.canonical? = some value) :
    Refuses (ofJson origin) (.missingField "operator") (.object
      (optionalMember "id" (id.map .string) ++
        [("type", kind.toJson), ("conditions", source)])) := by
  refine ⟨_, Group.canonical?_object hvalue, ?_⟩
  have hvisit : visit {} "conditions" value = .ok {} := passOver_of_canonical? hvalue _
  rw [ofJson, decodeFields, visitMembers_cons hvalue hvisit]
  cases id <;> rfl

end Formulas

/-- What is refused with some levels is refused with any number of levels. -/
theorem Wire.Refuses.exists_levels {α : Type} {decode : Nat → Json → Decoded α}
    {error : DecodeError} {source : Json} (hzero : ∀ json, decode 0 json = .error .unreadable)
    (hsource : ∀ levels, Refuses (decode (levels + 1)) error source) (levels : Nat) :
    ∃ error, Refuses (decode levels) error source := by
  cases levels with
  | zero =>
      obtain ⟨json, hjson, -⟩ := hsource 0
      exact ⟨.unreadable, json, hjson, hzero json⟩
  | succ levels => exact ⟨error, hsource levels⟩

/-- What is refused with some levels is refused with as many as its depth asks for. -/
theorem Wire.Refuses.of_levels {α : Type} {decode : Nat → Json → Decoded α} {error : DecodeError}
    {source : Json} (hsource : ∀ levels, Refuses (decode (levels + 1)) error source) :
    Refuses (fun json => setAside json >>= fun json => decode (json.depth + 1) json) error
      source := by
  obtain ⟨json, hjson, -⟩ := hsource 0
  obtain ⟨other, hother, hdecode⟩ := hsource json.depth
  cases hjson.symm.trans hother
  refine ⟨json, hjson, ?_⟩
  dsimp only
  rw [setAside_of_canonical? hjson, ok_bind, hdecode]

namespace Formula

theorem refuses {source : Json} {levels : Nat} {error otherError : DecodeError}
    (hgroup : Refuses (Group.decode .aside (decode levels)) error source)
    (hcomparison : Refuses (Comparison.ofJson .aside) otherError source) :
    Refuses (decode (levels + 1)) (.noShape "Condition") source := by
  obtain ⟨json, hjson, hgroup, hcomparison⟩ := hgroup.both hcomparison
  exact ⟨json, hjson, by rw [decode, hgroup, hcomparison]⟩

/-- A comparison has no kind of group, whatever its operator. -/
theorem refusesAt_leaf (hname : ∀ operator : Operator, operator.name ≠ name)
    {comparison : Comparison} {entry : Json.Place × Comparison}
    (hentry : entry ∈ comparison.placed) (levels : Nat) :
    RefusesAt (decode (levels + 1)) (.noShape "Condition") name comparison.toJson entry := by
  cases List.mem_singleton.1 hentry
  have hpart := comparison.part?_operator (List.forall_mem_nil _)
  have hput := comparison.put_operator name (List.forall_mem_nil _)
  rw [List.append_nil] at hpart
  rw [List.append_nil, List.append_nil] at hput
  refine ⟨hpart, ?_⟩
  rw [Comparison.toJson, hput]
  have hcanonical : (Json.object (comparison.misnamed name)).canonical? =
      some (.object (comparison.misnamed name)) := by
    rw [Json.canonical?_object, Comparison.canonicalMembers?_misnamed, Option.map_some,
      sortEntries_of_ascending (Comparison.ascending_of_names Comparison.names_misnamed)]
  have hgroup : Group.decode .aside (decode levels) (.object (comparison.misnamed name)) =
      .error (.missingField "type") := by
    obtain ⟨operator, key, field, operand⟩ := comparison
    cases key <;> cases field <;> cases operand <;> rfl
  have hcomparison : Comparison.ofJson .aside (.object (comparison.misnamed name)) =
      .error (.unknownOperator name) := by
    rw [Comparison.ofJson, decodeFields, comparison.visitMembers_misnamed hname]
    rfl
  exact refuses ⟨_, hcanonical, hgroup⟩ ⟨_, hcanonical, hcomparison⟩

theorem refusesAt_group {id : Option String} {kind : GroupKind} {conditions : List Formula}
    (hconditions : ∀ condition ∈ conditions, ∀ entry ∈ condition.placed, ∀ levels,
      RefusesAt (decode (levels + 1)) (.noShape "Condition") name condition.toJson entry) :
    ∀ entry ∈ (group id kind conditions).placed, ∀ levels,
      RefusesAt (decode (levels + 1)) (.noShape "Condition") name
        (group id kind conditions).toJson entry := by
  rintro ⟨place, comparison⟩ hentry levels
  obtain ⟨place, rfl, hmem⟩ := Placed.mem_below hentry
  rw [placedInAll_eq] at hmem
  obtain ⟨before, condition, after, inner, rfl, hmem, hpart, hput⟩ :=
    Placed.exists_item hmem toJson
  have hcondition := hconditions condition (by simp) _ hmem
  obtain ⟨error, hrefuses⟩ := Refuses.exists_levels (fun _ => rfl)
    (fun levels => (hcondition levels).refuses) levels
  obtain ⟨first, hlist⟩ := hrefuses.exists_list before after
    fun condition _ => condition.recovers
  rw [toJson, allToJson_eq_map]
  refine ⟨?_, ?_⟩
  · rw [Group.part?_conditions, hpart]
    exact (hcondition 0).part
  · rw [Group.put_conditions, hput]
    obtain ⟨items, hitems, hdecode⟩ := hlist
    exact refuses (Group.refuses ⟨items, hitems, hdecode⟩) (Comparison.refuses_group hitems)

mutual

theorem refusesAt (hname : ∀ operator : Operator, operator.name ≠ name) :
    ∀ formula : Formula, ∀ entry ∈ formula.placed, ∀ levels,
      RefusesAt (decode (levels + 1)) (.noShape "Condition") name formula.toJson entry
  | leaf _ => fun _ hentry levels => refusesAt_leaf hname hentry levels
  | group _ _ conditions => refusesAt_group (refusesAtAll hname conditions)

theorem refusesAtAll (hname : ∀ operator : Operator, operator.name ≠ name) :
    ∀ conditions : List Formula, ∀ condition ∈ conditions, ∀ entry ∈ condition.placed, ∀ levels,
      RefusesAt (decode (levels + 1)) (.noShape "Condition") name condition.toJson entry
  | [] => List.forall_mem_nil _
  | condition :: rest =>
      List.forall_mem_cons.2 ⟨refusesAt hname condition, refusesAtAll hname rest⟩

end

theorem refusesAt_ofJson (hname : ∀ operator : Operator, operator.name ≠ name) {formula : Formula} :
    ∀ entry ∈ formula.placed,
      RefusesAt ofJson (.noShape "Condition") name formula.toJson entry := by
  intro entry hentry
  have hformula := refusesAt hname formula entry hentry
  exact ⟨(hformula 0).part, .of_levels fun levels => (hformula levels).refuses⟩

end Formula

theorem Group.refusesAt (origin : Origin)
    (hname : ∀ operator : Operator, operator.name ≠ name) {group : Group} :
    ∀ entry ∈ group.toFormula.placed,
      RefusesAt (ofJson origin) (.noShape "Condition") name group.toJson entry := by
  obtain ⟨id, kind, conditions⟩ := group
  rintro ⟨place, comparison⟩ hentry
  obtain ⟨place, rfl, hmem⟩ := Placed.mem_below hentry
  rw [Formula.placedInAll_eq] at hmem
  have hlist := RefusesAt.list (fun condition _ => condition.recovers)
    (fun condition _ => Formula.refusesAt_ofJson hname) _ hmem
  rw [toJson, toFormula, Formula.toJson, Formula.allToJson_eq_map]
  refine ⟨?_, ?_⟩
  · rw [part?_conditions]
    exact hlist.part
  · rw [put_conditions]
    exact refuses hlist.refuses

section Chains

variable {id : Option String} {guard action source new : Json} {place : Json.Place}

theorem Clause.part?_guard :
    (Json.object (optionalMember "id" (id.map .string) ++
        [("conditionGroup", guard), ("action", action), ("elseClause", source)])).part?
        (.member "conditionGroup" :: place) = guard.part? place := by
  cases id <;> rfl

theorem Clause.put_guard :
    (Json.object (optionalMember "id" (id.map .string) ++
        [("conditionGroup", guard), ("action", action), ("elseClause", source)])).put
        (.member "conditionGroup" :: place) new =
      .object (optionalMember "id" (id.map .string) ++
        [("conditionGroup", guard.put place new), ("action", action), ("elseClause", source)]) := by
  cases id <;> rfl

theorem Clause.part?_rest :
    (Json.object (optionalMember "id" (id.map .string) ++
        [("conditionGroup", guard), ("action", action), ("elseClause", source)])).part?
        (.member "elseClause" :: place) = source.part? place := by
  cases id <;> rfl

theorem Clause.put_rest :
    (Json.object (optionalMember "id" (id.map .string) ++
        [("conditionGroup", guard), ("action", action), ("elseClause", source)])).put
        (.member "elseClause" :: place) new =
      .object (optionalMember "id" (id.map .string) ++
        [("conditionGroup", guard), ("action", action), ("elseClause", source.put place new)]) := by
  cases id <;> rfl

variable {guardJson actionJson rest : Json}

/-- A clause has no kind of action. -/
theorem Action.refuses_clause (hguard : guard.canonical? = some guardJson)
    (haction : action.canonical? = some actionJson) (hrest : source.canonical? = some rest) :
    Refuses (ofJson origin) (.missingField "type") (.object
      (optionalMember "id" (id.map .string) ++
        [("conditionGroup", guard), ("action", action), ("elseClause", source)])) := by
  refine ⟨_, Clause.canonical?_object hguard haction hrest, ?_⟩
  have hvisitAction : visit origin .start "action" actionJson = .ok .start :=
    passOver_of_canonical? haction _
  have hvisitGuard : visit origin .start "conditionGroup" guardJson = .ok .start :=
    passOver_of_canonical? hguard _
  have hvisitRest : visit origin .start "elseClause" rest = .ok .start :=
    passOver_of_canonical? hrest _
  rw [ofJson, List.cons_append, List.cons_append, List.singleton_append,
    visitMembers_cons haction hvisitAction, visitMembers_cons hguard hvisitGuard,
    visitMembers_cons hrest hvisitRest]
  cases id <;> rfl

end Chains

namespace Clause

variable {decodeRest : Json → Decoded Chain} {first : Branch} {error : DecodeError}
  {place : Json.Place} {comparison : Comparison}

theorem visit_action {actionJson : Json} {action : Action}
    (hdecode : Action.ofJson origin actionJson = .ok action) :
    visit origin decodeRest {} "action" actionJson = .ok { action := some action } := by
  rw [visit, hdecode]
  rfl

theorem refusesAt_guard (decodeRest : Json → Decoded Chain) (chain : Chain)
    (hguard : RefusesAt (Group.ofJson origin) error name first.guard.toJson (place, comparison)) :
    RefusesAt (decode origin decodeRest) error name (first.toJson chain.toJson)
      (.member "conditionGroup" :: place, comparison) := by
  refine ⟨part?_guard.trans hguard.part, ?_⟩
  obtain ⟨guardJson, hguardJson, hdecodeGuard⟩ := hguard.refuses
  obtain ⟨actionJson, haction, hdecodeAction⟩ := first.action.recovers origin
  obtain ⟨rest, hrest, -⟩ := chain.recovers
  rw [Branch.toJson, put_guard]
  refine ⟨_, canonical?_object hguardJson haction hrest, ?_⟩
  have hvisitGuard : visit origin decodeRest { action := some first.action } "conditionGroup"
      guardJson = .error error := by
    rw [visit, hdecodeGuard]
    rfl
  rw [decode, decodeFields, List.cons_append, List.cons_append,
    visitMembers_cons haction (visit_action hdecodeAction),
    visitMembers_cons_of_error hguardJson hvisitGuard]
  rfl

theorem refusesAt_rest (origin : Origin) (first : Branch) {source : Json}
    (hrest : RefusesAt decodeRest error name source (place, comparison)) :
    RefusesAt (decode origin decodeRest) error name (first.toJson source)
      (.member "elseClause" :: place, comparison) := by
  refine ⟨part?_rest.trans hrest.part, ?_⟩
  obtain ⟨rest, hrest, hdecodeRest⟩ := hrest.refuses
  obtain ⟨guardJson, hguard, hdecodeGuard⟩ := first.guard.recovers origin
  obtain ⟨actionJson, haction, hdecodeAction⟩ := first.action.recovers origin
  rw [Branch.toJson, put_rest]
  refine ⟨_, canonical?_object hguard haction hrest, ?_⟩
  have hvisitGuard : visit origin decodeRest { action := some first.action } "conditionGroup"
      guardJson = .ok { guard := some first.guard, action := some first.action } := by
    rw [visit, hdecodeGuard]
    rfl
  have hvisitRest : visit origin decodeRest
      { guard := some first.guard, action := some first.action } "elseClause" rest =
      .error error := by
    rw [visit, hdecodeRest]
    rfl
  rw [decode, decodeFields, List.cons_append, List.cons_append, List.singleton_append,
    visitMembers_cons haction (visit_action hdecodeAction), visitMembers_cons hguard hvisitGuard,
    visitMembers_cons_of_error hrest hvisitRest]
  rfl

end Clause

namespace Chain

theorem refuses {source : Json} {levels : Nat} {error otherError : DecodeError}
    (hclause : Refuses (Clause.decode .aside (decode levels)) error source)
    (haction : Refuses (Action.ofJson .aside) otherError source) :
    Refuses (decode (levels + 1)) (.noShape "ElseClause") source := by
  obtain ⟨json, hjson, hclause, haction⟩ := hclause.both haction
  exact ⟨json, hjson, by rw [decode, hclause, haction]⟩

theorem refusesAt (hname : ∀ operator : Operator, operator.name ≠ name) (chain : Chain) :
    ∀ entry ∈ chain.placed, ∀ levels,
      RefusesAt (decode (levels + 1)) (.noShape "ElseClause") name chain.toJson entry := by
  induction chain with
  | otherwise action => exact List.forall_mem_nil _
  | branch first rest ih =>
      rintro ⟨place, comparison⟩ hentry levels
      obtain ⟨actionJson, haction, -⟩ := first.action.recovers .aside
      rcases List.mem_append.1 hentry with hfirst | hlater
      · obtain ⟨place, rfl, hmem⟩ := Placed.mem_below hfirst
        have hguard := Group.refusesAt .aside hname _ hmem
        have hclause := Clause.refusesAt_guard (decode levels) rest hguard
        obtain ⟨guardJson, hguardJson, -⟩ := hguard.refuses
        obtain ⟨restJson, hrest, -⟩ := rest.recovers
        have hother : Refuses (Action.ofJson .aside) (.missingField "type")
            ((first.toJson rest.toJson).put (.member "conditionGroup" :: place)
              (.string name)) := by
          rw [Branch.toJson, Clause.put_guard]
          exact Action.refuses_clause hguardJson haction hrest
        exact ⟨hclause.part, refuses hclause.refuses hother⟩
      · obtain ⟨place, rfl, hmem⟩ := Placed.mem_below hlater
        have hrest := ih _ hmem
        obtain ⟨error, hrefuses⟩ := Refuses.exists_levels (fun _ => rfl)
          (fun levels => (hrest levels).refuses) levels
        have hclause := Clause.refusesAt_rest .aside first
          ⟨(hrest 0).part, hrefuses⟩
        obtain ⟨guardJson, hguard, -⟩ := first.guard.recovers .aside
        obtain ⟨restJson, hrestJson, -⟩ := hrefuses
        have hother : Refuses (Action.ofJson .aside) (.missingField "type")
            ((first.toJson rest.toJson).put (.member "elseClause" :: place) (.string name)) := by
          rw [Branch.toJson, Clause.put_rest]
          exact Action.refuses_clause hguard haction hrestJson
        exact ⟨hclause.part, refuses hclause.refuses hother⟩

theorem refusesAt_ofJson (hname : ∀ operator : Operator, operator.name ≠ name) (chain : Chain) :
    ∀ entry ∈ chain.placed,
      RefusesAt ofJson (.noShape "ElseClause") name chain.toJson entry := by
  intro entry hentry
  have hchain := chain.refusesAt hname entry hentry
  exact ⟨(hchain 0).part, .of_levels fun levels => (hchain levels).refuses⟩

end Chain

theorem Clause.refusesAt (origin : Origin)
    (hname : ∀ operator : Operator, operator.name ≠ name) (clause : Clause) :
    ∀ entry ∈ clause.placed, ∃ type,
      RefusesAt (ofJson origin) (.noShape type) name clause.toJson entry := by
  obtain ⟨first, rest⟩ := clause
  rintro ⟨place, comparison⟩ hentry
  rcases List.mem_append.1 hentry with hfirst | hlater
  · obtain ⟨place, rfl, hmem⟩ := Placed.mem_below hfirst
    exact ⟨_, refusesAt_guard _ _ (Group.refusesAt origin hname _ hmem)⟩
  · obtain ⟨place, rfl, hmem⟩ := Placed.mem_below hlater
    exact ⟨_, refusesAt_rest _ _ (Chain.refusesAt_ofJson hname rest _ hmem)⟩

namespace Interview

variable {interview : Interview} {source actionsJson new : Json} {place : Json.Place}

/-- The JSON of an interview with other actions. -/
def jsonWith (interview : Interview) (actions : Json) : Json :=
  .object ([("id", .string interview.id), ("name", .string interview.name),
      ("screens", .array (interview.screens.map Screen.toJson))] ++
    optionalMember "startingState"
      (if interview.startingState.isEmpty then none else some (.strings interview.startingState)) ++
    [("actions", actions)])

theorem toJson_eq_jsonWith :
    interview.toJson = interview.jsonWith (actionsToJson interview.actions) := rfl

theorem part?_actions :
    (interview.jsonWith source).part? (.member "actions" :: place) = source.part? place := by
  rw [jsonWith]
  cases interview.startingState.isEmpty <;> rfl

theorem put_actions :
    (interview.jsonWith source).put (.member "actions" :: place) new =
      interview.jsonWith (source.put place new) := by
  rw [jsonWith, jsonWith]
  cases interview.startingState.isEmpty <;> rfl

/-- The actions sort before the other members. -/
theorem exists_canonical_jsonWith (interview : Interview)
    (hactions : source.canonical? = some actionsJson) :
    ∃ rest, (interview.jsonWith source).canonical? =
      some (.object (("actions", actionsJson) :: rest)) := by
  obtain ⟨screensJson, hscreens, -⟩ := recovers_screens .tree interview.screens
  obtain ⟨startJson, hstart, -⟩ := recovers_strings interview.startingState
  rw [jsonWith]
  cases interview.startingState.isEmpty <;>
    simp (disch := decide) [hactions, hscreens, hstart, sortEntries, insertEntry_of_lt,
      insertEntry_of_gt]

theorem refusesAt_actions (origin : Origin)
    (hname : ∀ operator : Operator, operator.name ≠ name)
    {actions : KeyMap (List Candidate)} {screen : String} {candidates : List Candidate}
    (hmem : (screen, candidates) ∈ actions.entries) {entry : Json.Place × Comparison}
    (hentry : entry ∈
      (Placed.ofItems (fun candidate : Candidate => candidate.condition.placed) 0 candidates).below
        (.member screen)) :
    RefusesAt (decodeMap (decodeList (Candidate.ofJson origin))) (.unknownOperator name) name
      (actionsToJson actions) entry := by
  obtain ⟨entries, hascending⟩ := actions
  obtain ⟨before, after, rfl⟩ := List.append_of_mem hmem
  obtain ⟨place, comparison⟩ := entry
  obtain ⟨place, rfl, hplaced⟩ := Placed.mem_below hentry
  have hlist := RefusesAt.list (fun candidate _ => candidate.recovers origin)
    (fun _ _ _ => Candidate.refusesAt hname) _ hplaced
  have hscreen : screen ∉ (before ++ after).map Prod.fst := by
    have hnodup := hascending.nodup
    rw [List.map_append, List.map_cons, List.nodup_middle, ← List.map_append] at hnodup
    exact (List.nodup_cons.1 hnodup).1
  have hnames : ∀ member ∈
      before.map (fun entry => (entry.1, Json.array (entry.2.map Candidate.toJson))) ++
        after.map (fun entry => (entry.1, Json.array (entry.2.map Candidate.toJson))),
      member.1 ≠ screen := by
    intro member hmember
    rw [← List.map_append] at hmember
    obtain ⟨entry, hentry, rfl⟩ := List.mem_map.1 hmember
    exact fun heq => hscreen (heq ▸ List.mem_map_of_mem hentry)
  rw [actionsToJson, List.map_append, List.map_cons]
  refine ⟨?_, ?_⟩
  · rw [Json.part?_member hnames]
    exact hlist.part
  · rw [Ascending, List.map_append, List.map_cons] at hascending
    rw [Json.put_member hnames]
    exact Refuses.map (fun entry _ => .list fun candidate _ => candidate.recovers origin) hascending
      hlist.refuses

theorem refusesAt (origin : Origin) (hname : ∀ operator : Operator, operator.name ≠ name)
    (interview : Interview) :
    ∀ entry ∈ interview.placed,
      RefusesAt (ofJson origin) (.unknownOperator name) name interview.toJson entry := by
  rintro ⟨place, comparison⟩ hentry
  obtain ⟨⟨screen, candidates⟩, hmem, hbelow⟩ := List.mem_flatMap.1 hentry
  obtain ⟨place, rfl, hplaced⟩ := Placed.mem_below hbelow
  have hactions := refusesAt_actions origin hname hmem hplaced
  rw [toJson_eq_jsonWith]
  refine ⟨part?_actions.trans hactions.part, ?_⟩
  obtain ⟨actionsJson, hjson, hdecode⟩ := hactions.refuses
  obtain ⟨rest, hcanonical⟩ := interview.exists_canonical_jsonWith hjson
  dsimp only
  rw [put_actions]
  refine ⟨_, hcanonical, ?_⟩
  have hvisit : visit origin {} "actions" actionsJson = .error (.unknownOperator name) := by
    rw [visit, hdecode]
    rfl
  rw [ofJson, decodeFields, visitMembers_cons_of_error hjson hvisit]
  rfl

end Interview

/-- Where a condition stands, in a candidate or in a guard at any depth of a chain, a name that no
operator has in place of its operator's makes the whole interview or clause fail. An interview tells
the name. -/
theorem unknownOperator_refused (origin : Origin) (name : String)
    (hname : ∀ operator : Operator, operator.name ≠ name) :
    (∀ interview : Interview,
      interview.placed.map Prod.snd =
          interview.actions.entries.flatMap (fun entry => entry.2.map Candidate.condition) ∧
        ∀ entry ∈ interview.placed,
          interview.toJson.part? entry.1 = some (.string entry.2.operator.name) ∧
          ∃ json, (interview.toJson.put entry.1 (.string name)).canonical? = some json ∧
            (Interview.ofJson origin json).mapError DecodeError.message =
              .error ("Unhandled conditional operator: " ++ name)) ∧
      ∀ clause : Clause,
        clause.placed.map Prod.snd = clause.conditions ∧
        ∀ entry ∈ clause.placed,
          clause.toJson.part? entry.1 = some (.string entry.2.operator.name) ∧
          ∃ json, (clause.toJson.put entry.1 (.string name)).canonical? = some json ∧
            ∃ error, Clause.ofJson origin json = .error error := by
  refine ⟨fun interview => ⟨interview.map_snd_placed, fun entry hentry => ?_⟩,
    fun clause => ⟨clause.toChain.map_snd_placed, fun entry hentry => ?_⟩⟩
  · obtain ⟨hpart, json, hjson, hdecode⟩ := interview.refusesAt origin hname entry hentry
    exact ⟨hpart, json, hjson, by rw [hdecode]; rfl⟩
  · obtain ⟨type, hpart, json, hjson, hdecode⟩ := clause.refusesAt origin hname entry hentry
    exact ⟨hpart, json, hjson, _, hdecode⟩

theorem unknownOperator_refused_capital :
    let always : Comparison := { operator := .alwaysExecute }
    let compared : Comparison := { operator := .eq, key := some "q", operand := some "x" }
    let interview : Interview :=
      { screens := [{ id := "s" }]
        actions := ⟨[("s", [⟨always, .doNothing⟩, ⟨compared, .endInterview⟩])], by decide⟩ }
    let guard : Group := ⟨none, .or, [.leaf always, .group none .and [.leaf compared]]⟩
    let clause : Clause :=
      ⟨⟨none, ⟨none, .and, []⟩, .doNothing⟩,
        .branch ⟨none, guard, .endInterview⟩ (.otherwise .doNothing)⟩
    (∃ json, (interview.toJson.put
          [.member "actions", .member "s", .item 1, .member "operator"] (.string "Eq")).canonical? =
        some json ∧
      (Interview.ofJson .text json).mapError DecodeError.message =
        .error "Unhandled conditional operator: Eq") ∧
      ∃ json, (clause.toJson.put
          [.member "elseClause", .member "conditionGroup", .member "conditions", .item 1,
            .member "conditions", .item 0, .member "operator"] (.string "Eq")).canonical? =
        some json ∧
      ∃ error, Clause.ofJson .text json = .error error := by
  intro always compared interview guard clause
  have hname : ∀ operator : Operator, operator.name ≠ "Eq" := by
    intro operator
    cases operator <;> decide
  obtain ⟨hinterview, hclause⟩ := unknownOperator_refused .text "Eq" hname
  refine ⟨?_, ?_⟩
  · exact ((hinterview interview).2 (_, compared) (by decide)).2
  · exact ((hclause clause).2 (_, compared) (by decide)).2

end BranchingInterview
