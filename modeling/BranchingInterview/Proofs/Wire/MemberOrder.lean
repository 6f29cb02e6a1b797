import BranchingInterview.Proofs.Wire.Unaffected
import BranchingInterview.Wire.Clause
import Mathlib.Control.Monad.Basic
import Mathlib.Logic.Relation

/-!
Texts that differ in the order of members, or in which of its names a field of a condition has, are
decoded to the same. This takes that the payload of a skip can be set aside until its type is known.
-/

namespace BranchingInterview

open Wire Json

variable {origin : Origin}

namespace Group

def slots (origin : Origin) (decodeCondition : Json → Decoded Formula) : List (Slot Draft) :=
  [⟨"id", Draft.id, fun draft id => { draft with id }, decodeString⟩,
    ⟨"type", Draft.kind, fun draft kind => { draft with kind }, GroupKind.ofJson origin⟩,
    ⟨"conditions", Draft.conditions, fun draft conditions => { draft with conditions },
      decodeList decodeCondition⟩]

theorem visit_eq_slots (decodeCondition : Json → Decoded Formula) :
    visit origin decodeCondition = Slot.visit (slots origin decodeCondition) := by
  funext draft name value
  unfold visit
  split
  iterate 3
    · rfl
  · exact (Slot.visit_of_not_mem (by simp_all [slots]) draft value).symm

theorem unordered_visit {decodeCondition : Json → Decoded Formula}
    (hcondition : Unaffected .condition decodeCondition) :
    Unordered .condition fun draft name value =>
      (visit origin decodeCondition draft name value).toOption := by
  have hseparate : (slots origin decodeCondition).Pairwise Slot.Separate := by
    simp [slots, Slot.separate_iff]
  rw [visit_eq_slots]
  apply Slot.unordered_visit hseparate
  · simp only [slots, List.forall_mem_cons]
    have hkind : Unaffected .plain (GroupKind.ofJson origin) := unaffected_decodeName nofun
    have hconditions : Unaffected .conditions (decodeList decodeCondition) :=
      unaffected_decodeList fun _ _ => hcondition
    exact ⟨unaffected_decodeString, hkind, hconditions, List.forall_mem_nil _⟩
  · intro _ draft name second hsecond
    exact eq_of_mem_aliases (Slot.visit (slots origin decodeCondition) draft) rfl rfl hsecond

theorem unaffected_decode {decodeCondition : Json → Decoded Formula}
    (hcondition : Unaffected .condition decodeCondition) :
    Unaffected .condition (decode origin decodeCondition) := by
  refine (unordered_visit hcondition).decodeFields_of_item fun index size name hname => ?_
  match index, hname with
  | 0, hname => exact Or.inr rfl
  | 1, hname => exact Or.inr rfl
  | 2, hname => cases hname; exact Or.inl rfl
  | index + 3, hname => cases hname

end Group

namespace Formula

theorem toOption_decode (levels : Nat) (json : Json) :
    (decode (levels + 1) json).toOption =
      ((Group.decode .aside (decode levels) json).toOption.map Group.toFormula).or
        ((Comparison.ofJson .aside json).toOption.map leaf) := by
  rw [decode]
  cases Group.decode .aside (decode levels) json with
  | ok found => rfl
  | error _ => cases Comparison.ofJson .aside json <;> rfl

theorem unaffected_decode (levels : Nat) : Unaffected .condition (decode levels) := by
  induction levels with
  | zero => exact fun _ _ _ _ => rfl
  | succ levels ih =>
      intro json other hjson haltered
      rw [toOption_decode, toOption_decode, Group.unaffected_decode ih json other hjson haltered,
        Comparison.unaffected_ofJson json other hjson haltered]

theorem unaffected_ofJson : Unaffected .condition ofJson := by
  have hdecode : Unaffected .condition fun json => decode (json.depth + 1) json := by
    intro json other hjson haltered
    dsimp only
    rw [haltered.depth_eq]
    exact unaffected_decode _ json other hjson haltered
  exact unaffected_setAside hdecode

end Formula

theorem Group.unaffected_ofJson : Unaffected .condition (ofJson origin) :=
  unaffected_decode Formula.unaffected_ofJson

namespace Clause

def slots (origin : Origin) (decodeRest : Json → Decoded Chain) : List (Slot Draft) :=
  [⟨"id", Draft.id, fun draft id => { draft with id }, decodeString⟩,
    ⟨"conditionGroup", Draft.guard, fun draft guard => { draft with guard },
      Group.ofJson origin⟩,
    ⟨"action", Draft.action, fun draft action => { draft with action }, Action.ofJson origin⟩,
    ⟨"elseClause", Draft.rest, fun draft rest => { draft with rest }, decodeRest⟩]

theorem visit_eq_slots (decodeRest : Json → Decoded Chain) :
    visit origin decodeRest = Slot.visit (slots origin decodeRest) := by
  funext draft name value
  unfold visit
  split
  iterate 4
    · rfl
  · exact (Slot.visit_of_not_mem (by simp_all [slots]) draft value).symm

theorem unordered_visit {decodeRest : Json → Decoded Chain}
    (hrest : Unaffected .clause decodeRest) :
    Unordered .clause fun draft name value =>
      (visit origin decodeRest draft name value).toOption := by
  have hseparate : (slots origin decodeRest).Pairwise Slot.Separate := by
    simp [slots, Slot.separate_iff]
  rw [visit_eq_slots]
  refine Slot.unordered_visit hseparate ?_ nofun
  simp only [slots, List.forall_mem_cons]
  exact ⟨unaffected_decodeString, Group.unaffected_ofJson, Action.unaffected_ofJson (Or.inl rfl),
    hrest, List.forall_mem_nil _⟩

theorem unaffected_decode {decodeRest : Json → Decoded Chain}
    (hrest : Unaffected .clause decodeRest) : Unaffected .clause (decode origin decodeRest) := by
  refine (unordered_visit hrest).decodeFields_of_item fun index size name hname => ?_
  match index, hname with
  | 0, hname => exact Or.inr rfl
  | 2, hname => exact Or.inr rfl
  | 1, hname | 3, hname =>
      cases hname
      by_cases hsize : size = 4
      · subst hsize
        exact Or.inl rfl
      · refine Or.inr ?_
        unfold Shape.item
        split <;> simp_all
  | index + 4, hname => cases hname

end Clause

namespace Chain

theorem toOption_decode (levels : Nat) (json : Json) :
    (decode (levels + 1) json).toOption =
      ((Clause.decode .aside (decode levels) json).toOption.map Clause.toChain).or
        ((Action.ofJson .aside json).toOption.map otherwise) := by
  rw [decode]
  cases Clause.decode .aside (decode levels) json with
  | ok clause => rfl
  | error _ => cases Action.ofJson .aside json <;> rfl

theorem unaffected_decode (levels : Nat) : Unaffected .clause (decode levels) := by
  induction levels with
  | zero => exact fun _ _ _ _ => rfl
  | succ levels ih =>
      intro json other hjson haltered
      rw [toOption_decode, toOption_decode, Clause.unaffected_decode ih json other hjson haltered,
        Action.unaffected_ofJson (Or.inr rfl) json other hjson haltered]

theorem unaffected_ofJson : Unaffected .clause ofJson := by
  have hdecode : Unaffected .clause fun json => decode (json.depth + 1) json := by
    intro json other hjson haltered
    dsimp only
    rw [haltered.depth_eq]
    exact unaffected_decode _ json other hjson haltered
  exact unaffected_setAside hdecode

end Chain

theorem Clause.unaffected_ofJson : Unaffected .clause (ofJson origin) :=
  unaffected_decode Chain.unaffected_ofJson

namespace Interview

def slots (origin : Origin) : List (Slot Draft) :=
  [⟨"id", Draft.id, fun draft id => { draft with id }, decodeString⟩,
    ⟨"name", Draft.name, fun draft name => { draft with name }, decodeString⟩,
    ⟨"screens", Draft.screens, fun draft screens => { draft with screens },
      decodeList (Screen.ofJson origin)⟩,
    ⟨"startingState", Draft.startingState, fun draft startingState => { draft with startingState },
      decodeList decodeString⟩,
    ⟨"actions", Draft.actions, fun draft actions => { draft with actions },
      decodeMap (decodeList (Candidate.ofJson origin))⟩]

theorem visit_eq_slots : visit origin = Slot.visit (slots origin) := by
  funext draft name value
  unfold visit
  split
  iterate 5
    · rfl
  · exact (Slot.visit_of_not_mem (by simp_all [slots]) draft value).symm

theorem unordered_visit :
    Unordered .interview fun draft name value => (visit origin draft name value).toOption := by
  have hseparate : (slots origin).Pairwise Slot.Separate := by simp [slots, Slot.separate_iff]
  rw [visit_eq_slots]
  refine Slot.unordered_visit hseparate ?_ nofun
  simp only [slots, List.forall_mem_cons]
  have hscreens : Unaffected .plain (decodeList (Screen.ofJson origin)) :=
    unaffected_decodeList fun _ _ => Screen.unaffected_ofJson
  have hids : Unaffected .plain (decodeList decodeString) :=
    unaffected_decodeList fun _ _ => unaffected_decodeString
  have hcandidates : Unaffected .conditions (decodeList (Candidate.ofJson origin)) :=
    unaffected_decodeList fun _ _ => Candidate.unaffected_ofJson
  have hactions : Unaffected .byScreen (decodeMap (decodeList (Candidate.ofJson origin))) :=
    unaffected_decodeMap nofun fun _ => hcandidates
  exact ⟨unaffected_decodeString, unaffected_decodeString, hscreens, hids, hactions,
    List.forall_mem_nil _⟩

theorem unaffected_ofJson : Unaffected .interview (ofJson origin) := by
  refine unordered_visit.decodeFields_of_item fun index size name hname => ?_
  match index, hname with
  | 0, hname => exact Or.inr rfl
  | 1, hname => exact Or.inr rfl
  | 2, hname => exact Or.inr rfl
  | 3, hname => exact Or.inr rfl
  | 4, hname => cases hname; exact Or.inl rfl
  | index + 5, hname => cases hname

end Interview

/-- Two JSON texts of which the tree of one is that of the other with alterations. -/
structure Alike (shape : Shape) (text other : String) : Prop where
  complete : (Document.read text).isComplete = true
  complete_other : (Document.read other).isComplete = true
  altered : Relation.ReflTransGen (Altered shape) (Document.read text).root
    (Document.read other).root

section

variable {α : Type} {shape : Shape} {text other : String}

theorem Wire.toOption_decodeText {decode : Origin → Json → Decoded α}
    (hcomplete : (Document.read text).isComplete = true) :
    (decodeText decode text).toOption = (decode .text (Document.read text).root).toOption := by
  rw [decodeText]
  cases decode .text (Document.read text).root with
  | error error => rfl
  | ok value =>
      rw [ok_bind, hcomplete]
      rfl

theorem Wire.Unaffected.of_reflTransGen {decode : Json → Decoded α}
    (hdecode : Unaffected shape decode) {json altered : Json} (hjson : json.Orderly)
    (hsteps : Relation.ReflTransGen (Altered shape) json altered) :
    (decode json).toOption = (decode altered).toOption ∧ altered.Orderly := by
  induction hsteps with
  | refl => exact ⟨rfl, hjson⟩
  | tail _ hstep ih =>
      obtain ⟨heq, horderly⟩ := ih
      exact ⟨heq.trans (hdecode _ _ horderly hstep), hstep.orderly horderly⟩

theorem Alike.decodeText_eq (halike : Alike shape text other) {decode : Origin → Json → Decoded α}
    (hdecode : Unaffected shape (decode .text)) (htext : (Document.read text).root.Orderly) :
    (decodeText decode text).toOption = (decodeText decode other).toOption := by
  rw [toOption_decodeText halike.complete, toOption_decodeText halike.complete_other]
  exact (hdecode.of_reflTransGen htext halike.altered).1

end

/-- Where no object repeats a name and the payload of each skip is a value throughout, neither the
order of members nor the name that a field of a condition has changes whether a text decodes, nor
to what. An id that is missing stays so. -/
theorem decodeText_altered (text other : String)
    (hdistinct : (Document.read text).root.HasDistinctNames)
    (hskips : (Document.read text).root.HasWholeSkips) :
    (Alike .interview text other →
      (decodeText Interview.ofJson text).toOption =
        (decodeText Interview.ofJson other).toOption) ∧
    (Alike .condition text other →
      (decodeText Candidate.ofJson text).toOption =
        (decodeText Candidate.ofJson other).toOption ∧
      (decodeText Comparison.ofJson text).toOption =
        (decodeText Comparison.ofJson other).toOption ∧
      (decodeText Group.ofJson text).toOption = (decodeText Group.ofJson other).toOption) ∧
    (Alike .clause text other →
      (decodeText Clause.ofJson text).toOption = (decodeText Clause.ofJson other).toOption) ∧
    (Alike .plain text other →
      (decodeText Action.ofJson text).toOption = (decodeText Action.ofJson other).toOption ∧
      (decodeText Responses.ofJson text).toOption =
        (decodeText Responses.ofJson other).toOption) := by
  have horderly : (Document.read text).root.Orderly := ⟨hdistinct, hskips⟩
  refine ⟨fun halike => ?_, fun halike => ⟨?_, ?_, ?_⟩, fun halike => ?_, fun halike => ⟨?_, ?_⟩⟩
  · exact halike.decodeText_eq Interview.unaffected_ofJson horderly
  · exact halike.decodeText_eq Candidate.unaffected_ofJson horderly
  · exact halike.decodeText_eq Comparison.unaffected_ofJson horderly
  · exact halike.decodeText_eq Group.unaffected_ofJson horderly
  · exact halike.decodeText_eq Clause.unaffected_ofJson horderly
  · exact halike.decodeText_eq (Action.unaffected_ofJson (Or.inl rfl)) horderly
  · exact halike.decodeText_eq Responses.unaffected_ofJson horderly

/-- The operator gets its second name, and the members of each object the opposite order. -/
theorem decodeText_altered_renamed :
    let text := "\x7b\"screens\":[\x7b\"id\":\"a\"\x7d],\"actions\":\x7b\"a\":[\x7b" ++
      "\"operator\":\"eq\",\"responseKey\":\"q\",\"value\":\"1\"," ++
      "\"actionConfig\":\x7b" ++
      "\"payload\":\x7b\"q\":\x7b\"response\":\"x\"\x7d\x7d,\"type\":\"skip\"\x7d\x7d]\x7d\x7d"
    let other := "\x7b\"actions\":\x7b\"a\":[\x7b" ++
      "\"actionConfig\":\x7b\"type\":\"skip\"," ++
      "\"payload\":\x7b\"q\":\x7b\"response\":\"x\"\x7d\x7d\x7d," ++
      "\"value\":\"1\",\"responseKey\":\"q\",\"conditionalOperator\":\"eq\"\x7d]\x7d," ++
      "\"screens\":[\x7b\"id\":\"a\"\x7d]\x7d"
    let responses : Responses := ⟨[("q", { answer := .text "x" })], by decide⟩
    let interview : Interview :=
      { screens := [{ id := "a" }]
        actions := .ofList [("a",
          [⟨{ operator := .eq, key := some "q", operand := some "1" }, .skip responses⟩])] }
    (Document.read text).root.HasDistinctNames ∧
      (Document.read text).root.HasWholeSkips ∧
      Alike .interview text other ∧
      (decodeText Interview.ofJson other).toOption = some interview := by
  intro text other responses interview
  let screens : String × Json := ("screens", .array [.object [("id", .string "a")]])
  let actions (condition : List (String × Json)) : String × Json :=
    ("actions", .object [("a", .array [.object condition])])
  let rest : List (String × Json) := [("responseKey", .string "q"), ("value", .string "1")]
  let kind : String × Json := ("type", .string "skip")
  let payload : String × Json := ("payload", .object [("q", .object [("response", .string "x")])])
  let config : String × Json := ("actionConfig", .object [payload, kind])
  let config' : String × Json := ("actionConfig", .object [kind, payload])
  let first : String × Json := ("operator", .string "eq")
  let first' : String × Json := ("conditionalOperator", .string "eq")
  obtain ⟨hcomplete, hroot⟩ : (Document.read text).isComplete = true ∧
      (Document.read text).root = .object [screens, actions (first :: rest ++ [config])] := by
    decide +kernel +zetaReduce
  obtain ⟨hcomplete', hroot'⟩ : (Document.read other).isComplete = true ∧
      (Document.read other).root =
        .object [actions (config' :: rest.reverse ++ [first']), screens] := by
    decide +kernel +zetaReduce
  have hactions {condition altered : List (String × Json)}
      (haltered : Altered .condition (.object condition) (.object altered)) :
      Altered .interview (.object [screens, actions condition])
        (.object [screens, actions altered]) :=
    @Altered.member .interview [screens] [] "actions" _ _
      (@Altered.member .byScreen [] [] "a" _ _ (@Altered.item .conditions [] [] _ _ haltered))
  have hoperator : Altered .condition (.object (first :: rest ++ [config]))
      (.object (first' :: rest ++ [config])) :=
    @Altered.rename [] (rest ++ [config]) "operator" "conditionalOperator" _ (by decide)
      (by decide)
  have hconfig : Altered .condition (.object (first' :: rest ++ [config]))
      (.object (first' :: rest ++ [config'])) :=
    @Altered.member _ (first' :: rest) [] "actionConfig" _ _ (.reorder (.swap kind payload []))
  have hcondition : Altered .condition (.object (first' :: rest ++ [config']))
      (.object (config' :: rest.reverse ++ [first'])) :=
    .reorder (List.reverse_perm _).symm
  have halike : Alike .interview text other := by
    refine ⟨hcomplete, hcomplete', ?_⟩
    rw [hroot, hroot']
    exact .head (hactions hoperator) (.head (hactions hconfig)
      (.head (hactions hcondition) (.single (.reorder (.swap _ _ _)))))
  have hdistinct : (Document.read text).root.HasDistinctNames := by
    rw [hroot]
    decide +kernel +zetaReduce
  have hskips : (Document.read text).root.HasWholeSkips := by
    rw [hroot]
    decide +kernel +zetaReduce
  have hinterview : (decodeText Interview.ofJson text).toOption = some interview := by
    rw [toOption_decodeText hcomplete, hroot]
    decide +kernel +zetaReduce
  obtain ⟨heq, -, -, -⟩ := decodeText_altered text other hdistinct hskips
  exact ⟨hdistinct, hskips, halike, (heq halike).symm.trans hinterview⟩

/-- A number that is too large is passed over where it follows the type, and keeps the payload from
being set aside where it precedes the type. -/
theorem decodeText_altered_tooLarge :
    let payload := "\"payload\":\x7b\"q\":\x7b\"response\":\"x\",\"weight\":1e999\x7d\x7d"
    let typeFirst := "\x7b\"type\":\"skip\"," ++ payload ++ "\x7d"
    let payloadFirst := "\x7b" ++ payload ++ ",\"type\":\"skip\"\x7d"
    let responses : Responses := ⟨[("q", { answer := .text "x" })], by decide⟩
    Alike .plain typeFirst payloadFirst ∧
      (Document.read typeFirst).root.HasDistinctNames ∧
      decodeText Action.ofJson typeFirst = .ok (.skip responses) ∧
      decodeText Action.ofJson payloadFirst = .error .unreadable ∧
      (decodeText Action.ofJson typeFirst).toOption ≠
        (decodeText Action.ofJson payloadFirst).toOption := by
  intro payload typeFirst payloadFirst responses
  let kind : String × Json := ("type", .string "skip")
  let skipped : String × Json := ("payload", .object [("q", .object
    [("response", .string "x"), ("weight", .flaw .unrepresentable)])])
  obtain ⟨hcomplete, hroot⟩ : (Document.read typeFirst).isComplete = true ∧
      (Document.read typeFirst).root = .object [kind, skipped] := by
    decide +kernel +zetaReduce
  obtain ⟨hcomplete', hroot'⟩ : (Document.read payloadFirst).isComplete = true ∧
      (Document.read payloadFirst).root = .object [skipped, kind] := by
    decide +kernel +zetaReduce
  have halike : Alike .plain typeFirst payloadFirst := by
    refine ⟨hcomplete, hcomplete', ?_⟩
    rw [hroot, hroot']
    exact .single (.reorder (.swap _ _ _))
  have hdistinct : (Document.read typeFirst).root.HasDistinctNames := by
    rw [hroot]
    decide +kernel +zetaReduce
  have hskip : decodeText Action.ofJson typeFirst = .ok (.skip responses) := by
    rw [decodeText, hroot, hcomplete]
    decide +kernel +zetaReduce
  have hunreadable : decodeText Action.ofJson payloadFirst = .error .unreadable := by
    rw [decodeText, hroot', hcomplete']
    decide +kernel +zetaReduce
  refine ⟨halike, hdistinct, hskip, hunreadable, ?_⟩
  rw [hskip, hunreadable]
  exact nofun

end BranchingInterview
