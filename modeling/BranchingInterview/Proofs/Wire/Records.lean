import BranchingInterview.Proofs.Wire.Recovery
import BranchingInterview.Action.Stored
import BranchingInterview.Wire.Interview

/-!
Records come back from their JSON. A field that encoding leaves out is the one that decoding takes
to be empty, and an action is decoded from its payload before its kind.
-/

namespace BranchingInterview

open Wire

theorem Answer.recovers (answer : Answer) : Recovers toJson ofJson answer := by
  cases answer with
  | text value => exact ⟨.string value, rfl, rfl⟩
  | record fields =>
      have hcanonical : fields.toJson.canonical? = some (.object fields.members) :=
        Json.canonical?_of_isCanonical fields.canonical
      refine ⟨fields.toJson, hcanonical, ?_⟩
      unfold ofJson
      split
      next hnone => rw [hcanonical] at hnone; cases hnone
      next hstring => rw [hcanonical] at hstring; cases hstring
      next hobject => rw [hcanonical] at hobject; cases hobject; rfl
      next _ hnoObject hother =>
        rw [hcanonical] at hother
        cases hother
        exact (hnoObject fields.members rfl).elim

theorem Question.recovers (origin : Origin) (question : Question) :
    Recovers toJson (ofJson origin) question := by
  obtain ⟨id, screen, prompt⟩ := question
  refine ⟨.object ([("id", .string id)] ++
    optionalMember "prompt" (if prompt = "" then none else some (.string prompt)) ++
    optionalMember "screenId" (screen.map .string)), ?_, ?_⟩
  · by_cases hprompt : prompt = "" <;> cases screen <;>
      simp (disch := decide) [toJson, hprompt, sortEntries, insertEntry_of_lt, insertEntry_of_gt]
  · by_cases hprompt : prompt = ""
    · subst hprompt
      cases screen <;> rfl
    · rw [if_neg hprompt]
      cases screen <;> rfl

section

variable {answer : Answer} {question : Question} {answerJson questionJson : Json}

theorem Response.visit_answer (origin : Origin) (hdecode : Answer.ofJson answerJson = .ok answer)
    {draft : Draft} (hfree : draft.answer = none) :
    visit origin draft "response" answerJson = .ok { draft with answer := some answer } := by
  rw [visit, hfree, hdecode]
  rfl

theorem Response.ofJson_answer (origin : Origin) (hwhole : answerJson.isWhole = true)
    (hdecode : Answer.ofJson answerJson = .ok answer) :
    ofJson origin (.object [("response", answerJson)]) = .ok { answer } := by
  rw [ofJson, decodeFields, visitMembers_cons_of_isWhole hwhole (visit_answer origin hdecode rfl)]
  rfl

theorem Response.ofJson_question (origin : Origin) (hwhole : answerJson.isWhole = true)
    (hdecode : Answer.ofJson answerJson = .ok answer)
    (hwholeQuestion : questionJson.isWhole = true) (hfound : questionJson ≠ .null)
    (hdecodeQuestion : Question.ofJson origin questionJson = .ok question) :
    ofJson origin (.object [("entry", questionJson), ("response", answerJson)]) =
      .ok { question := some question, answer } := by
  have hvisitQuestion : visit origin {} "entry" questionJson =
      .ok { question := some (some question) } := by
    rw [visit, decodeOptional_of_found hfound hdecodeQuestion]
    rfl
  rw [ofJson, decodeFields, visitMembers_cons_of_isWhole hwholeQuestion hvisitQuestion,
    visitMembers_cons_of_isWhole hwhole (visit_answer origin hdecode rfl)]
  rfl

end

theorem Response.recovers (origin : Origin) (response : Response) :
    Recovers toJson (ofJson origin) response := by
  obtain ⟨question, answer⟩ := response
  obtain ⟨answerJson, hanswer, hdecodeAnswer⟩ := answer.recovers
  have hwhole := isWhole_of_canonical? hanswer
  cases question with
  | none =>
      refine ⟨.object [("response", answerJson)], ?_, ofJson_answer origin hwhole hdecodeAnswer⟩
      simp [toJson, hanswer, sortEntries]
  | some question =>
      obtain ⟨questionJson, hquestion, hdecodeQuestion⟩ := question.recovers origin
      have hfound : questionJson ≠ .null := by
        obtain ⟨members, rfl⟩ := exists_of_canonical?_object hquestion
        intro hnull
        cases hnull
      refine ⟨.object [("entry", questionJson), ("response", answerJson)], ?_,
        ofJson_question origin hwhole hdecodeAnswer (isWhole_of_canonical? hquestion) hfound
          hdecodeQuestion⟩
      simp (disch := decide) [toJson, hquestion, hanswer, sortEntries, insertEntry_of_gt]

theorem Responses.recovers (origin : Origin) (responses : Responses) :
    Recovers toJson (ofJson origin) responses :=
  Recovers.map fun entry _ => entry.2.recovers origin

namespace Action

variable {action : Action} {source payload : Json}

theorem Kind.ofJson_toJson (origin : Origin) (kind : Kind) : ofJson origin kind.toJson = .ok kind :=
  decodeName_string (ofName?_name kind) origin

@[simp]
theorem Kind.canonical?_toJson (kind : Kind) : kind.toJson.canonical? = some kind.toJson := rfl

theorem canonical?_toJson_of_none (hpayload : action.payload? = none) :
    action.toJson.canonical? = some (.object [("type", action.kind.toJson)]) := by
  rw [toJson, hpayload]
  rfl

theorem canonical?_toJson_of_some (hpayload : action.payload? = some source)
    (hsource : source.canonical? = some payload) :
    action.toJson.canonical? =
      some (.object [("payload", payload), ("type", action.kind.toJson)]) := by
  simp (disch := decide) [toJson, hpayload, hsource, sortEntries, insertEntry_of_lt]

theorem exists_payload (hpayload : action.payload? = some source) :
    ∃ payload, source.canonical? = some payload ∧
      ofPayload .aside action.kind payload = .ok action := by
  cases action with
  | push screens =>
      cases hpayload
      obtain ⟨payload, hsource, hdecode⟩ := recovers_strings screens
      exact ⟨payload, hsource, by rw [kind, ofPayload, hdecode]; rfl⟩
  | skip responses =>
      cases hpayload
      obtain ⟨payload, hsource, hdecode⟩ := responses.recovers .aside
      exact ⟨payload, hsource, by rw [kind, ofPayload, hdecode]; rfl⟩
  | checkpoint name | restore name | milestone name =>
      cases hpayload
      exact ⟨.string name, rfl, rfl⟩
  | endInterview | doNothing => cases hpayload

theorem recovers (origin : Origin) (action : Action) :
    Recovers toJson (ofJson origin) action := by
  have hkind := Kind.ofJson_toJson origin action.kind
  cases hpayload : action.payload? with
  | none =>
      refine ⟨_, canonical?_toJson_of_none hpayload, ?_⟩
      have hvisit : visit origin .start "type" action.kind.toJson = .ok (.kind action.kind) := by
        rw [visit, hkind]
        rfl
      rw [ofJson, visitMembers_cons action.kind.canonical?_toJson hvisit]
      cases action with
      | endInterview | doNothing => rfl
      | push | skip | checkpoint | restore | milestone => cases hpayload
  | some source =>
      obtain ⟨payload, hsource, hdecode⟩ := exists_payload hpayload
      refine ⟨_, canonical?_toJson_of_some hpayload hsource, ?_⟩
      -- The payload sorts before the type, so it is set aside until the kind is known.
      have hwaiting : visit origin .start "payload" payload = .ok (.payload payload) := by
        rw [visit, setAside_of_canonical? hsource]
        rfl
      have hvisit : visit origin (.payload payload) "type" action.kind.toJson =
          .ok (.action action) := by
        rw [visit, hkind, ok_bind, hdecode]
        rfl
      rw [ofJson, visitMembers_cons hsource hwaiting,
        visitMembers_cons action.kind.canonical?_toJson hvisit]
      rfl

end Action

theorem StoredAction.recovers (origin : Origin) (stored : StoredAction) :
    Recovers toJson (ofJson origin) stored := by
  obtain ⟨kind, payload⟩ := stored
  refine ⟨.object (optionalMember "payload" (payload.map .string) ++ [("type", kind.toJson)]),
    ?_, ?_⟩
  · cases payload <;>
      simp (disch := decide) [toJson, sortEntries, insertEntry_of_lt]
  · have hvisit (draft : Draft) (hfree : draft.kind = none) :
        visit origin draft "type" kind.toJson = .ok { draft with kind := some kind } := by
      rw [visit, hfree, Action.Kind.ofJson_toJson]
      rfl
    cases payload with
    | none =>
        change (visitMembers (visit origin) {} [("type", kind.toJson)] >>= complete) = _
        rw [visitMembers_cons kind.canonical?_toJson (hvisit {} rfl)]
        rfl
    | some payload =>
        have hpayload : visit origin {} "payload" (.string payload) =
            .ok { payload := some (some payload) } := rfl
        change (visitMembers (visit origin) {}
          [("payload", .string payload), ("type", kind.toJson)] >>= complete) = _
        rw [visitMembers_cons (Json.canonical?_string payload) hpayload,
          visitMembers_cons kind.canonical?_toJson (hvisit _ rfl)]
        rfl

@[simp]
theorem Operator.canonical?_toJson (operator : Operator) :
    operator.toJson.canonical? = some operator.toJson := rfl

theorem Operator.ofJson_toJson (operator : Operator) : ofJson operator.toJson = .ok operator := by
  have hname := ofName?_name operator
  rw [toJson, ofJson, decodeString, ok_bind, hname]
  rfl

namespace Comparison

theorem names_members (comparison : Comparison) :
    (comparison.members.map Prod.fst).Sublist
      ["operator", "responseKey", "responseKeyField", "value"] := by
  rw [members, List.map_append, List.map_append, List.map_append]
  have hkey := (List.Sublist.refl ["operator"]).append
    (names_optionalMember "responseKey" (comparison.key.map .string))
  have hfield := hkey.append
    (names_optionalMember "responseKeyField" (comparison.field.map .string))
  exact hfield.append (names_optionalMember "value" (comparison.operand.map .string))

theorem ascending_of_names {members : List (String × Json)}
    (hnames : (members.map Prod.fst).Sublist
      ["operator", "responseKey", "responseKeyField", "value"]) : Ascending members := by
  have hascending : ["operator", "responseKey", "responseKeyField", "value"].Pairwise (· < ·) := by
    decide
  exact hascending.sublist hnames

theorem ascending_members (comparison : Comparison) : Ascending comparison.members :=
  ascending_of_names comparison.names_members

theorem canonicalMembers?_members (comparison : Comparison) :
    Json.canonicalMembers? comparison.members = some comparison.members := by
  obtain ⟨operator, key, field, operand⟩ := comparison
  cases key <;> cases field <;> cases operand <;> rfl

theorem canonical?_toJson (comparison : Comparison) :
    comparison.toJson.canonical? = some comparison.toJson := by
  have hsorted := sortEntries_of_ascending comparison.ascending_members
  rw [toJson, Json.canonical?_object, canonicalMembers?_members, Option.map_some, hsorted]

/-- Visiting the members of a comparison, each field is found under its name. -/
theorem visitMembers_members (comparison : Comparison) :
    (visitMembers visit {} comparison.members >>= complete) = .ok comparison := by
  obtain ⟨operator, key, field, operand⟩ := comparison
  have hoperator : visit {} "operator" operator.toJson = .ok { operator := some operator } := by
    have hfield : Field.ofName? "operator" = some .operator := rfl
    rw [visit, hfield]
    simp only [visitField, Operator.ofJson_toJson]
    rfl
  have hvisit := visitMembers_cons operator.canonical?_toJson hoperator
  cases key <;> cases field <;> cases operand <;>
    exact (congrArg (· >>= complete) (hvisit _)).trans rfl

theorem recovers (origin : Origin) (comparison : Comparison) :
    Recovers toJson (ofJson origin) comparison :=
  ⟨comparison.toJson, comparison.canonical?_toJson, comparison.visitMembers_members⟩

end Comparison

namespace Candidate

/-- The action sorts before every member of the comparison it is merged with. -/
theorem canonical?_object {members : List (String × Json)} {action actionJson : Json}
    (hnames : (members.map Prod.fst).Sublist
      ["operator", "responseKey", "responseKeyField", "value"])
    (hmembers : Json.canonicalMembers? members = some members)
    (haction : action.canonical? = some actionJson) :
    (Json.object (members ++ [("actionConfig", action)])).canonical? =
      some (.object (("actionConfig", actionJson) :: members)) := by
  have hvalues : Json.canonicalMembers? (members ++ [("actionConfig", action)]) =
      some (members ++ [("actionConfig", actionJson)]) := by
    refine Json.canonicalMembers?_append hmembers ?_
    rw [Json.canonicalMembers?_cons, haction]
    rfl
  have hleast : ∀ name ∈ ["operator", "responseKey", "responseKeyField", "value"],
      "actionConfig" < name := by
    decide
  have hsorted := sortEntries_append_least (Comparison.ascending_of_names hnames) actionJson
    fun member hmember => hleast _ (hnames.subset (List.mem_map_of_mem hmember))
  rw [Json.canonical?_object, hvalues, Option.map_some, hsorted]

theorem canonical?_toJson {candidate : Candidate} {actionJson : Json}
    (haction : candidate.action.toJson.canonical? = some actionJson) :
    candidate.toJson.canonical? =
      some (.object (("actionConfig", actionJson) :: candidate.condition.members)) :=
  canonical?_object candidate.condition.names_members candidate.condition.canonicalMembers?_members
    haction

theorem visitMembers_members (origin : Origin) (action : Option Action) (comparison : Comparison) :
    visitMembers (visit origin) { action } comparison.members =
      .ok { action, others := comparison.members } := by
  obtain ⟨operator, key, field, operand⟩ := comparison
  cases key <;> cases field <;> cases operand <;> rfl

theorem recovers (origin : Origin) (candidate : Candidate) :
    Recovers toJson (ofJson origin) candidate := by
  obtain ⟨condition, action⟩ := candidate
  obtain ⟨actionJson, haction, hdecode⟩ := action.recovers origin
  refine ⟨_, canonical?_toJson haction, ?_⟩
  have hvisit : visit origin {} "actionConfig" actionJson = .ok { action := some action } := by
    rw [visit, hdecode]
    rfl
  have hcondition := condition.visitMembers_members
  rw [ofJson, visitMembers_cons haction hvisit, visitMembers_members, ok_bind]
  calc complete { action := some action, others := condition.members }
    _ = visitMembers Comparison.visit {} condition.members >>= fun draft =>
          Comparison.complete draft >>= fun condition => .ok ⟨condition, action⟩ := rfl
    _ = (visitMembers Comparison.visit {} condition.members >>= Comparison.complete) >>=
          fun condition => .ok ⟨condition, action⟩ := (bind_assoc _ _ _).symm
    _ = .ok ⟨condition, action⟩ := by rw [hcondition]; rfl

end Candidate

theorem decodeUInt32_toNat (count : UInt32) : decodeUInt32 (.integer count.toNat) = .ok count := by
  have hrange : (0 : Int) ≤ count.toNat ∧ (count.toNat : Int).toNat < UInt32.size := by
    refine ⟨Int.natCast_nonneg _, ?_⟩
    rw [Int.toNat_natCast]
    exact count.toNat_lt
  rw [Json.integer, decodeUInt32, if_pos hrange, Int.toNat_natCast, UInt32.ofNat_toNat]

theorem Screen.recovers (origin : Origin) (screen : Screen) :
    Recovers toJson (ofJson origin) screen := by
  obtain ⟨id, title, headerText, isInStartingState, startingStateOrder⟩ := screen
  refine ⟨.object ([("headerText", .string headerText), ("id", .string id),
    ("isInStartingState", .bool isInStartingState)] ++
    optionalMember "startingStateOrder" (startingStateOrder.map fun order => .integer order.toNat) ++
    [("title", .string title)]), ?_, ?_⟩
  · cases startingStateOrder <;>
      simp (disch := decide) [toJson, sortEntries, insertEntry_of_lt, insertEntry_of_gt]
  · cases startingStateOrder with
    | none => rfl
    | some order =>
        have hfirst : visitMembers visit {} [("headerText", .string headerText),
            ("id", .string id), ("isInStartingState", .bool isInStartingState)] =
            .ok { id, headerText, isInStartingState } := rfl
        have hfound : Json.integer order.toNat ≠ .null := by
          intro hnull
          cases hnull
        have hdecode := decodeOptional_of_found hfound (decodeUInt32_toNat order)
        have hvisit : visit { id, headerText, isInStartingState } "startingStateOrder"
              (.integer order.toNat) =
            .ok { id, headerText, isInStartingState, startingStateOrder := some (some order) } := by
          rw [visit, hdecode]
          rfl
        rw [ofJson, decodeFields, Option.map_some, List.append_assoc, visitMembers_append hfirst]
        change (visitMembers visit _ [_, _] >>= complete) = _
        rw [visitMembers_cons (Json.canonical?_integer _) hvisit]
        rfl

namespace Interview

theorem recovers_actions (origin : Origin) (actions : KeyMap (List Candidate)) :
    Recovers actionsToJson (decodeMap (decodeList (Candidate.ofJson origin))) actions :=
  Recovers.map fun _ _ => Recovers.list fun candidate _ => candidate.recovers origin

theorem recovers_screens (origin : Origin) (screens : List Screen) :
    Recovers (fun screens => .array (screens.map Screen.toJson))
      (decodeList (Screen.ofJson origin)) screens :=
  Recovers.list fun screen _ => screen.recovers origin

/-- An empty list of starting screens is left out and comes back empty. -/
theorem recovers (origin : Origin) (interview : Interview) :
    Recovers toJson (ofJson origin) interview := by
  obtain ⟨id, name, screens, startingState, actions⟩ := interview
  obtain ⟨actionsJson, hactions, hdecodeActions⟩ := recovers_actions origin actions
  obtain ⟨screensJson, hscreens, hdecodeScreens⟩ := recovers_screens origin screens
  have hvisitActions : visit origin {} "actions" actionsJson = .ok { actions := some actions } := by
    rw [visit, hdecodeActions]
    rfl
  have hmiddle : visitMembers (visit origin) { actions := some actions }
      [("id", .string id), ("name", .string name)] =
      .ok { id := some id, name := some name, actions := some actions } := rfl
  have hvisitScreens : visit origin { id := some id, name := some name, actions := some actions }
      "screens" screensJson = .ok
        { id := some id, name := some name, screens := some screens, actions := some actions } := by
    rw [visit, hdecodeScreens]
    rfl
  cases startingState with
  | nil =>
      refine ⟨.object (("actions", actionsJson) :: ([("id", .string id), ("name", .string name)] ++
        [("screens", screensJson)])), ?_, ?_⟩
      · simp (disch := decide) [toJson, hactions, hscreens, sortEntries, insertEntry_of_lt, insertEntry_of_gt]
      · rw [ofJson, decodeFields, visitMembers_cons hactions hvisitActions,
          visitMembers_append hmiddle, visitMembers_cons hscreens hvisitScreens]
        rfl
  | cons first rest =>
      obtain ⟨startJson, hstart, hdecodeStart⟩ := recovers_strings (first :: rest)
      refine ⟨.object (("actions", actionsJson) :: ([("id", .string id), ("name", .string name)] ++
        [("screens", screensJson), ("startingState", startJson)])), ?_, ?_⟩
      · simp (disch := decide) [toJson, hactions, hscreens, hstart, sortEntries, insertEntry_of_lt, insertEntry_of_gt]
      · have hvisitStart : visit origin
            { id := some id, name := some name, screens := some screens, actions := some actions }
            "startingState" startJson = .ok
              { id := some id, name := some name, screens := some screens,
                startingState := some (first :: rest), actions := some actions } := by
          rw [visit, hdecodeStart]
          rfl
        rw [ofJson, decodeFields, visitMembers_cons hactions hvisitActions,
          visitMembers_append hmiddle, visitMembers_cons hscreens hvisitScreens,
          visitMembers_cons hstart hvisitStart]
        rfl

end Interview

end BranchingInterview
