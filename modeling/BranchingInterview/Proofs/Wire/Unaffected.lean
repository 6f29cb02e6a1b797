import BranchingInterview.Proofs.Wire.Slots
import BranchingInterview.Wire.Interview

/-!
What a record decodes to is not affected by alterations of its tree. The fields of a draft are
filled apart from one another. Where a part is set aside, only what it may be decoded to is seen of
it: a payload for each kind of action, and the members beside an action as a comparison.
-/

namespace BranchingInterview

open Wire Json

variable {origin : Origin} {shape : Shape}

theorem Answer.ofJson_congr {json other : Json} (heq : json.canonical? = other.canonical?) :
    ofJson json = ofJson other := by
  unfold ofJson
  split <;> split <;> grind

theorem Answer.unaffected_ofJson : Unaffected .plain ofJson := by
  intro json other hjson haltered
  rw [ofJson_congr (haltered.canonical?_eq hjson)]

namespace Question

def slots : List (Slot Draft) :=
  [⟨"id", Draft.id, fun draft id => { draft with id }, decodeString⟩,
    ⟨"screenId", Draft.screen, fun draft screen => { draft with screen },
      decodeOptional decodeString⟩,
    ⟨"prompt", Draft.prompt, fun draft prompt => { draft with prompt }, decodeString⟩]

theorem visit_eq_slots : visit = Slot.visit slots := by
  funext draft name value
  unfold visit
  split
  iterate 3
    · rfl
  · exact (Slot.visit_of_not_mem (by simp_all [slots]) draft value).symm

theorem unordered_visit :
    Unordered .plain fun draft name value => (visit draft name value).toOption := by
  have hseparate : slots.Pairwise Slot.Separate := by simp [slots, Slot.separate_iff]
  rw [visit_eq_slots]
  refine Slot.unordered_visit hseparate ?_ nofun
  simp only [slots, List.forall_mem_cons]
  exact ⟨unaffected_decodeString, unaffected_decodeOptional unaffected_decodeString,
    unaffected_decodeString, List.forall_mem_nil _⟩

theorem unaffected_ofJson : Unaffected .plain (ofJson origin) :=
  unordered_visit.decodeFields_of_item fun _ _ _ _ => Or.inr rfl

end Question

namespace Response

def slots (origin : Origin) : List (Slot Draft) :=
  [⟨"entry", Draft.question, fun draft question => { draft with question },
      decodeOptional (Question.ofJson origin)⟩,
    ⟨"response", Draft.answer, fun draft answer => { draft with answer }, Answer.ofJson⟩]

theorem visit_eq_slots : visit origin = Slot.visit (slots origin) := by
  funext draft name value
  unfold visit
  split
  iterate 2
    · rfl
  · exact (Slot.visit_of_not_mem (by simp_all [slots]) draft value).symm

theorem unordered_visit :
    Unordered .plain fun draft name value => (visit origin draft name value).toOption := by
  have hseparate : (slots origin).Pairwise Slot.Separate := by simp [slots, Slot.separate_iff]
  rw [visit_eq_slots]
  refine Slot.unordered_visit hseparate ?_ nofun
  simp only [slots, List.forall_mem_cons]
  exact ⟨unaffected_decodeOptional Question.unaffected_ofJson, Answer.unaffected_ofJson,
    List.forall_mem_nil _⟩

theorem unaffected_ofJson : Unaffected .plain (ofJson origin) :=
  unordered_visit.decodeFields_of_item fun _ _ _ _ => Or.inr rfl

end Response

theorem Responses.unaffected_ofJson : Unaffected .plain (ofJson origin) :=
  unaffected_decodeMap nofun fun _ => Response.unaffected_ofJson

namespace Screen

def slots : List (Slot Draft) :=
  [⟨"id", Draft.id, fun draft id => { draft with id }, decodeString⟩,
    ⟨"title", Draft.title, fun draft title => { draft with title }, decodeString⟩,
    ⟨"headerText", Draft.headerText, fun draft headerText => { draft with headerText },
      decodeString⟩,
    ⟨"isInStartingState", Draft.isInStartingState,
      fun draft isInStartingState => { draft with isInStartingState }, decodeBool⟩,
    ⟨"startingStateOrder", Draft.startingStateOrder,
      fun draft startingStateOrder => { draft with startingStateOrder },
      decodeOptional decodeUInt32⟩]

theorem visit_eq_slots : visit = Slot.visit slots := by
  funext draft name value
  unfold visit
  split
  iterate 5
    · rfl
  · exact (Slot.visit_of_not_mem (by simp_all [slots]) draft value).symm

theorem unordered_visit :
    Unordered .plain fun draft name value => (visit draft name value).toOption := by
  have hseparate : slots.Pairwise Slot.Separate := by simp [slots, Slot.separate_iff]
  rw [visit_eq_slots]
  refine Slot.unordered_visit hseparate ?_ nofun
  simp only [slots, List.forall_mem_cons]
  exact ⟨unaffected_decodeString, unaffected_decodeString, unaffected_decodeString,
    unaffected_decodeBool, unaffected_decodeOptional unaffected_decodeUInt32, List.forall_mem_nil _⟩

theorem unaffected_ofJson : Unaffected .plain (ofJson origin) :=
  unordered_visit.decodeFields_of_item fun _ _ _ _ => Or.inr rfl

end Screen

theorem Operator.unaffected_ofJson : Unaffected shape ofJson :=
  unaffected_of_containers (fun _ => rfl) fun _ => rfl

namespace Comparison

theorem visit_of_alias {name second : String} (hsecond : (name, second) ∈ aliases) (draft : Draft) :
    visit draft name = visit draft second :=
  eq_of_mem_aliases (visit draft) rfl rfl hsecond

theorem unaffected_visit (draft : Draft) (name : String) : Unaffected shape (visit draft name) := by
  intro json other hjson haltered
  unfold visit
  split
  next known _ =>
    cases known
    · exact Operator.unaffected_ofJson.fill _ _ _ json other hjson haltered
    · exact (unaffected_decodeOptional unaffected_decodeString).fill _ _ _ json other hjson haltered
    · exact (unaffected_decodeOptional unaffected_decodeString).fill _ _ _ json other hjson haltered
    · exact (unaffected_decodeOptional unaffected_decodeString).fill _ _ _ json other hjson haltered
  next => exact unaffected_passOver draft json other hjson haltered

theorem unordered_visit :
    Unordered shape fun draft name value => (visit draft name value).toOption where
  swap := by
    rintro draft ⟨name, value⟩ ⟨other, held⟩ ⟨hname, -, -⟩
    dsimp only at hname ⊢
    unfold visit
    split <;> split
    next known _ _ other _ =>
      cases known <;> cases other
      all_goals
        simp only [visitField, toOption_bind, toOption_pure, Option.bind_assoc, Option.bind_some]
        first
          | exact Option.bind_comm _ _
          | exact (toOption_fill_twice _ _ _ _ _).trans (toOption_fill_twice _ _ _ _ _).symm
    next known _ _ _ =>
      exact (passOver_swap (fun next => (visitField next value known).toOption) draft held).symm
    next _ _ known _ =>
      exact passOver_swap (fun next => (visitField next held known).toOption) draft value
    next => exact passOver_swap (fun next => (passOver next held).toOption) draft value
  disregards draft name := unaffected_visit draft name
  rename _ draft name second hsecond := by rw [visit_of_alias hsecond]

theorem unaffected_ofJson : Unaffected shape (ofJson origin) :=
  unordered_visit.decodeFields fun draft _ _ name _ => unaffected_visit draft name

end Comparison

/-! Where a tree is held does not change whether responses are decoded from it, nor which. -/

theorem Question.ofJson_origin (origin : Origin) (json : Json) :
    (ofJson origin json).toOption = (ofJson .aside json).toOption :=
  decodeFields_congr (fun _ _ _ => rfl) json

theorem Response.ofJson_origin (origin : Origin) (json : Json) :
    (ofJson origin json).toOption = (ofJson .aside json).toOption := by
  refine decodeFields_congr (fun draft name value => ?_) json
  unfold visit
  split
  · have hquestion := decodeOptional_congr (Question.ofJson_origin origin) value
    rw [toOption_bind, toOption_bind, toOption_fill_congr hquestion]
  · rfl
  · rfl

theorem Responses.ofJson_origin (origin : Origin) (json : Json) :
    (ofJson origin json).toOption = (ofJson .aside json).toOption :=
  decodeMap_congr (Response.ofJson_origin origin) json

namespace Action

/-- A payload is decoded to the same wherever it is held. -/
theorem ofPayload_origin (origin : Origin) (kind : Kind) (payload : Json) :
    (ofPayload origin kind payload).toOption = (ofPayload .aside kind payload).toOption := by
  cases kind with
  | skip =>
      have heq := congrArg (Option.map skip) (Responses.ofJson_origin origin payload)
      rwa [← toOption_map, ← toOption_map] at heq
  | push | checkpoint | restore | milestone | endInterview | doNothing => rfl

theorem unaffected_ofPayload (origin : Origin) (kind : Kind) :
    Unaffected .plain (ofPayload origin kind) := by
  cases kind with
  | push => exact (unaffected_decodeList fun _ _ => unaffected_decodeString).map push
  | skip => exact Responses.unaffected_ofJson.map skip
  | checkpoint => exact unaffected_decodeString.map checkpoint
  | restore => exact unaffected_decodeString.map restore
  | milestone => exact unaffected_decodeString.map milestone
  | endInterview => exact unaffected_of_containers (fun _ => rfl) fun _ => rfl
  | doNothing => exact unaffected_of_containers (fun _ => rfl) fun _ => rfl

theorem Kind.unaffected_ofJson (origin : Origin) : Unaffected .plain (ofJson origin) :=
  unaffected_decodeName nofun

theorem Kind.namesSkip_of_ofJson {json : Json} (hkind : ofJson origin json = .ok skip) :
    json.NamesSkip := by
  obtain ⟨name, hjson, hfound⟩ := decodeName_eq_ok_iff.1 hkind
  have hname := List.find?_some hfound
  rw [← eq_of_beq hname] at hjson
  exact hjson

/-- Only responses have members that are passed over, which need not be values. -/
theorem toOption_ofPayload_of_not_whole {kind : Kind} (hkind : kind ≠ .skip) {payload : Json}
    (hpayload : payload.isWhole = false) : (ofPayload origin kind payload).toOption = none := by
  have hstring : (decodeString payload).toOption = none := by
    cases payload with
    | string => cases hpayload
    | null | bool | number | array | object | flaw => rfl
  have hnull : (decodeNull payload).toOption = none := by
    cases payload with
    | null => cases hpayload
    | bool | number | string | array | object | flaw => rfl
  have hids : (decodeList decodeString payload).toOption = none := by
    cases payload with
    | array items => exact toOption_mapM_decodeString hpayload
    | null | bool | number | string | object | flaw => rfl
  cases kind with
  | push => exact (toOption_map _ _).trans (congrArg _ hids)
  | skip => exact absurd rfl hkind
  | checkpoint => exact (toOption_map _ _).trans (congrArg _ hstring)
  | restore => exact (toOption_map _ _).trans (congrArg _ hstring)
  | milestone => exact (toOption_map _ _).trans (congrArg _ hstring)
  | endInterview => exact (toOption_bind _ _).trans (congrArg (Option.bind · _) hnull)
  | doNothing => exact (toOption_bind _ _).trans (congrArg (Option.bind · _) hnull)

theorem Kind.unaffected_atHead (origin : Origin) : Unaffected shape (atHead origin) :=
  unaffected_of_containers (fun _ => rfl) fun _ => rfl

/-- What there is to see of a draft: a payload that waits is seen as what it is for each kind. -/
inductive Seen
  | start
  | payload (ofKind : Kind → Option Action)
  | kind (value : Kind)
  | action (value : Action)

def Draft.look : Draft → Seen
  | start => .start
  | payload waiting => .payload fun kind => (ofPayload .aside kind waiting).toOption
  | kind value => .kind value
  | action value => .action value

def see (origin : Origin) (seen : Seen) (name : String) (value : Json) : Option Seen :=
  match name, seen with
  | "type", .start => (Kind.ofJson origin value).toOption.map .kind
  | "type", .payload ofKind =>
      (Kind.ofJson origin value).toOption.bind fun kind => (ofKind kind).map .action
  | "type", _ => none
  | "payload", .start =>
      if value.isWhole then some (.payload fun kind => (ofPayload .aside kind value).toOption)
      else none
  | "payload", .kind kind => (ofPayload origin kind value).toOption.map .action
  | "payload", _ => none
  | _, seen => (passOver seen value).toOption

theorem see_passOver {name : String} (htype : name ≠ "type") (hpayload : name ≠ "payload")
    (seen : Seen) (value : Json) : see origin seen name value = (passOver seen value).toOption := by
  unfold see
  split <;> first | rfl | contradiction

theorem look_visit (draft : Draft) (name : String) (value : Json) :
    (visit origin draft name value).toOption.map Draft.look = see origin draft.look name value := by
  unfold visit
  split
  next =>
    change _ = (Kind.ofJson origin value).toOption.map Seen.kind
    cases Kind.ofJson origin value <;> rfl
  next waiting =>
    change _ = (Kind.ofJson origin value).toOption.bind fun kind =>
      (ofPayload .aside kind waiting).toOption.map Seen.action
    cases Kind.ofJson origin value with
    | error error => rfl
    | ok kind =>
        rw [ok_bind]
        change _ = (ofPayload .aside kind waiting).toOption.map Seen.action
        cases ofPayload .aside kind waiting <;> rfl
  next hstart hpayload =>
    cases draft with
    | start => exact (hstart rfl).elim
    | payload waiting => exact (hpayload waiting rfl).elim
    | kind | action => rfl
  next =>
    change _ = if value.isWhole then _ else none
    unfold setAside
    split <;> rfl
  next kind =>
    change _ = (ofPayload origin kind value).toOption.map Seen.action
    cases ofPayload origin kind value <;> rfl
  next hstart hkind =>
    cases draft with
    | start => exact (hstart rfl).elim
    | kind value => exact (hkind value rfl).elim
    | payload | action => rfl
  next htype hpayload _ _ _ _ =>
    rw [see_passOver htype hpayload]
    unfold passOver
    split <;> rfl

def Seen.finish : Seen → Option Action
  | start => none
  | payload _ => none
  | kind .endInterview => some endInterview
  | kind .doNothing => some doNothing
  | kind _ => none
  | action value => some value

theorem toOption_complete (draft : Draft) : (complete draft).toOption = draft.look.finish := by
  cases draft with
  | kind value => cases value <;> rfl
  | start | payload | action => rfl

/-- A payload is decoded to the same before and after its type, if that of a skip is whole. -/
theorem see_swap {kind payload : Json} (hskip : kind.NamesSkip → payload.isWhole = true)
    (seen : Seen) :
    ((see origin seen "type" kind).bind fun next => see origin next "payload" payload) =
      (see origin seen "payload" payload).bind fun next => see origin next "type" kind := by
  cases seen with
  | start =>
      change ((Kind.ofJson origin kind).toOption.map Seen.kind).bind _ =
        (if payload.isWhole then some (Seen.payload fun kind =>
          (ofPayload .aside kind payload).toOption) else none).bind fun next =>
            see origin next "type" kind
      cases hwhole : payload.isWhole with
      | true =>
          rw [if_pos rfl, Option.bind_some]
          change _ = (Kind.ofJson origin kind).toOption.bind fun kind =>
            (ofPayload .aside kind payload).toOption.map Seen.action
          cases Kind.ofJson origin kind with
          | error error => rfl
          | ok kind =>
              exact congrArg (Option.map Seen.action) (ofPayload_origin origin kind payload)
      | false =>
          rw [if_neg Bool.false_ne_true, Option.bind_none]
          cases hkind : Kind.ofJson origin kind with
          | error error => rfl
          | ok found =>
              have hother : found ≠ .skip := by
                rintro rfl
                cases hwhole.symm.trans (hskip (Kind.namesSkip_of_ofJson hkind))
              exact congrArg (Option.map Seen.action)
                (toOption_ofPayload_of_not_whole hother hwhole)
  | payload ofKind =>
      change ((Kind.ofJson origin kind).toOption.bind fun kind =>
        (ofKind kind).map Seen.action).bind _ = none
      cases (Kind.ofJson origin kind).toOption with
      | none => rfl
      | some kind =>
          change ((ofKind kind).map Seen.action).bind _ = none
          cases ofKind kind <;> rfl
  | kind value =>
      change none = ((ofPayload origin value payload).toOption.map Seen.action).bind _
      cases ofPayload origin value payload <;> rfl
  | action value => rfl

theorem see_passOver_swap {name : String} (htype : name ≠ "type") (hpayload : name ≠ "payload")
    (value : Json) (other : String) (held : Json) (seen : Seen) :
    ((see origin seen name value).bind fun next => see origin next other held) =
      (see origin seen other held).bind fun next => see origin next name value := by
  simp only [see_passOver htype hpayload]
  exact passOver_swap (see origin · other held) seen value

theorem unordered_see (hcondition : shape ≠ .condition) (htype : shape.member "type" = .plain)
    (hpayload : shape.member "payload" = .plain) : Unordered shape (see origin) where
  swap := by
    rintro seen ⟨name, value⟩ ⟨other, held⟩ ⟨hname, hleft, hright⟩
    dsimp only at hname hleft hright ⊢
    by_cases hother : other = "type" ∨ other = "payload"
    · by_cases hnamed : name = "type" ∨ name = "payload"
      · rcases hnamed with rfl | rfl <;> rcases hother with rfl | rfl
        · exact absurd rfl hname
        · exact see_swap (fun hskip => hright rfl hskip rfl) seen
        · exact (see_swap (fun hskip => hleft rfl hskip rfl) seen).symm
        · exact absurd rfl hname
      · rw [not_or] at hnamed
        exact see_passOver_swap hnamed.1 hnamed.2 value other held seen
    · rw [not_or] at hother
      exact (see_passOver_swap hother.1 hother.2 held name value seen).symm
  disregards := by
    intro seen name json other hjson haltered
    by_cases hname : name = "type"
    · subst hname
      rw [htype] at haltered
      have hkind := Kind.unaffected_ofJson origin json other hjson haltered
      cases seen <;> simp only [see, hkind]
    · by_cases hname' : name = "payload"
      · subst hname'
        rw [hpayload] at haltered
        have hdecode (origin : Origin) (kind : Kind) :=
          unaffected_ofPayload origin kind json other hjson haltered
        cases seen <;> simp only [see, hdecode, haltered.isWhole_eq]
      · rw [see_passOver hname hname', see_passOver hname hname']
        exact unaffected_passOver seen json other hjson haltered
  rename heq := absurd heq hcondition

theorem toOption_ofJson_object (members : List (String × Json)) :
    (ofJson origin (.object members)).toOption =
      (members.foldl (visitMember (see origin)) (some .start)).bind Seen.finish := by
  have hlook := toOption_visitMembers (visit origin) Draft.look (see origin) look_visit .start
    members
  rw [ofJson, toOption_bind]
  simp only [toOption_complete]
  rw [← Draft.look, ← hlook, Option.bind_map]
  rfl

theorem toOption_ofJson_singleton (kind : Json) :
    (ofJson origin (.array [kind])).toOption = none := by
  change (Kind.atHead origin kind >>= fun _ =>
    (throw .wrongLength : Decoded Action)).toOption = none
  cases Kind.atHead origin kind <;> rfl

theorem toOption_ofJson_array (kind payload : Json) (surplus : List Json) :
    (ofJson origin (.array (kind :: payload :: surplus))).toOption =
      if surplus.isEmpty then
        (Kind.atHead origin kind).toOption.bind fun kind => (ofPayload origin kind payload).toOption
      else none := by
  change (Kind.atHead origin kind >>= fun kind => ofPayload origin kind payload >>= fun action =>
    if surplus.isEmpty then return action else throw origin.surplus).toOption = _
  rw [toOption_bind]
  cases surplus with
  | nil =>
      refine congrArg (Kind.atHead origin kind).toOption.bind (funext fun kind => ?_)
      rw [toOption_bind]
      exact Option.bind_fun_some _
  | cons item rest =>
      cases (Kind.atHead origin kind).toOption with
      | none => rfl
      | some kind =>
          change (ofPayload origin kind payload >>= fun _ =>
            (throw origin.surplus : Decoded Action)).toOption = none
          cases ofPayload origin kind payload <;> rfl

theorem unaffected_ofJson (hshape : shape = .plain ∨ shape = .clause) :
    Unaffected shape (ofJson origin) := by
  intro json other hjson haltered
  cases json with
  | object members =>
      obtain ⟨others, rfl⟩ := haltered.exists_members
      have hsee : Unordered shape (see origin) := by
        rcases hshape with rfl | rfl <;> exact unordered_see nofun rfl rfl
      rw [toOption_ofJson_object, toOption_ofJson_object, hsee.foldl_eq hjson haltered]
  | array items =>
      cases haltered with
      | @item _ before after value other hvalue =>
          have horderly :=
            Json.orderly_array.1 hjson _ (List.mem_append_right _ List.mem_cons_self)
          match before, hvalue with
          | [], hvalue =>
              have hkind := Kind.unaffected_atHead origin value other horderly hvalue
              cases after with
              | nil =>
                  exact (toOption_ofJson_singleton value).trans
                    (toOption_ofJson_singleton other).symm
              | cons payload surplus =>
                  rw [List.nil_append, List.nil_append, toOption_ofJson_array,
                    toOption_ofJson_array, hkind]
          | [kind], hvalue =>
              rw [List.singleton_append, List.singleton_append, toOption_ofJson_array,
                toOption_ofJson_array]
              cases after with
              | cons item rest => rfl
              | nil =>
                  have hplain : Altered .plain value other := by
                    rcases hshape with rfl | rfl <;> exact hvalue
                  have hpayload (kind : Kind) :=
                    unaffected_ofPayload origin kind value other horderly hplain
                  simp only [hpayload]
          | kind :: payload :: before, _ =>
              have hsurplus (item : Json) : (before ++ item :: after).isEmpty = false := by
                cases before <;> rfl
              simp only [List.cons_append, toOption_ofJson_array, hsurplus]
  | null | bool | number | string | flaw => cases haltered

end Action

namespace Candidate

/-- What there is to see of a draft: the members beside the action are seen as the comparison that
is drafted from them, unless they fail to be one. -/
structure Seen where
  action : Option Action
  condition : Option Comparison.Draft

def Draft.look (draft : Draft) : Seen :=
  ⟨draft.action, (visitMembers Comparison.visit {} draft.others).toOption⟩

def see (origin : Origin) (seen : Seen) (name : String) (value : Json) : Option Seen :=
  match name with
  | "actionConfig" =>
      (fill "actionConfig" seen.action (Action.ofJson origin value)).toOption.map fun action =>
        { seen with action }
  | _ =>
      if value.isWhole then
        some { seen with
          condition := seen.condition.bind fun draft =>
            (Comparison.visit draft name value).toOption }
      else none

theorem see_of_ne {name : String} (hname : name ≠ "actionConfig") (seen : Seen) (value : Json) :
    see origin seen name value =
      if value.isWhole then
        some { seen with
          condition := seen.condition.bind fun draft =>
            (Comparison.visit draft name value).toOption }
      else none := by
  unfold see
  split
  · contradiction
  · rfl

theorem toOption_visitMembers_concat (others : List (String × Json)) (name : String) {value : Json}
    (hwhole : value.isWhole = true) :
    (visitMembers Comparison.visit {} (others ++ [(name, value)])).toOption =
      (visitMembers Comparison.visit {} others).toOption.bind fun draft =>
        (Comparison.visit draft name value).toOption := by
  have hlook := toOption_visitMembers Comparison.visit id (fun draft name value =>
    (Comparison.visit draft name value).toOption) (fun _ _ _ => Option.map_id_apply) {}
  simp only [Option.map_id_apply] at hlook
  rw [hlook, hlook, List.foldl_append, List.foldl_cons, List.foldl_nil, visitMember,
    isUnnamed_of_isWhole hwhole]
  rfl

theorem look_visit (draft : Draft) (name : String) (value : Json) :
    (visit origin draft name value).toOption.map Draft.look = see origin draft.look name value := by
  unfold visit
  split
  next =>
    change _ = (fill "actionConfig" draft.action (Action.ofJson origin value)).toOption.map _
    cases fill "actionConfig" draft.action (Action.ofJson origin value) <;> rfl
  next hname =>
    rw [see_of_ne hname]
    unfold setAside
    cases hwhole : value.isWhole with
    | false => rfl
    | true =>
        change some (Draft.look { draft with others := draft.others ++ [(name, value)] }) = _
        rw [Draft.look, toOption_visitMembers_concat _ _ hwhole]
        rfl

def Seen.finish (seen : Seen) : Option Candidate :=
  seen.action.bind fun action => seen.condition.bind fun condition =>
    (Comparison.complete condition).toOption.map fun condition => ⟨condition, action⟩

theorem toOption_complete (draft : Draft) : (complete draft).toOption = draft.look.finish := by
  obtain ⟨action, others⟩ := draft
  cases action with
  | none => rfl
  | some action =>
      change (visitMembers Comparison.visit {} others >>= fun condition =>
          Comparison.complete condition >>= fun condition =>
            pure (Candidate.mk condition action)).toOption =
        (visitMembers Comparison.visit {} others).toOption.bind fun condition =>
          (Comparison.complete condition).toOption.map (Candidate.mk · action)
      rw [toOption_bind]
      refine congrArg (visitMembers Comparison.visit {} others).toOption.bind ?_
      funext condition
      cases Comparison.complete condition <;> rfl

theorem toOption_ofJson_object (members : List (String × Json)) :
    (ofJson origin (.object members)).toOption =
      (members.foldl (visitMember (see origin)) (some ⟨none, some {}⟩)).bind Seen.finish := by
  have hlook : (visitMembers (visit origin) {} members).toOption.map Draft.look =
      members.foldl (visitMember (see origin)) (some ⟨none, some {}⟩) :=
    toOption_visitMembers (visit origin) Draft.look (see origin) look_visit {} members
  rw [ofJson, toOption_bind, ← hlook, Option.bind_map]
  simp only [toOption_complete]
  rfl

/-- The action is seen beside the other members. -/
theorem see_swap {name : String} (hname : name ≠ "actionConfig") (value action : Json)
    (seen : Seen) :
    ((see origin seen "actionConfig" action).bind fun next => see origin next name value) =
      (see origin seen name value).bind fun next => see origin next "actionConfig" action := by
  simp only [see_of_ne hname]
  change ((fill "actionConfig" seen.action (Action.ofJson origin action)).toOption.map _).bind _ = _
  cases value.isWhole with
  | false => cases fill "actionConfig" seen.action (Action.ofJson origin action) <;> rfl
  | true =>
      rw [if_pos rfl, Option.bind_some]
      change _ = (fill "actionConfig" seen.action (Action.ofJson origin action)).toOption.map _
      cases fill "actionConfig" seen.action (Action.ofJson origin action) <;> rfl

theorem see_swap_of_ne {left right : String × Json} (hleft : left.1 ≠ "actionConfig")
    (hright : right.1 ≠ "actionConfig") (hapart : Apart left right) (seen : Seen) :
    ((see origin seen left.1 left.2).bind fun next => see origin next right.1 right.2) =
      (see origin seen right.1 right.2).bind fun next => see origin next left.1 left.2 := by
  have hcomparison : Unordered .plain fun draft name value =>
      (Comparison.visit draft name value).toOption := Comparison.unordered_visit
  simp only [see_of_ne hleft, see_of_ne hright]
  cases left.2.isWhole with
  | false => cases right.2.isWhole <;> rfl
  | true =>
      cases right.2.isWhole with
      | false => rfl
      | true =>
          refine congrArg (fun condition => some { seen with condition }) ?_
          cases seen.condition with
          | none => rfl
          | some draft => exact hcomparison.swap draft left right hapart

theorem unordered_see : Unordered .condition (see origin) where
  swap := by
    intro seen left right hapart
    by_cases hleft : left.1 = "actionConfig"
    · have hright : right.1 ≠ "actionConfig" := fun heq => hapart.name (hleft.trans heq.symm)
      rw [hleft]
      exact see_swap hright right.2 left.2 seen
    · by_cases hright : right.1 = "actionConfig"
      · rw [hright]
        exact (see_swap hleft left.2 right.2 seen).symm
      · exact see_swap_of_ne hleft hright hapart seen
  disregards := by
    intro seen name json other hjson haltered
    by_cases hname : name = "actionConfig"
    · subst hname
      have haction : Unaffected .plain (Action.ofJson origin) :=
        Action.unaffected_ofJson (Or.inl rfl)
      exact congrArg (Option.map _)
        (toOption_fill_congr (haction json other hjson haltered) _ _)
    · have hvisit (draft : Comparison.Draft) :=
        Comparison.unaffected_visit draft name json other hjson haltered
      simp only [see_of_ne hname, haltered.isWhole_eq, hvisit]
  rename _ seen name second hsecond := by
    obtain ⟨hname, hother⟩ := (by decide :
      ∀ names ∈ aliases, names.1 ≠ "actionConfig" ∧ names.2 ≠ "actionConfig") _ hsecond
    funext value
    rw [see_of_ne hname, see_of_ne hother]
    simp only [Comparison.visit_of_alias hsecond]

theorem unaffected_ofJson : Unaffected .condition (ofJson origin) := by
  intro json other hjson haltered
  cases json with
  | object members =>
      obtain ⟨others, rfl⟩ := haltered.exists_members
      rw [toOption_ofJson_object, toOption_ofJson_object, unordered_see.foldl_eq hjson haltered]
  | array items => cases haltered; rfl
  | null | bool | number | string | flaw => cases haltered

end Candidate

end BranchingInterview
