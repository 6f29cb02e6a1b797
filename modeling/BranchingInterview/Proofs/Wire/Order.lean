import BranchingInterview.Proofs.Json.Alteration
import BranchingInterview.Proofs.Wire.Recovery

/-!
Decoding that does not depend on the order of members. Which failure is found first does depend on
it, so results are compared as to whether there is a value, and which.
-/

namespace BranchingInterview.Wire

open Json (Altered Shape OrderlyMembers aliases namesOf)

variable {α β γ δ : Type}

theorem toOption_pure (value : α) : (pure value : Decoded α).toOption = some value := rfl

theorem toOption_bind (value : Decoded α) (next : α → Decoded β) :
    (value >>= next).toOption = value.toOption.bind fun found => (next found).toOption := by
  cases value <;> rfl

theorem toOption_passOver (draft : δ) (value : Json) :
    (passOver draft value).toOption = if value.isGrammatical then some draft else none := by
  unfold passOver
  split <;> rfl

/-- A member that is passed over leaves the draft to the next one as it is. -/
theorem passOver_swap (step : δ → Option δ) (draft : δ) (value : Json) :
    (passOver draft value).toOption.bind step =
      (step draft).bind fun next => (passOver next value).toOption := by
  simp only [toOption_passOver]
  cases value.isGrammatical with
  | true => exact (Option.bind_fun_some (step draft)).symm
  | false => exact (Option.bind_fun_none (step draft)).symm

theorem toOption_map (value : Decoded α) (change : α → β) :
    (value.map change).toOption = value.toOption.map change := by
  cases value <;> rfl

theorem toOption_mapError (value : Decoded α) (change : DecodeError → DecodeError) :
    (value.mapError change).toOption = value.toOption := by
  cases value <;> rfl

/-- What is read from a tree does not depend on alterations of the tree. -/
def Disregards (shape : Shape) (read : Json → β) : Prop :=
  ∀ json other, json.Orderly → Altered shape json other → read json = read other

/-- Alterations of a tree change neither whether it decodes nor to what. -/
def Unaffected (shape : Shape) (decode : Json → Decoded α) : Prop :=
  ∀ json other, json.Orderly → Altered shape json other →
    (decode json).toOption = (decode other).toOption

theorem Unaffected.plain {shape : Shape} {decode : Json → Decoded α}
    (hdecode : Unaffected shape decode) : Unaffected .plain decode :=
  fun json other hjson haltered => hdecode json other hjson (haltered.of_plain shape)

theorem Unaffected.map {shape : Shape} {decode : Json → Decoded α}
    (hdecode : Unaffected shape decode) (change : α → β) :
    Unaffected shape fun json => change <$> decode json := by
  intro json other hjson haltered
  have heq := congrArg (Option.map change) (hdecode json other hjson haltered)
  rwa [← toOption_map, ← toOption_map] at heq

section Members

/-- The visit of one member, as to whether it succeeds. -/
def visitMember (step : γ → String → Json → Option γ) (draft : Option γ) (member : String × Json) :
    Option γ :=
  if isUnnamed member.2 then none else draft.bind fun draft => step draft member.1 member.2

theorem foldl_visitMember_none (step : γ → String → Json → Option γ)
    (members : List (String × Json)) : members.foldl (visitMember step) none = none := by
  induction members with
  | nil => rfl
  | cons member rest ih =>
      have hnone : visitMember step none member = none := by
        unfold visitMember
        split <;> rfl
      rw [List.foldl_cons, hnone, ih]

/-- Visits change what is looked at in a draft as the steps do. -/
theorem toOption_visitMembers (visit : δ → String → Json → Decoded δ) (look : δ → γ)
    (step : γ → String → Json → Option γ)
    (hstep : ∀ draft name value,
      (visit draft name value).toOption.map look = step (look draft) name value)
    (start : δ) (members : List (String × Json)) :
    (visitMembers visit start members).toOption.map look =
      members.foldl (visitMember step) (some (look start)) := by
  induction members generalizing start with
  | nil => rfl
  | cons member rest ih =>
      obtain ⟨name, value⟩ := member
      rw [visitMembers, List.foldl_cons, visitMember]
      cases isUnnamed value with
      | true => exact (foldl_visitMember_none step rest).symm
      | false =>
          rw [if_neg Bool.false_ne_true, if_neg Bool.false_ne_true, Option.bind_some, ← hstep]
          cases visit start name value with
          | error error => exact (foldl_visitMember_none step rest).symm
          | ok next => exact ih next

/-- Two members that may be visited in either order. -/
structure Apart (left right : String × Json) : Prop where
  name : left.1 ≠ right.1
  left_payload : right.1 = "type" → right.2.NamesSkip → left.1 = "payload" →
    left.2.isWhole = true
  right_payload : left.1 = "type" → left.2.NamesSkip → right.1 = "payload" →
    right.2.isWhole = true

/-- The order of the visits is of no account, nor are alterations of what they visit. -/
structure Unordered (shape : Shape) (step : γ → String → Json → Option γ) : Prop where
  swap : ∀ draft left right, Apart left right →
    ((step draft left.1 left.2).bind fun next => step next right.1 right.2) =
      (step draft right.1 right.2).bind fun next => step next left.1 left.2
  disregards : ∀ draft name, Disregards (shape.member name) (step draft name)
  rename : shape = .condition → ∀ draft name second, (name, second) ∈ aliases →
    step draft name = step draft second

theorem eq_of_mem_aliases (read : String → β)
    (hoperator : read "operator" = read "conditionalOperator")
    (hfield : read "responseKeyField" = read "responseKeyLookupField") {name second : String}
    (hmem : (name, second) ∈ aliases) : read name = read second := by
  rcases List.mem_cons.1 hmem with heq | hmem
  · cases heq
    exact hoperator
  · cases List.mem_singleton.1 hmem
    exact hfield

theorem apart_of_orderly {members : List (String × Json)} (hmembers : OrderlyMembers members)
    {left right : String × Json} (hleft : left ∈ members) (hright : right ∈ members)
    (hname : left.1 ≠ right.1) : Apart left right where
  name := hname
  left_payload htype hskip := hmembers.skip right hright htype hskip left hleft
  right_payload htype hskip := hmembers.skip left hleft htype hskip right hright

variable {shape : Shape} {step : γ → String → Json → Option γ}

theorem Unordered.visitMember_swap (hstep : Unordered shape step)
    {members : List (String × Json)} (hmembers : OrderlyMembers members)
    {left right : String × Json} (hleft : left ∈ members) (hright : right ∈ members)
    (draft : Option γ) :
    visitMember step (visitMember step draft left) right =
      visitMember step (visitMember step draft right) left := by
  unfold visitMember
  cases hleftNamed : isUnnamed left.2 with
  | true => cases isUnnamed right.2 <;> rfl
  | false =>
      cases hrightNamed : isUnnamed right.2 with
      | true => rfl
      | false =>
          by_cases hname : left.1 = right.1
          · -- Under one name there is only one member.
            have hkept (member : String × Json) (hmember : member ∈ members)
                (hnamed : isUnnamed member.2 = false) :
                member ∈ members.filter fun member => !isUnnamed member.2 :=
              List.mem_filter.2 ⟨hmember, by rw [hnamed]; rfl⟩
            rw [List.inj_on_of_nodup_map hmembers.distinct (hkept left hleft hleftNamed)
              (hkept right hright hrightNamed) hname]
          · cases draft with
            | none => rfl
            | some draft =>
                exact hstep.swap draft left right (apart_of_orderly hmembers hleft hright hname)

/-- The members of an object and those of an altered one are visited with the same result. -/
theorem Unordered.foldl_eq (hstep : Unordered shape step) {members others : List (String × Json)}
    (hmembers : (Json.object members).Orderly)
    (haltered : Altered shape (.object members) (.object others)) (start : Option γ) :
    members.foldl (visitMember step) start = others.foldl (visitMember step) start := by
  obtain ⟨horderly, hvalues⟩ := Json.orderly_object.1 hmembers
  cases haltered with
  | reorder hperm =>
      exact hperm.foldl_eq' (fun left hleft right hright draft =>
        hstep.visitMember_swap horderly hleft hright draft) start
  | @rename before after name second value hsecond hfree =>
      rw [List.foldl_append, List.foldl_append, List.foldl_cons, List.foldl_cons]
      simp only [visitMember, hstep.rename rfl _ name second hsecond]
  | @member _ before after name value other hvalue =>
      have hvisit := fun draft => hstep.disregards draft name value other
        (hvalues _ (List.mem_append_right _ List.mem_cons_self)) hvalue
      rw [List.foldl_append, List.foldl_append, List.foldl_cons, List.foldl_cons]
      simp only [visitMember, hvalue.isUnnamed_eq, hvisit]

end Members

section Fields

variable {shape : Shape} {origin : Origin} {names : List String}
  {visit : δ → String → Json → Decoded δ} {complete : δ → Decoded α} {start : δ}

/-- The draft that items fill, and whether none is left over. -/
def itemDraft (visited : Decoded (δ × List Json)) : Option (δ × Bool) :=
  visited.toOption.map fun visited => (visited.1, visited.2.isEmpty)

theorem toOption_decodeFields_array (items : List Json) :
    (decodeFields origin names visit complete start (.array items)).toOption =
      (itemDraft (visitItems visit start names items)).bind fun visited =>
        (complete visited.1).toOption.bind fun value => if visited.2 then some value else none := by
  rw [decodeFields, toOption_bind, itemDraft]
  cases visitItems visit start names items with
  | error error => rfl
  | ok visited =>
      obtain ⟨draft, surplus⟩ := visited
      change ((complete draft).mapError atItems >>= fun value =>
          if surplus.isEmpty then pure value else throw origin.surplus).toOption =
        (complete draft).toOption.bind fun value => if surplus.isEmpty then some value else none
      rw [toOption_bind, toOption_mapError]
      refine congrArg (complete draft).toOption.bind ?_
      funext value
      cases surplus <;> rfl

theorem itemDraft_cons (name : String) (item : Json) (rest : List Json) :
    itemDraft (visitItems visit start (name :: names) (item :: rest)) =
      (visit start name item).toOption.bind fun next =>
        itemDraft (visitItems visit next names rest) := by
  rw [visitItems]
  cases visit start name item <;> rfl

/-- Visits succeed together if each of them does. -/
theorem visitMembers_congr {visit' : δ → String → Json → Decoded δ}
    (hvisit : ∀ draft name value,
      (visit draft name value).toOption = (visit' draft name value).toOption)
    (members : List (String × Json)) :
    (visitMembers visit start members).toOption = (visitMembers visit' start members).toOption := by
  induction members generalizing start with
  | nil => rfl
  | cons member rest ih =>
      obtain ⟨name, value⟩ := member
      rw [visitMembers, visitMembers]
      cases isUnnamed value with
      | true => rfl
      | false =>
          change (visit start name value >>= _).toOption = (visit' start name value >>= _).toOption
          simp only [toOption_bind, hvisit, ih]

theorem decodeFields_congr {otherOrigin : Origin} {visit' : δ → String → Json → Decoded δ}
    (hvisit : ∀ draft name value,
      (visit draft name value).toOption = (visit' draft name value).toOption) (json : Json) :
    (decodeFields origin names visit complete start json).toOption =
      (decodeFields otherOrigin names visit' complete start json).toOption := by
  cases json with
  | object members =>
      rw [decodeFields, decodeFields, toOption_bind, toOption_bind, visitMembers_congr hvisit]
  | array items =>
      have hdraft : itemDraft (visitItems visit start names items) =
          itemDraft (visitItems visit' start names items) := by
        induction items generalizing start names with
        | nil => cases names <;> rfl
        | cons item rest ih =>
            cases names with
            | nil => rfl
            | cons name names => simp only [itemDraft_cons, hvisit, ih]
      rw [toOption_decodeFields_array, toOption_decodeFields_array, hdraft]
  | null | bool | number | string | flaw => rfl

theorem itemDraft_congr {item other : Json} {after : List Json} (before : List Json)
    (hitem : ∀ draft name, names[before.length]? = some name →
      (visit draft name item).toOption = (visit draft name other).toOption) :
    itemDraft (visitItems visit start names (before ++ item :: after)) =
      itemDraft (visitItems visit start names (before ++ other :: after)) := by
  induction before generalizing start names with
  | nil =>
      cases names with
      | nil => rfl
      | cons name names =>
          rw [List.nil_append, List.nil_append, itemDraft_cons, itemDraft_cons,
            hitem start name rfl]
  | cons first before ih =>
      cases names with
      | nil => rfl
      | cons name names =>
          simp only [List.cons_append, itemDraft_cons]
          exact congrArg (visit start name first).toOption.bind (funext fun next => ih hitem)

theorem Unordered.visitMembers_eq
    (hvisit : Unordered shape fun draft name value => (visit draft name value).toOption)
    {members others : List (String × Json)} (hmembers : (Json.object members).Orderly)
    (haltered : Altered shape (.object members) (.object others)) :
    (visitMembers visit start members).toOption = (visitMembers visit start others).toOption := by
  have hlook := toOption_visitMembers visit id (fun draft name value =>
    (visit draft name value).toOption) (fun _ _ _ => Option.map_id_apply) start
  simp only [Option.map_id_apply] at hlook
  rw [hlook, hlook, hvisit.foldl_eq hmembers haltered]

theorem Unordered.decodeFields
    (hvisit : Unordered shape fun draft name value => (visit draft name value).toOption)
    (hitem : ∀ draft index size name, names[index]? = some name →
      Unaffected (shape.item index size) (visit draft name)) :
    Unaffected shape (Wire.decodeFields origin names visit complete start) := by
  intro json other hjson haltered
  cases json with
  | object members =>
      obtain ⟨others, rfl⟩ := haltered.exists_members
      simp only [Wire.decodeFields, toOption_bind, hvisit.visitMembers_eq hjson haltered]
  | array items =>
      cases haltered with
      | @item _ before after value other hvalue =>
          have horderly :=
            Json.orderly_array.1 hjson _ (List.mem_append_right _ List.mem_cons_self)
          rw [toOption_decodeFields_array, toOption_decodeFields_array,
            itemDraft_congr before fun draft name hname =>
              hitem draft _ _ name hname value other horderly hvalue]
  | null | bool | number | string | flaw => cases haltered

/-- In an array that gives the fields of an object, an item stands where its field does. -/
theorem Unordered.decodeFields_of_item
    (hvisit : Unordered shape fun draft name value => (visit draft name value).toOption)
    (hitem : ∀ index size name, names[index]? = some name →
      shape.item index size = shape.member name ∨ shape.item index size = .plain) :
    Unaffected shape (Wire.decodeFields origin names visit complete start) := by
  refine hvisit.decodeFields fun draft index size name hname => ?_
  have hmember : Unaffected (shape.member name) (visit draft name) := hvisit.disregards draft name
  rcases hitem index size name hname with heq | heq
  · rwa [heq]
  · rw [heq]
    exact hmember.plain

theorem toOption_fill_congr {value held : Decoded α} (heq : value.toOption = held.toOption)
    (name : String) (place : Option α) :
    (Wire.fill name place value).toOption = (Wire.fill name place held).toOption := by
  cases place with
  | some filled => rfl
  | none => exact (toOption_map _ _).trans ((congrArg _ heq).trans (toOption_map _ _).symm)

theorem Unaffected.fill {decode : Json → Decoded α} (hdecode : Unaffected shape decode)
    (name : String) (place : Option α) (set : Option α → δ) :
    Unaffected shape fun json =>
      Wire.fill name place (decode json) >>= fun filled => pure (set filled) := by
  intro json other hjson haltered
  rw [toOption_bind, toOption_bind,
    toOption_fill_congr (hdecode json other hjson haltered) name place]

/-- A place that is filled once is not filled again. -/
theorem toOption_fill_twice (name : String) (place : Option α) (value held : Decoded α)
    (next : Option α → Option α → Option γ) :
    ((Wire.fill name place value).toOption.bind fun filled =>
      (Wire.fill name filled held).toOption.bind (next filled)) = none := by
  cases place <;> cases value <;> rfl

theorem unaffected_passOver (draft : δ) : Unaffected shape (passOver draft) := by
  intro json other _ haltered
  rw [passOver, passOver, haltered.isGrammatical_eq]

end Fields

section Values

variable {shape : Shape} {decode : Json → Decoded α}

/-- What containers are not decoded to does not depend on their content. -/
theorem unaffected_of_containers
    (harray : ∀ items, (decode (.array items)).toOption = none)
    (hobject : ∀ members, (decode (.object members)).toOption = none) :
    Unaffected shape decode := by
  intro json other _ haltered
  cases haltered with
  | reorder | rename | member => rw [hobject, hobject]
  | item => rw [harray, harray]

theorem unaffected_decodeString : Unaffected shape decodeString :=
  unaffected_of_containers (fun _ => rfl) fun _ => rfl

theorem unaffected_decodeBool : Unaffected shape decodeBool :=
  unaffected_of_containers (fun _ => rfl) fun _ => rfl

theorem unaffected_decodeUInt32 : Unaffected shape decodeUInt32 :=
  unaffected_of_containers (fun _ => rfl) fun _ => rfl

theorem unaffected_decodeOptional (hdecode : Unaffected shape decode) :
    Unaffected shape (decodeOptional decode) := by
  intro json other hjson haltered
  have hfound : decodeOptional decode json = (decode json).map some ∧
      decodeOptional decode other = (decode other).map some := by
    cases haltered <;> exact ⟨rfl, rfl⟩
  rw [hfound.1, hfound.2, toOption_map, toOption_map, hdecode json other hjson haltered]

theorem decodeOptional_congr {decode' : Json → Decoded α}
    (hdecode : ∀ json, (decode json).toOption = (decode' json).toOption) (json : Json) :
    (decodeOptional decode json).toOption = (decodeOptional decode' json).toOption := by
  unfold decodeOptional
  split
  · rfl
  · rw [toOption_map, toOption_map, hdecode]

theorem decodeMap_congr {decode' : Json → Decoded α}
    (hdecode : ∀ json, (decode json).toOption = (decode' json).toOption) (json : Json) :
    (decodeMap decode json).toOption = (decodeMap decode' json).toOption := by
  cases json with
  | object members =>
      refine visitMembers_congr (fun map name value => ?_) members
      rw [toOption_bind, toOption_bind, hdecode]
  | null | bool | number | string | array | flaw => rfl

theorem toOption_mapM_cons (item : Json) (rest : List Json) :
    ((item :: rest).mapM decode).toOption =
      (decode item).toOption.bind fun value => (rest.mapM decode).toOption.map (value :: ·) := by
  rw [List.mapM_cons, toOption_bind]
  refine congrArg (decode item).toOption.bind ?_
  funext value
  cases rest.mapM decode <;> rfl

/-- Texts are values. -/
theorem toOption_mapM_decodeString {items : List Json} (hitems : Json.areWhole items = false) :
    (items.mapM decodeString).toOption = none := by
  induction items with
  | nil => cases hitems
  | cons item rest ih =>
      rw [toOption_mapM_cons]
      cases item with
      | string text => rw [ih hitems]; rfl
      | null | bool | number | array | object | flaw => rfl

theorem unaffected_decodeList
    (hdecode : ∀ index size, Unaffected (shape.item index size) decode) :
    Unaffected shape (decodeList decode) := by
  intro json other hjson haltered
  cases haltered with
  | reorder | rename | member => rfl
  | @item _ before after value other hvalue =>
      have horderly := Json.orderly_array.1 hjson _ (List.mem_append_right _ List.mem_cons_self)
      have hitem := hdecode _ _ value other horderly hvalue
      rw [decodeList, decodeList]
      clear hjson hvalue
      induction before with
      | nil =>
          rw [List.nil_append, List.nil_append, toOption_mapM_cons, toOption_mapM_cons, hitem]
      | cons first before ih =>
          rw [List.cons_append, List.cons_append, toOption_mapM_cons, toOption_mapM_cons, ih]

theorem unaffected_decodeMap (hshape : shape ≠ .condition)
    (hdecode : ∀ name, Unaffected (shape.member name) decode) :
    Unaffected shape (decodeMap decode) := by
  have hinsert : Unordered shape fun (map : KeyMap α) name value =>
      (do return map.insert name (← decode value) : Decoded (KeyMap α)).toOption := by
    refine ⟨?_, ?_, fun hcondition => absurd hcondition hshape⟩
    · intro map left right hapart
      simp only [toOption_bind, toOption_pure, Option.bind_assoc, Option.bind_some,
        map.insert_swap hapart.name]
      exact Option.bind_comm _ _
    · intro map name json other hjson haltered
      simp only [toOption_bind, hdecode name json other hjson haltered]
  intro json other hjson haltered
  cases haltered with
  | reorder hperm => exact hinsert.visitMembers_eq hjson (.reorder hperm)
  | rename => exact absurd rfl hshape
  | member hvalue => exact hinsert.visitMembers_eq hjson (.member hvalue)
  | item => rfl

section Names

variable {origin : Origin} {ofName? : String → Option α} {json : Json} {value : α}

theorem findName_eq_ok_iff {name : String} :
    findName ofName? name = .ok value ↔ ofName? name = some value := by
  unfold findName
  cases ofName? name <;> simp

theorem exists_name_of_decodeNameInTree {members : List (String × Json)}
    (hname : decodeNameInTree ofName? (.object members) = .ok value) :
    ∃ name, members = [(name, .null)] ∧ ofName? name = some value := by
  unfold decodeNameInTree at hname
  split at hname
  next name content heq =>
    cases heq
    cases hfound : findName ofName? name with
    | error error => rw [hfound] at hname; cases hname
    | ok found =>
        rw [hfound] at hname
        cases content with
        | null =>
            cases hname
            exact ⟨name, rfl, findName_eq_ok_iff.1 hfound⟩
        | bool | number | string | array | object | flaw => cases hname
  next => cases hname
  next => cases hname

theorem exists_name_of_decodeNameInText {members : List (String × Json)}
    (hname : decodeNameInText ofName? (.object members) = .ok value) :
    ∃ name, members = [(name, .null)] ∧ ofName? name = some value := by
  unfold decodeNameInText at hname
  split at hname
  next => cases hname
  next name content rest _ heq =>
    cases heq
    cases hunnamed : isUnnamed content with
    | true => rw [hunnamed] at hname; cases hname
    | false =>
        rw [hunnamed] at hname
        cases hfound : findName ofName? name with
        | error error => rw [hfound] at hname; cases hname
        | ok found =>
            rw [hfound] at hname
            cases content with
            | null =>
                cases rest with
                | nil =>
                    cases hname
                    exact ⟨name, rfl, findName_eq_ok_iff.1 hfound⟩
                | cons => cases hname
            | bool | number | string | array | object | flaw => cases hname
  next => cases hname

/-- A name is given as a text, or as the only member of an object. -/
theorem decodeName_eq_ok_iff :
    decodeName origin ofName? json = .ok value ↔
      ∃ name, (json = .string name ∨ json = .object [(name, .null)]) ∧
        ofName? name = some value := by
  constructor
  · intro hname
    cases json with
    | string name => exact ⟨name, Or.inl rfl, findName_eq_ok_iff.1 hname⟩
    | object members =>
        obtain ⟨name, rfl, hfound⟩ : ∃ name, members = [(name, .null)] ∧
            ofName? name = some value := by
          cases origin with
          | text => exact exists_name_of_decodeNameInText hname
          | tree | aside => exact exists_name_of_decodeNameInTree hname
        exact ⟨name, Or.inr rfl, hfound⟩
    | null | bool | number | array | flaw => cases origin <;> cases hname
  · rintro ⟨name, rfl | rfl, hfound⟩
    · exact findName_eq_ok_iff.2 hfound
    · have hfind := findName_eq_ok_iff.2 hfound
      cases origin with
      | text =>
          change (findName ofName? name >>= fun found => pure found) = .ok value
          rw [hfind]
          rfl
      | tree | aside =>
          change (findName ofName? name >>= fun found => pure found) = .ok value
          rw [hfind]
          rfl

theorem unaffected_decodeName (hshape : shape ≠ .condition) :
    Unaffected shape (decodeName origin ofName?) := by
  intro json other _ haltered
  have hname (value : α) : decodeName origin ofName? json = .ok value ↔
      decodeName origin ofName? other = .ok value := by
    have hstring (name : String) : json = .string name ↔ other = .string name := by
      cases haltered <;> exact iff_of_false nofun nofun
    simp only [decodeName_eq_ok_iff, hstring, haltered.eq_onlyMember_iff hshape]
  cases hjson : decodeName origin ofName? json with
  | ok value => rw [(hname value).1 hjson]
  | error error =>
      cases hother : decodeName origin ofName? other with
      | error error => rfl
      | ok value => cases hjson.symm.trans ((hname value).2 hother)

end Names

theorem unaffected_setAside (hdecode : Unaffected shape decode) :
    Unaffected shape fun json => setAside json >>= decode := by
  intro json other hjson haltered
  have hset (json : Json) : (setAside json >>= decode).toOption =
      if json.isWhole then (decode json).toOption else none := by
    unfold setAside
    split <;> rfl
  rw [hset, hset, haltered.isWhole_eq, hdecode json other hjson haltered]

end Values

end BranchingInterview.Wire
