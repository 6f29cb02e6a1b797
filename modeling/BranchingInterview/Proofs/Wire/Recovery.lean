import BranchingInterview.Wire.Answer

/-!
What it takes for a value to come back from its JSON. The JSON of a value is read in its canonical
form, in which the members of an object are sorted, so the order of decoding is not the one of
encoding.
-/

namespace BranchingInterview.Wire

variable {α β δ : Type}

/-- The canonical JSON of a value decodes to it again. -/
def Recovers (encode : α → Json) (decode : Json → Decoded α) (value : α) : Prop :=
  ∃ json, (encode value).canonical? = some json ∧ decode json = .ok value

/-- The JSON of a value, as it is written, decodes to it again. -/
structure RecoversAsWritten (encode : α → Json) (decode : Json → Decoded α) (value : α) : Prop where
  whole : (encode value).isWhole = true
  decode_eq : decode (encode value) = .ok value

theorem ok_bind (value : α) (next : α → Decoded β) : (Except.ok value >>= next) = next value := rfl

theorem isUnnamed_of_isWhole {json : Json} (hwhole : json.isWhole = true) :
    isUnnamed json = false := by
  cases json with
  | flaw reason => cases hwhole
  | null | bool | number | string | array | object => rfl

theorem isWhole_of_canonical? {json result : Json} (hresult : json.canonical? = some result) :
    result.isWhole = true :=
  Json.isWhole_of_isCanonical (Json.isCanonical_of_canonical? hresult)

theorem setAside_of_canonical? {json result : Json} (hresult : json.canonical? = some result) :
    setAside result = .ok result := by
  rw [setAside, isWhole_of_canonical? hresult, if_pos rfl]

theorem passOver_of_canonical? {json result : Json} (hresult : json.canonical? = some result)
    (draft : δ) : passOver draft result = .ok draft := by
  have hgrammatical := Json.isGrammatical_of_isWhole (isWhole_of_canonical? hresult)
  rw [passOver, hgrammatical, if_pos rfl]

theorem exists_of_canonical?_object {members : List (String × Json)} {result : Json}
    (hresult : (Json.object members).canonical? = some result) :
    ∃ sorted, result = .object sorted := by
  obtain ⟨values, -, rfl⟩ := Option.map_eq_some_iff.1 hresult
  exact ⟨_, rfl⟩

theorem visitMembers_cons_of_isWhole {visit : δ → String → Json → Decoded δ} {draft next : δ}
    {name : String} {value : Json} (hwhole : value.isWhole = true)
    (hvisit : visit draft name value = .ok next) (rest : List (String × Json)) :
    visitMembers visit draft ((name, value) :: rest) = visitMembers visit next rest := by
  rw [visitMembers, isUnnamed_of_isWhole hwhole, hvisit]
  rfl

theorem visitMembers_cons {visit : δ → String → Json → Decoded δ} {draft next : δ} {name : String}
    {source value : Json} (hvalue : source.canonical? = some value)
    (hvisit : visit draft name value = .ok next) (rest : List (String × Json)) :
    visitMembers visit draft ((name, value) :: rest) = visitMembers visit next rest :=
  visitMembers_cons_of_isWhole (isWhole_of_canonical? hvalue) hvisit rest

theorem visitMembers_append {visit : δ → String → Json → Decoded δ} {start draft : δ}
    {first : List (String × Json)} (hfirst : visitMembers visit start first = .ok draft)
    (rest : List (String × Json)) :
    visitMembers visit start (first ++ rest) = visitMembers visit draft rest := by
  induction first generalizing start with
  | nil => cases hfirst; rfl
  | cons member first ih =>
      obtain ⟨name, value⟩ := member
      rw [List.cons_append, visitMembers]
      rw [visitMembers] at hfirst
      cases hnamed : isUnnamed value with
      | true => rw [hnamed] at hfirst; cases hfirst
      | false =>
          rw [hnamed] at hfirst
          cases hvisit : visit start name value with
          | error error => rw [hvisit] at hfirst; cases hfirst
          | ok next =>
              rw [hvisit] at hfirst
              exact ih hfirst

theorem decodeName_string {ofName? : String → Option α} {name : String} {value : α}
    (hname : ofName? name = some value) (origin : Origin) :
    decodeName origin ofName? (.string name) = .ok value := by
  rw [decodeName, findName, hname]

/-- What decodes to a value and is not `null` is there. -/
theorem decodeOptional_of_found {decode : Json → Decoded α} {json : Json} {value : α}
    (hfound : json ≠ .null) (hdecode : decode json = .ok value) :
    decodeOptional decode json = .ok (some value) := by
  unfold decodeOptional
  split
  · exact absurd rfl hfound
  · rw [hdecode]
    rfl

theorem Recovers.map_of_eq {encode : α → Json} {decode : Json → Decoded α} {value : α}
    (hvalue : Recovers encode decode value) {change : α → α} (hchange : change value = value) :
    Recovers encode (fun json => (decode json).map change) value := by
  obtain ⟨json, hjson, hdecode⟩ := hvalue
  refine ⟨json, hjson, ?_⟩
  change (decode json).map change = .ok value
  rw [hdecode, Except.map, hchange]

section Containers

variable {encode : α → Json} {decode : Json → Decoded α}

theorem exists_items_of_recovers {values : List α}
    (hvalues : ∀ value ∈ values, Recovers encode decode value) :
    ∃ items, Json.canonicalItems? (values.map encode) = some items ∧
      items.mapM decode = .ok values := by
  induction values with
  | nil => exact ⟨[], rfl, rfl⟩
  | cons value rest ih =>
      obtain ⟨json, hjson, hvalue⟩ := hvalues value List.mem_cons_self
      obtain ⟨items, hitems, hrest⟩ := ih fun other hother => hvalues other (by simp [hother])
      refine ⟨json :: items, ?_, ?_⟩
      · rw [List.map_cons, Json.canonicalItems?, hjson, hitems]
        rfl
      · rw [List.mapM_cons, hvalue, hrest]
        rfl

theorem Recovers.list {values : List α} (hvalues : ∀ value ∈ values, Recovers encode decode value) :
    Recovers (fun values => .array (values.map encode)) (decodeList decode) values := by
  obtain ⟨items, hitems, hdecode⟩ := exists_items_of_recovers hvalues
  exact ⟨.array items, Json.canonical?_array hitems, hdecode⟩

theorem visitMembers_written (hvalues : ∀ value, RecoversAsWritten encode decode value)
    (entries : List (String × α)) (map : KeyMap α) :
    visitMembers (fun map name value => return map.insert name (← decode value)) map
        (entries.map fun entry => (entry.1, encode entry.2)) =
      .ok (entries.foldl (fun map entry => map.insert entry.1 entry.2) map) := by
  induction entries generalizing map with
  | nil => rfl
  | cons entry rest ih =>
      obtain ⟨hwhole, hdecode⟩ := hvalues entry.2
      rw [List.map_cons, visitMembers_cons_of_isWhole hwhole (by rw [hdecode]; rfl), ih]
      rfl

/-- Decoding puts the entries into a map one after the other. -/
theorem exists_members_of_recovers {entries : List (String × α)}
    (hentries : ∀ entry ∈ entries, Recovers encode decode entry.2) :
    ∃ members,
      Json.canonicalMembers? (entries.map fun entry => (entry.1, encode entry.2)) = some members ∧
      members.map Prod.fst = entries.map Prod.fst ∧
      ∀ map : KeyMap α,
        visitMembers (fun map name value => return map.insert name (← decode value)) map members =
          .ok (entries.foldl (fun map entry => map.insert entry.1 entry.2) map) := by
  induction entries with
  | nil => exact ⟨[], rfl, rfl, fun _ => rfl⟩
  | cons entry rest ih =>
      obtain ⟨json, hjson, hvalue⟩ := hentries entry List.mem_cons_self
      obtain ⟨members, hmembers, hnames, hrest⟩ := ih fun other hother =>
        hentries other (by simp [hother])
      refine ⟨(entry.1, json) :: members, ?_, ?_, ?_⟩
      · rw [List.map_cons, Json.canonicalMembers?, hjson, hmembers]
        rfl
      · rw [List.map_cons, List.map_cons, hnames]
      · intro map
        rw [visitMembers_cons hjson (by rw [hvalue]; rfl), hrest]
        rfl

theorem Recovers.map {map : KeyMap α}
    (hentries : ∀ entry ∈ map.entries, Recovers encode decode entry.2) :
    Recovers (fun map : KeyMap α => .object (map.entries.map fun entry => (entry.1, encode entry.2)))
      (decodeMap decode) map := by
  obtain ⟨members, hmembers, hnames, hvisit⟩ := exists_members_of_recovers hentries
  have hascending : Ascending members := by
    rw [Ascending, hnames]
    exact map.ascending
  refine ⟨.object members, ?_, ?_⟩
  · rw [Json.canonical?, hmembers, Option.map_some, sortEntries_of_ascending hascending]
  · rw [decodeMap, hvisit]
    exact congrArg Except.ok (KeyMap.empty_merge map)

end Containers

theorem recovers_string (value : String) : Recovers Json.string decodeString value :=
  ⟨.string value, rfl, rfl⟩

theorem recovers_strings (values : List String) :
    Recovers Json.strings (decodeList decodeString) values :=
  Recovers.list fun value _ => recovers_string value

end BranchingInterview.Wire
