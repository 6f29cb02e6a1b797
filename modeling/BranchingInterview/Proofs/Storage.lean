import BranchingInterview.Action.Stored
import BranchingInterview.Proofs.Json.ReadBack
import BranchingInterview.Proofs.Wire.Records

/-!
Actions come back from the flat form in which they are stored, but for the ids of a push, which come
back in pieces. The responses of a skip may be written in any order.
-/

namespace BranchingInterview

open Wire

namespace StoredAction

theorem pieces_eq_splitOn (chars : List Char) : pieces chars = chars.splitOn delimiter := by
  induction chars with
  | nil => rfl
  | cons c rest ih =>
      rw [pieces, ih, List.splitOn_cons_eq_if_modifyHead]
      by_cases hc : c = delimiter
      · rw [if_pos hc, if_pos (beq_iff_eq.2 hc)]
      · rw [if_neg hc, if_neg fun heq => hc (beq_iff_eq.1 heq)]
        cases hrest : rest.splitOn delimiter with
        | nil => exact absurd hrest (List.splitOn_ne_nil _ _)
        | cons piece more => rfl

theorem not_mem_of_mem_pieces {chars piece : List Char} (hpiece : piece ∈ pieces chars) :
    delimiter ∉ piece := by
  induction chars generalizing piece with
  | nil =>
      cases List.mem_singleton.1 hpiece
      exact List.not_mem_nil
  | cons c rest ih =>
      unfold pieces at hpiece
      split at hpiece
      next =>
        rcases List.mem_cons.1 hpiece with rfl | hpiece
        · exact List.not_mem_nil
        · exact ih hpiece
      next hc =>
        have hlonger : ∀ piece, delimiter ∉ piece → delimiter ∉ c :: piece := fun _ hnot =>
          List.not_mem_cons_of_ne_of_not_mem (Ne.symm hc) hnot
        split at hpiece
        next first more hrest =>
          rcases List.mem_cons.1 hpiece with rfl | hpiece
          · exact hlonger first (ih (hrest ▸ List.mem_cons_self))
          · exact ih (hrest ▸ List.mem_cons_of_mem first hpiece)
        next =>
          cases List.mem_singleton.1 hpiece
          exact hlonger [] List.not_mem_nil

/-- What an id comes back as: its pieces between semicolons, but for the empty ones. -/
def idPieces (id : String) : List String :=
  ((id.toList.splitOn ';').filter (!·.isEmpty)).map String.ofList

theorem splitIds_eq (payload : String) : splitIds payload = idPieces payload := by
  rw [splitIds, pieces_eq_splitOn]
  rfl

theorem idPieces_append (first rest : List Char) :
    idPieces (String.ofList (first ++ ';' :: rest)) =
      idPieces (String.ofList first) ++ idPieces (String.ofList rest) := by
  simp only [idPieces, String.toList_ofList, List.splitOn_append_cons_self, List.filter_append,
    List.map_append]

/-- The pieces of joined ids are those of the ids, one after the other. -/
theorem splitIds_joinIds (ids : List String) : splitIds (joinIds ids) = ids.flatMap idPieces := by
  rw [splitIds_eq, joinIds]
  induction ids with
  | nil => rfl
  | cons id rest ih =>
      cases rest with
      | nil =>
          rw [List.map_singleton, List.intercalate_singleton, String.ofList_toList,
            List.flatMap_singleton]
      | cons next more =>
          rw [List.map_cons, List.map_cons, List.intercalate_cons_cons, List.append_assoc,
            List.singleton_append, delimiter, idPieces_append, String.ofList_toList]
          exact congrArg (idPieces id ++ ·) ih

theorem idPieces_eq_singleton {id : String} (hsome : id ≠ "") (hwhole : ';' ∉ id.toList) :
    idPieces id = [id] := by
  simp [idPieces, List.splitOn_eq_singleton hwhole, hsome]

theorem of_mem_idPieces {id piece : String} (hpiece : piece ∈ idPieces id) :
    piece ≠ "" ∧ ';' ∉ piece.toList := by
  rw [← splitIds_eq] at hpiece
  obtain ⟨chars, hchars, rfl⟩ := List.mem_map.1 hpiece
  obtain ⟨hmem, hkept⟩ := List.mem_filter.1 hchars
  refine ⟨?_, ?_⟩
  · intro hempty
    rw [String.ofList_eq_empty_iff.1 hempty] at hkept
    cases hkept
  · rw [String.toList_ofList]
    exact not_mem_of_mem_pieces hmem

/-- Ids that come back as they were are pieces themselves. -/
theorem flatMap_idPieces_eq_self_iff (ids : List String) :
    ids.flatMap idPieces = ids ↔ ∀ id ∈ ids, id ≠ "" ∧ ';' ∉ id.toList := by
  constructor
  · intro hself id hid
    -- An id of the list is then itself a piece of some id.
    rw [← hself] at hid
    obtain ⟨_, _, hpiece⟩ := List.mem_flatMap.1 hid
    exact of_mem_idPieces hpiece
  · intro hids
    induction ids with
    | nil => rfl
    | cons id rest ih =>
        obtain ⟨⟨hsome, hwhole⟩, hrest⟩ := List.forall_mem_cons.1 hids
        rw [List.flatMap_cons, idPieces_eq_singleton hsome hwhole, ih hrest]
        rfl

end StoredAction

/-! Responses as they are written: the members of an object in the order of the fields. -/

theorem Answer.isCanonical_toJson (answer : Answer) : answer.toJson.IsCanonical := by
  cases answer with
  | text value => trivial
  | record fields => exact fields.canonical

theorem Answer.recoversAsWritten (answer : Answer) : RecoversAsWritten toJson ofJson answer := by
  have hcanonical := answer.isCanonical_toJson
  obtain ⟨json, hjson, hdecode⟩ := answer.recovers
  rw [Json.canonical?_of_isCanonical hcanonical] at hjson
  cases hjson
  exact ⟨Json.isWhole_of_isCanonical hcanonical, hdecode⟩

theorem Question.recoversAsWritten (origin : Origin) (question : Question) :
    RecoversAsWritten toJson (ofJson origin) question := by
  obtain ⟨id, screen, prompt⟩ := question
  by_cases hprompt : prompt = ""
  · subst hprompt
    cases screen <;> exact ⟨rfl, rfl⟩
  · have hjson : toJson ⟨id, screen, prompt⟩ = .object ([("id", .string id)] ++
        optionalMember "screenId" (screen.map .string) ++ [("prompt", .string prompt)]) := by
      rw [toJson, if_neg hprompt]
      rfl
    refine ⟨?_, ?_⟩ <;> rw [hjson] <;> cases screen <;> rfl

theorem Response.recoversAsWritten (origin : Origin) (response : Response) :
    RecoversAsWritten toJson (ofJson origin) response := by
  obtain ⟨question, answer⟩ := response
  obtain ⟨hwhole, hanswer⟩ := answer.recoversAsWritten
  cases question with
  | none =>
      refine ⟨?_, ofJson_answer origin hwhole hanswer⟩
      simp [toJson, Json.isWhole, Json.haveWholeValues, hwhole]
  | some question =>
      obtain ⟨hwholeQuestion, hquestion⟩ := question.recoversAsWritten origin
      have hfound : question.toJson ≠ .null := by
        intro hnull
        cases hnull
      refine ⟨?_, ofJson_question origin hwhole hanswer hwholeQuestion hfound hquestion⟩
      simp [toJson, Json.isWhole, Json.haveWholeValues, hwhole, hwholeQuestion]

namespace Responses

/-- Responses under their keys, in the order in which they are given. -/
def written (entries : List (String × Response)) : Json :=
  .object (entries.map fun entry => (entry.1, entry.2.toJson))

variable {entries : List (String × Response)} {responses : Responses}

theorem ofJson_written (origin : Origin) (hperm : entries.Perm responses.entries) :
    ofJson origin (written entries) = .ok responses :=
  (visitMembers_written (Response.recoversAsWritten origin) entries KeyMap.empty).trans
    (congrArg Except.ok (KeyMap.foldl_insert_of_perm hperm))

/-- Whether responses are read back does not depend on their order. -/
theorem readable_written (hwords : ∀ number ∈ responses.toJson.numbers, number.IsWord)
    {depth : Nat} (hdepth : responses.toJson.depth ≤ depth)
    (hperm : entries.Perm responses.entries) : (written entries).Readable depth := by
  have hwhole : responses.toJson.isWhole = true := by
    refine Json.haveWholeValues_iff.2 fun member hmember => ?_
    obtain ⟨entry, -, rfl⟩ := List.mem_map.1 hmember
    exact (entry.2.recoversAsWritten .text).whole
  have hreadable : responses.toJson.Readable depth := ⟨hwhole, hwords, hdepth⟩
  obtain ⟨inner, rfl⟩ := hreadable.exists_depth (Nat.succ_pos _)
  refine Json.readable_object_iff.2 fun member hmember => ?_
  exact Json.readable_object_iff.1 hreadable member ((hperm.map _).mem_iff.1 hmember)

end Responses

theorem Wire.decodeText_text {α : Type} (decode : Origin → Json → Decoded α) {json : Json}
    (hjson : json.Readable Json.maxDepth) : decodeText decode json.text = decode .text json := by
  rw [decodeText, Json.Document.read_text hjson]
  cases decode .text json <;> rfl

namespace Action

theorem ofStored_skip {json : Json} {responses : Responses} (hjson : json.Readable Json.maxDepth)
    (hdecode : Responses.ofJson .text json = .ok responses) :
    ofStored { kind := .skip, payload := some json.text } = .ok (skip responses) := by
  have htext := (decodeText_text Responses.ofJson hjson).trans hdecode
  simp only [ofStored, Option.getD_some, htext]

theorem ofStored_toStored_skip {responses : Responses}
    (hreadable : responses.toJson.Readable Json.maxDepth) :
    ofStored (toStored (skip responses)) = .ok (skip responses) := by
  obtain ⟨json, hjson, hdecode⟩ := responses.recovers .text
  have htext : responses.toJson.canonicalText = json.text := by
    rw [Json.canonicalText, hjson, Option.getD_some]
  rw [toStored, htext]
  exact ofStored_skip (hreadable.canonical hjson) hdecode

theorem ofStored_toStored_push (ids : List String) :
    ofStored (toStored (push ids)) = .ok (push (ids.flatMap StoredAction.idPieces)) :=
  congrArg (fun ids => Except.ok (push ids)) (StoredAction.splitIds_joinIds ids)

/-- A push comes back with the pieces of its ids, hence as it was only if each id is one piece; an
action with one name or none comes back as it was, and so does a skip whose JSON can be read,
whatever the order in which its responses are written. -/
theorem ofStored_toStored :
    (∀ ids : List String,
      ofStored (toStored (push ids)) = .ok (push (ids.flatMap StoredAction.idPieces)) ∧
      (ofStored (toStored (push ids)) = .ok (push ids) ↔
        ∀ id ∈ ids, id ≠ "" ∧ ';' ∉ id.toList)) ∧
    ofStored (toStored (push [])) = .ok (push []) ∧
    (∀ name : String,
      ofStored (toStored (checkpoint name)) = .ok (checkpoint name) ∧
      ofStored (toStored (restore name)) = .ok (restore name) ∧
      ofStored (toStored (milestone name)) = .ok (milestone name)) ∧
    ofStored (toStored endInterview) = .ok endInterview ∧
    ofStored (toStored doNothing) = .ok doNothing ∧
    ∀ responses : Responses, (∀ number ∈ responses.toJson.numbers, number.IsWord) →
      responses.toJson.depth ≤ 127 →
      ofStored (toStored (skip responses)) = .ok (skip responses) ∧
      ∀ entries, entries.Perm responses.entries →
        ofStored { kind := .skip, payload := some (Responses.written entries).text } =
          .ok (skip responses) := by
  refine ⟨fun ids => ⟨ofStored_toStored_push ids, ?_⟩, rfl, fun _ => ⟨rfl, rfl, rfl⟩, rfl, rfl,
    fun responses hwords hdepth => ⟨?_, fun entries hperm => ?_⟩⟩
  · rw [ofStored_toStored_push, ← StoredAction.flatMap_idPieces_eq_self_iff, Except.ok.injEq,
      push.injEq]
  · exact ofStored_toStored_skip (Responses.readable_written hwords hdepth (List.Perm.refl _))
  · exact ofStored_skip (Responses.readable_written hwords hdepth hperm)
      (Responses.ofJson_written .text hperm)

theorem ofStored_toStored_lookup :
    let question : Question := { id := "e", screen := some "s", prompt := "\"Who?\"" }
    let found : Json := .object [("least", .integer (-9223372036854775808)), ("none", .array [])]
    let injected : Response :=
      { answer := .record ⟨[("found", found), ("most", .integer 18446744073709551615)],
          by decide, ⟨by decide, trivial, trivial, trivial⟩, trivial, trivial⟩ }
    let asked : Response := { question := some question, answer := .text "\n" }
    let responses : Responses := ⟨[("a", asked), ("b", injected)], by decide⟩
    ofStored (toStored (push [";b;", "", "a"])) = .ok (push ["b", "a"]) ∧
      ofStored (toStored (skip responses)) = .ok (skip responses) ∧
      ofStored { kind := .skip
                 payload := some (Responses.written [("b", injected), ("a", asked)]).text } =
        .ok (skip responses) := by
  intro question found injected asked responses
  obtain ⟨hpush, -, -, -, -, hskip⟩ := ofStored_toStored
  obtain ⟨hkept, hwritten⟩ :=
    hskip responses (by decide +kernel +zetaReduce) (by decide +kernel +zetaReduce)
  exact ⟨(hpush _).1, hkept, hwritten _ (List.Perm.swap _ _ _)⟩

end Action

end BranchingInterview
