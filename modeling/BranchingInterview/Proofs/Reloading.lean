import BranchingInterview.Proofs.Json.Depth
import BranchingInterview.Proofs.Storage
import BranchingInterview.Proofs.Wire.Visits
import Mathlib.Control.Monad.Basic

/-!
Actions that are loaded, whatever was stored. Loading settles the ids of a push and the responses of
a skip, so that storing an action that was loaded and loading it again changes nothing.
-/

namespace BranchingInterview

open Wire

/-- All of a text is one JSON text, and it is read as a value. -/
structure Wire.IsTextOf {α : Type} (decode : Origin → Json → Decoded α) (text : String)
    (value : α) : Prop where
  complete : (Json.Document.read text).isComplete = true
  decode_eq : decode .text (Json.Document.read text).root = .ok value

theorem Wire.decodeText_eq_ok_iff {α : Type} {decode : Origin → Json → Decoded α} {text : String}
    {value : α} : decodeText decode text = .ok value ↔ IsTextOf decode text value := by
  rw [decodeText]
  cases hdecode : decode .text (Json.Document.read text).root with
  | error error =>
      refine iff_of_false (fun hfound => ?_) fun htext => ?_
      · cases hfound
      · cases hdecode.symm.trans htext.decode_eq
  | ok found =>
      cases hcomplete : (Json.Document.read text).isComplete with
      | false =>
          refine iff_of_false (fun hfound => ?_) fun htext => ?_
          · cases hfound
          · cases hcomplete.symm.trans htext.complete
      | true =>
          refine ⟨fun hfound => ⟨hcomplete, hdecode.trans hfound⟩, fun htext => ?_⟩
          exact hdecode.symm.trans htext.decode_eq

section Depth

variable {origin : Origin} {json : Json}

theorem Answer.depth_toJson_le {answer : Answer} (hanswer : ofJson json = .ok answer) :
    answer.toJson.depth ≤ json.depth := by
  unfold ofJson at hanswer
  split at hanswer
  next => cases hanswer
  next => cases hanswer; exact Nat.zero_le _
  next hjson => cases hanswer; exact Json.depth_canonical?_le hjson
  next => cases hanswer

theorem Question.depth_toJson (question : Question) : question.toJson.depth = 1 := by
  obtain ⟨id, screen, prompt⟩ := question
  by_cases hprompt : prompt = "" <;> cases screen <;> simp [toJson, hprompt] <;> rfl

theorem Question.depth_pos {question : Question} (hquestion : ofJson origin json = .ok question) :
    0 < json.depth := by
  obtain ⟨hdepth, -⟩ := exists_draft_of_decodeFields (fun _ => True)
    (fun _ _ _ _ _ _ _ => trivial) trivial hquestion
  exact hdepth

theorem found_of_decodeOptional {α : Type} {decode : Json → Decoded α} {value : α}
    (hvalue : decodeOptional decode json = .ok (some value)) : decode json = .ok value := by
  unfold decodeOptional at hvalue
  split at hvalue
  · cases hvalue
  · cases hdecode : decode json with
    | error error => rw [hdecode] at hvalue; cases hvalue
    | ok found => rw [hdecode] at hvalue; cases hvalue; rfl

/-- The parts of a response are nested no deeper than `depth`. -/
structure Response.Draft.Within (draft : Draft) (depth : Nat) : Prop where
  question : ∀ question, draft.question = some (some question) → question.toJson.depth ≤ depth
  answer : ∀ answer, draft.answer = some answer → answer.toJson.depth ≤ depth

theorem Response.visit_within {name : String} {draft next : Draft} {depth : Nat}
    (hdepth : json.depth ≤ depth) (hdraft : draft.Within depth)
    (hnext : visit origin draft name json = .ok next) : next.Within depth := by
  unfold visit at hnext
  split at hnext
  next =>
    obtain ⟨found, hfound, rfl⟩ := exists_of_fill hnext
    refine ⟨fun question hquestion => ?_, hdraft.answer⟩
    cases hquestion
    have hasked := found_of_decodeOptional hfound
    exact Nat.le_trans (question.depth_toJson ▸ Question.depth_pos hasked) hdepth
  next =>
    obtain ⟨found, hfound, rfl⟩ := exists_of_fill hnext
    refine ⟨hdraft.question, fun answer hanswer => ?_⟩
    cases hanswer
    exact Nat.le_trans (Answer.depth_toJson_le hfound) hdepth
  next =>
    rw [eq_of_passOver hnext]
    exact hdraft

theorem Response.depth_toJson_le {response : Response}
    (hresponse : ofJson origin json = .ok response) : response.toJson.depth ≤ json.depth := by
  obtain ⟨hpos, draft, hdraft, hcomplete⟩ := exists_draft_of_decodeFields
    (fun draft => draft.Within (json.depth - 1))
    (fun name part draft next hpart hdraft hnext =>
      visit_within (Nat.le_sub_one_of_lt hpart) hdraft hnext)
    ⟨nofun, nofun⟩ hresponse
  obtain ⟨question, answer⟩ := draft
  cases answer with
  | none => cases hcomplete
  | some answer =>
      cases hcomplete
      refine Nat.le_trans (Nat.succ_le_succ (Json.depthOfMembers_le.2 ?_))
        (Nat.le_of_eq (Nat.sub_add_cancel hpos))
      intro member hmember
      rcases List.mem_append.1 hmember with hentry | hanswer
      · cases question with
        | none => cases hentry
        | some question =>
            cases question with
            | none => cases hentry
            | some question =>
                cases List.mem_singleton.1 hentry
                exact hdraft.question question rfl
      · cases List.mem_singleton.1 hanswer
        exact hdraft.answer answer rfl

/-- No response in a map is nested deeper than `depth`. -/
def Responses.Within (responses : Responses) (depth : Nat) : Prop :=
  ∀ entry ∈ responses.entries, entry.2.toJson.depth ≤ depth

theorem Responses.insert_within {responses next : Responses} {name : String} {depth : Nat}
    (hdepth : json.depth ≤ depth) (hresponses : responses.Within depth)
    (hnext : (do return responses.insert name (← Response.ofJson origin json)) = .ok next) :
    next.Within depth := by
  cases hdecode : Response.ofJson origin json with
  | error error => rw [hdecode] at hnext; cases hnext
  | ok response =>
      rw [hdecode] at hnext
      cases hnext
      intro entry hentry
      rcases mem_insertEntry hentry with rfl | hentry
      · exact Nat.le_trans (Response.depth_toJson_le hdecode) hdepth
      · exact hresponses entry hentry

theorem Responses.depth_toJson_le {responses : Responses}
    (hresponses : ofJson origin json = .ok responses) :
    responses.toJson.depth ≤ json.depth := by
  cases json with
  | object members =>
      have hdepth := Json.depthOfMembers_le.1 (Nat.le_refl (Json.depthOfMembers members))
      have hstart : Within {} (Json.depthOfMembers members) := nofun
      have hentries := visitMembers_preserves (Within · (Json.depthOfMembers members))
        (fun member hmember map next hmap hnext =>
          insert_within (hdepth member hmember) hmap hnext) hstart hresponses
      refine Nat.succ_le_succ (Json.depthOfMembers_le.2 fun member hmember => ?_)
      obtain ⟨entry, hentry, rfl⟩ := List.mem_map.1 hmember
      exact hentries entry hentry
  | null | bool | number | string | array | flaw => cases hresponses

end Depth

namespace StoredAction

/-- Drops each delimiter that another one or the end of the text follows. -/
def dropDoubled : List Char → List Char
  | [] => []
  | c :: rest =>
      if c = delimiter ∧ rest.head?.all (· == delimiter) then dropDoubled rest
      else c :: dropDoubled rest

/-- A payload without the delimiters that stand between no two ids. -/
def withoutSurplus (payload : String) : String :=
  String.ofList (dropDoubled (payload.toList.dropWhile (· == delimiter)))

/-- What follows the first of some joined pieces; empty pieces are none. -/
def joinMore (more : List (List Char)) : List Char :=
  (more.filter (!·.isEmpty)).flatMap (delimiter :: ·)

section

variable {c : Char} {rest first : List Char} {more : List (List Char)}

theorem joinMore_cons (hfirst : first ≠ []) :
    joinMore (first :: more) = delimiter :: (first ++ joinMore more) := by
  have hkept : (!first.isEmpty) = true := by simp [hfirst]
  rw [joinMore, List.filter_cons, if_pos hkept, List.flatMap_cons]
  rfl

theorem intercalate_eq (first : List Char) (more : List (List Char)) :
    [delimiter].intercalate (first :: more) = first ++ more.flatMap (delimiter :: ·) := by
  induction more generalizing first with
  | nil => rw [List.intercalate_singleton, List.flatMap_nil, List.append_nil]
  | cons next more ih =>
      rw [List.intercalate_cons_cons, ih, List.flatMap_cons, List.append_assoc]
      rfl

theorem pieces_delimiter : pieces (delimiter :: rest) = [] :: pieces rest := by
  rw [pieces, if_pos rfl]

theorem pieces_of_ne (hc : c ≠ delimiter) (hrest : pieces rest = first :: more) :
    pieces (c :: rest) = (c :: first) :: more := by
  rw [pieces, if_neg hc, hrest]

theorem exists_pieces (chars : List Char) : ∃ first more, pieces chars = first :: more := by
  rw [pieces_eq_splitOn]
  exact List.exists_cons_of_ne_nil (List.splitOn_ne_nil _ _)

theorem head?_all_iff (hrest : pieces rest = first :: more) :
    rest.head?.all (· == delimiter) = true ↔ first = [] := by
  cases rest with
  | nil =>
      cases hrest
      exact iff_of_true rfl rfl
  | cons c rest =>
      by_cases hc : c = delimiter
      · subst hc
        rw [pieces_delimiter] at hrest
        cases hrest
        exact iff_of_true (beq_self_eq_true _) rfl
      · obtain ⟨next, others, hpieces⟩ := exists_pieces rest
        rw [pieces_of_ne hc hpieces] at hrest
        cases hrest
        exact iff_of_false (fun hall => hc (beq_iff_eq.1 hall)) nofun

theorem dropDoubled_eq {chars : List Char} (hchars : pieces chars = first :: more) :
    dropDoubled chars = first ++ joinMore more := by
  induction chars generalizing first more with
  | nil =>
      cases hchars
      rfl
  | cons c rest ih =>
      obtain ⟨next, others, hrest⟩ := exists_pieces rest
      rw [dropDoubled]
      by_cases hc : c = delimiter
      · subst hc
        rw [pieces_delimiter, hrest] at hchars
        cases hchars
        by_cases hnext : next = []
        · rw [if_pos ⟨rfl, (head?_all_iff hrest).2 hnext⟩, ih hrest, hnext]
          rfl
        · rw [if_neg fun hdoubled => hnext ((head?_all_iff hrest).1 hdoubled.2), ih hrest,
            joinMore_cons hnext]
          rfl
      · rw [pieces_of_ne hc hrest] at hchars
        cases hchars
        rw [if_neg fun hdoubled => hc hdoubled.1, ih hrest]
        rfl

end

theorem dropDoubled_dropWhile (chars : List Char) :
    dropDoubled (chars.dropWhile (· == delimiter)) =
      [delimiter].intercalate ((pieces chars).filter (!·.isEmpty)) := by
  induction chars with
  | nil => rfl
  | cons c rest ih =>
      by_cases hc : c = delimiter
      · subst hc
        rw [List.dropWhile_cons, if_pos (beq_self_eq_true _), ih, pieces_delimiter]
        rfl
      · obtain ⟨first, more, hrest⟩ := exists_pieces rest
        have hpieces := pieces_of_ne hc hrest
        rw [List.dropWhile_cons, if_neg fun heq => hc (beq_iff_eq.1 heq), dropDoubled_eq hpieces,
          hpieces]
        exact (intercalate_eq (c :: first) (more.filter (!·.isEmpty))).symm

theorem joinIds_splitIds (payload : String) :
    joinIds (splitIds payload) = withoutSurplus payload := by
  have hself : String.toList ∘ String.ofList = id := by
    funext chars
    exact String.toList_ofList
  rw [joinIds, splitIds, List.map_map, hself, List.map_id, withoutSurplus, dropDoubled_dropWhile]

theorem of_mem_splitIds {payload id : String} (hid : id ∈ splitIds payload) :
    id ≠ "" ∧ delimiter ∉ id.toList := by
  rw [splitIds_eq] at hid
  exact of_mem_idPieces hid

end StoredAction

namespace Action

variable {stored : StoredAction} {action : Action}

theorem exists_of_ofStored_skip {payload : Option String}
    (hstored : ofStored ⟨.skip, payload⟩ = .ok action) :
    ∃ responses, action = skip responses ∧
      IsTextOf Responses.ofJson (payload.getD "") responses := by
  simp only [ofStored] at hstored
  cases htext : decodeText Responses.ofJson (payload.getD "") with
  | error error => rw [htext] at hstored; cases hstored
  | ok responses =>
      rw [htext] at hstored
      cases hstored
      exact ⟨responses, rfl, decodeText_eq_ok_iff.1 htext⟩

/-- Responses that were loaded can be read wherever they are written. -/
theorem readable_of_ofStored {responses : Responses}
    (hstored : ofStored stored = .ok (skip responses))
    (hwords : ∀ number ∈ responses.toJson.numbers, number.IsWord)
    {entries : List (String × Response)} (hperm : entries.Perm responses.entries) :
    (Responses.written entries).Readable Json.maxDepth := by
  obtain ⟨kind, payload⟩ := stored
  cases kind with
  | skip =>
      obtain ⟨_, heq, htext⟩ := exists_of_ofStored_skip hstored
      cases heq
      apply Responses.readable_written hwords _ hperm
      exact Nat.le_trans (Responses.depth_toJson_le htext.decode_eq)
        (Json.depth_root_le (payload.getD ""))
  | push | checkpoint | restore | milestone | endInterview | doNothing => cases hstored

/-- An action that was loaded comes back as it is once it is stored. -/
theorem ofStored_toStored_of_ofStored (hstored : ofStored stored = .ok action)
    (hwords : ∀ responses, action = skip responses →
      ∀ number ∈ responses.toJson.numbers, number.IsWord) :
    ofStored (toStored action) = .ok action := by
  obtain ⟨kind, payload⟩ := stored
  cases kind with
  | push =>
      cases hstored
      rw [ofStored_toStored_push, (StoredAction.flatMap_idPieces_eq_self_iff _).2]
      exact fun id hid => StoredAction.of_mem_splitIds hid
  | skip =>
      obtain ⟨responses, rfl, -⟩ := exists_of_ofStored_skip hstored
      exact ofStored_toStored_skip
        (readable_of_ofStored hstored (hwords responses rfl) (List.Perm.refl _))
  | checkpoint | restore | milestone | endInterview | doNothing =>
      cases hstored
      rfl

theorem exists_reason_of_ofStored {error : ValidationError}
    (hstored : ofStored stored = .error error) :
    stored.kind = .skip ∧ ∃ reason,
      decodeText Responses.ofJson (stored.payload.getD "") = .error reason ∧
        error = .invalidPayload "skip" reason.message := by
  obtain ⟨kind, payload⟩ := stored
  cases kind with
  | skip =>
      refine ⟨rfl, ?_⟩
      simp only [ofStored] at hstored
      cases htext : decodeText Responses.ofJson (payload.getD "") with
      | ok responses => rw [htext] at hstored; cases hstored
      | error reason =>
          rw [htext] at hstored
          cases hstored
          exact ⟨reason, rfl, rfl⟩
  | push | checkpoint | restore | milestone | endInterview | doNothing => cases hstored

theorem kind_of_ofStored (hstored : ofStored stored = .ok action) : action.kind = stored.kind := by
  obtain ⟨kind, payload⟩ := stored
  cases kind with
  | skip =>
      obtain ⟨responses, rfl, -⟩ := exists_of_ofStored_skip hstored
      rfl
  | push | checkpoint | restore | milestone | endInterview | doNothing => cases hstored; rfl

/-- Loading fails only for the payload of a skip that is no JSON of responses. What was loaded is
of the kind that was stored and comes back as it is once it is stored again, a skip also where its
responses are written in another order; the ids of a push are those between the delimiters of the
payload. -/
theorem ofStored_normalises (stored : StoredAction) :
    let payload := stored.payload.getD ""
    ((∃ error, ofStored stored = .error error) ↔
      stored.kind = .skip ∧ ¬∃ responses, IsTextOf Responses.ofJson payload responses) ∧
    (∀ error, ofStored stored = .error error →
      ∃ reason : DecodeError, error = .invalidPayload "skip" reason.message) ∧
    ∀ action, ofStored stored = .ok action →
      action.kind = stored.kind ∧
      (∀ ids, action = push ids →
        (∀ id ∈ ids, id ≠ "" ∧ ';' ∉ id.toList) ∧
        StoredAction.joinIds ids = StoredAction.withoutSurplus payload) ∧
      ((∀ responses, action = skip responses →
          ∀ number ∈ responses.toJson.numbers, number.IsWord) →
        ofStored (toStored action) = .ok action ∧
        ∀ responses entries, action = skip responses → entries.Perm responses.entries →
          ofStored { kind := .skip, payload := some (Responses.written entries).text } =
            .ok action) := by
  intro payload
  refine ⟨⟨?_, ?_⟩, ?_, fun action haction =>
    ⟨kind_of_ofStored haction, ?_, fun hwords =>
      ⟨ofStored_toStored_of_ofStored haction hwords, ?_⟩⟩⟩
  · rintro ⟨error, herror⟩
    obtain ⟨hskip, reason, hreason, -⟩ := exists_reason_of_ofStored herror
    refine ⟨hskip, ?_⟩
    rintro ⟨responses, htext⟩
    cases hreason.symm.trans (decodeText_eq_ok_iff.2 htext)
  · rintro ⟨hskip, hnone⟩
    cases haction : ofStored stored with
    | error error => exact ⟨error, rfl⟩
    | ok action =>
        obtain ⟨kind, payload⟩ := stored
        cases hskip
        obtain ⟨responses, -, htext⟩ := exists_of_ofStored_skip haction
        exact absurd ⟨responses, htext⟩ hnone
  · intro error herror
    obtain ⟨-, reason, -, heq⟩ := exists_reason_of_ofStored herror
    exact ⟨reason, heq⟩
  · rintro ids rfl
    obtain ⟨kind, stored⟩ := stored
    cases kind with
    | push =>
        cases haction
        exact ⟨fun id hid => StoredAction.of_mem_splitIds hid,
          StoredAction.joinIds_splitIds payload⟩
    | skip =>
        obtain ⟨_, heq, -⟩ := exists_of_ofStored_skip haction
        cases heq
    | checkpoint | restore | milestone | endInterview | doNothing => cases haction
  · rintro responses entries rfl hperm
    exact ofStored_skip (readable_of_ofStored haction (hwords responses rfl) hperm)
      (Responses.ofJson_written .text hperm)

/-- Runs of semicolons, and responses that an array and a repeated name give. -/
theorem ofStored_normalises_surplus :
    let ids : StoredAction := { kind := .push, payload := some ";a;;b c;" }
    let text := "\x7b\"b\":[[\"e\",\"s\"],\"old\"],\"a\":\x7b\"weight\":1e999," ++
      "\"response\":\x7b\"z\":-1,\"y\":[]\x7d\x7d,\"b\":[null,\"new\"]\x7d"
    let skipped : StoredAction := { kind := .skip, payload := some text }
    let found : Record :=
      ⟨[("y", .array []), ("z", .integer (-1))], by decide, trivial, trivial, trivial⟩
    let responses : Responses :=
      ⟨[("a", { answer := .record found }), ("b", { answer := .text "new" })], by decide⟩
    ofStored ids = .ok (push ["a", "b c"]) ∧
      ofStored (toStored (push ["a", "b c"])) = .ok (push ["a", "b c"]) ∧
      ofStored skipped = .ok (skip responses) ∧
      ofStored (toStored (skip responses)) = .ok (skip responses) ∧
      ofStored { kind := .skip, payload := some (Responses.written responses.entries.reverse).text } =
        .ok (skip responses) := by
  intro ids text skipped found responses
  have hids : ofStored ids = .ok (push ["a", "b c"]) := by decide +kernel
  have hskipped : ofStored skipped = .ok (skip responses) := by decide +kernel +zetaReduce
  obtain ⟨-, -, hpush⟩ := ofStored_normalises ids
  obtain ⟨-, -, hskip⟩ := ofStored_normalises skipped
  have hwords : ∀ number ∈ responses.toJson.numbers, number.IsWord := by
    decide +kernel +zetaReduce
  obtain ⟨-, -, hids'⟩ := hpush _ hids
  obtain ⟨-, -, hskipped'⟩ := hskip _ hskipped
  obtain ⟨hkept, hwritten⟩ := hskipped' fun _ heq => by cases heq; exact hwords
  exact ⟨hids, (hids' nofun).1, hskipped, hkept,
    hwritten responses _ rfl (List.reverse_perm responses.entries)⟩

end Action

end BranchingInterview
