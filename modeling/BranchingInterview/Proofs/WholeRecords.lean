import BranchingInterview.Proofs.Json.Compact
import BranchingInterview.Proofs.Storage
import BranchingInterview.Proofs.TextOperators
import BranchingInterview.Proofs.Wire.MemberOrder

/-!
The text that stands for a whole record. It says everything about the record and nothing about how
the record was given, so whoever compares the texts of two records compares the records.
-/

namespace BranchingInterview

open Text Wire

namespace Json

/-- The members of each object stand in the order of the bytes of their names, each name once. -/
def HasSortedNames (json : Json) : Prop :=
  ∀ members ∈ json.objects, (members.map fun member => bytes member.1).Pairwise (· < ·)

/-- Trees that differ in the order of members, of the same objects at any depth. -/
def Reordered (json other : Json) : Prop :=
  Relation.ReflTransGen (Altered .plain) json other

section

variable {json other : Json} {members : List (String × Json)}

/-- Every object in a tree has what a container passes on to its parts. -/
theorem forall_mem_objects (holds : Json → Prop)
    (harray : ∀ items, holds (array items) → ∀ item ∈ items, holds item)
    (hobject : ∀ members, holds (object members) → ∀ member ∈ members, holds member.2)
    (hjson : holds json) : ∀ members ∈ json.objects, holds (object members) := by
  induction json using induct with
  | null | bool | number | string | flaw => exact nofun
  | array items ih =>
      intro members hmembers
      obtain ⟨item, hitem, hmembers⟩ := mem_objectsOfItems.1 hmembers
      exact ih item hitem (harray items hjson item hitem) members hmembers
  | object members ih =>
      intro found hfound
      rcases List.mem_cons.1 hfound with rfl | hfound
      · exact hjson
      · obtain ⟨member, hmember, hfound⟩ := mem_objectsOfMembers.1 hfound
        exact ih member hmember (hobject members hjson member hmember) found hfound

theorem IsCanonical.hasSortedNames (hjson : json.IsCanonical) : json.HasSortedNames := by
  have hobjects : ∀ members ∈ json.objects, (object members).IsCanonical :=
    forall_mem_objects IsCanonical (fun _ => areCanonical_iff.1)
      (fun _ hmembers => haveCanonicalValues_iff.1 hmembers.2) hjson
  intro members hmembers
  obtain ⟨hascending, -⟩ := hobjects members hmembers
  rw [Ascending, List.pairwise_map] at hascending
  exact List.pairwise_map.2 (hascending.imp bytes_lt_bytes_iff.2)

theorem hasWholeSkips_of_isWhole (hwhole : json.isWhole = true) : json.HasWholeSkips := by
  have hobjects : ∀ members ∈ json.objects, (object members).isWhole = true :=
    forall_mem_objects (isWhole · = true) (fun _ => areWhole_iff.1)
      (fun _ => haveWholeValues_iff.1) hwhole
  intro members hmembers _ _ _ _ payload hpayload _
  exact haveWholeValues_iff.1 (hobjects members hmembers) payload hpayload

theorem exists_canonicalItems? {items : List Json}
    (hitems : ∀ item ∈ items, ∃ result, item.canonical? = some result) :
    ∃ results, canonicalItems? items = some results := by
  induction items with
  | nil => exact ⟨[], rfl⟩
  | cons item rest ih =>
      obtain ⟨⟨result, hresult⟩, hrest⟩ := List.forall_mem_cons.1 hitems
      obtain ⟨results, hresults⟩ := ih hrest
      refine ⟨result :: results, ?_⟩
      rw [canonicalItems?, hresult, hresults]
      rfl

theorem exists_canonicalMembers?
    (hmembers : ∀ member ∈ members, ∃ result, member.2.canonical? = some result) :
    ∃ results, canonicalMembers? members = some results := by
  induction members with
  | nil => exact ⟨[], rfl⟩
  | cons member rest ih =>
      obtain ⟨⟨result, hresult⟩, hrest⟩ := List.forall_mem_cons.1 hmembers
      obtain ⟨results, hresults⟩ := ih hrest
      exact ⟨_, canonicalMembers?_eq_some_cons.2 ⟨result, results, hresult, hresults, rfl⟩⟩

theorem exists_canonical?_of_isWhole (hwhole : json.isWhole = true) :
    ∃ result, json.canonical? = some result := by
  induction json using induct with
  | null | bool | number | string => exact ⟨_, rfl⟩
  | flaw reason => cases hwhole
  | array items ih =>
      obtain ⟨results, hresults⟩ := exists_canonicalItems? fun item hitem =>
        ih item hitem (areWhole_iff.1 hwhole item hitem)
      exact ⟨array results, canonical?_array hresults⟩
  | object members ih =>
      obtain ⟨results, hresults⟩ := exists_canonicalMembers? fun member hmember =>
        ih member hmember (haveWholeValues_iff.1 hwhole member hmember)
      refine ⟨object (sortEntries results), ?_⟩
      rw [canonical?_object, hresults, Option.map_some]

end

end Json

/-- A record is given as an object with a value everywhere, its members in any order. -/
theorem Answer.exists_record {members : List (String × Json)}
    (hwhole : (Json.object members).isWhole = true) :
    ∃ fields, ofJson (.object members) = .ok (record fields) := by
  obtain ⟨result, hresult⟩ := Json.exists_canonical?_of_isWhole hwhole
  obtain ⟨sorted, rfl⟩ := exists_of_canonical?_object hresult
  have hcanonical := Json.isCanonical_of_canonical? hresult
  let fields : Record := ⟨sorted, hcanonical⟩
  refine ⟨fields, ?_⟩
  have hsame : (Json.object members).canonical? = fields.toJson.canonical? :=
    hresult.trans (Json.canonical?_of_isCanonical hcanonical).symm
  rw [ofJson_congr hsame]
  exact (record fields).recoversAsWritten.decode_eq

/-- The order of members, at any depth, has no part in the answer. -/
theorem Answer.ofJson_of_reordered {json other : Json} {answer : Answer}
    (hwhole : json.isWhole = true) (hdistinct : json.HasDistinctNames)
    (hreordered : json.Reordered other) (hanswer : ofJson json = .ok answer) :
    ofJson other = .ok answer := by
  have horderly : json.Orderly := ⟨hdistinct, Json.hasWholeSkips_of_isWhole hwhole⟩
  have hsame := (unaffected_ofJson.of_reflTransGen horderly hreordered).1
  rw [hanswer] at hsame
  cases hother : ofJson other with
  | error error => rw [hother] at hsame; cases hsame
  | ok found => rw [hother] at hsame; cases hsame; rfl

namespace Record

/-- All numbers in the record are whole numbers of 64 bits. -/
def HasWords (record : Record) : Prop :=
  ∀ number ∈ record.toJson.numbers, number.IsWord

instance (record : Record) : Decidable record.HasWords :=
  inferInstanceAs (Decidable (∀ number ∈ record.toJson.numbers, number.IsWord))

/-- The text is compact JSON of the record: what is read from it, as deep as the record is nested,
is the tree of the record, whose members are sorted in every object; and it decodes to the record
where decoding goes as deep. -/
structure IsWrittenAs (record : Record) (text : String) : Prop where
  compact : Json.IsCompact text.toList
  sorted : record.toJson.HasSortedNames
  read_eq : ∀ limit, record.toJson.depth ≤ limit →
    Json.Document.readWithin limit text = ⟨record.toJson, true⟩
  decode_eq : record.toJson.depth ≤ Json.maxDepth →
    decodeText (fun _ => Answer.ofJson) text = .ok (.record record)

variable {record other : Record}

theorem HasWords.readable (hwords : record.HasWords) {limit : Nat}
    (hdepth : record.toJson.depth ≤ limit) : record.toJson.Readable limit :=
  ⟨Json.isWhole_of_isCanonical record.canonical, hwords, hdepth⟩

theorem HasWords.text_eq_iff (hwords : record.HasWords) (hother : other.HasWords) :
    record.toJson.text = other.toJson.text ↔ record = other := by
  constructor
  · intro htext
    have hjson := (hwords.readable (Nat.le_refl _)).eq_of_text_eq
      (hother.readable (Nat.le_refl _)) htext
    exact ext (Json.object.inj hjson)
  · rintro rfl
    rfl

theorem HasWords.isWrittenAs (hwords : record.HasWords) :
    record.IsWrittenAs record.toJson.text where
  compact := Json.isCompact_text hwords
  sorted := Json.IsCanonical.hasSortedNames record.canonical
  read_eq _ hdepth := Json.Document.readWithin_text (hwords.readable hdepth)
  decode_eq hdepth := by
    have hdecode := decodeText_text (fun _ => Answer.ofJson) (hwords.readable hdepth)
    exact hdecode.trans (Answer.record record).recoversAsWritten.decode_eq

theorem HasWords.evaluate_eq (hwords : record.HasWords) (hother : other.HasWords) {key : String}
    (hkey : key ≠ "") {responses : Responses} {response : Response}
    (hresponse : responses.get? key = some response) (hanswer : response.answer = .record other)
    (nullDate : Date) :
    ({ operator := .eq, key := some key, operand := some record.toJson.text } :
      Comparison).evaluate nullDate responses = .ok (decide (other = record)) := by
  let comparison : Comparison :=
    { operator := .eq, key := some key, operand := some record.toJson.text }
  have hresolve : comparison.resolve responses = some other.toJson.text := by
    change (responses.get? key).bind (fun response => some (response.answer.resolve none)) = _
    rw [hresponse, Option.bind_some, hanswer]
    rfl
  have hcompares : comparison.Compares responses other.toJson.text record.toJson.text :=
    ⟨Comparison.hasKey_iff.2 (by simpa [comparison] using hkey), hresolve, rfl⟩
  have hresult : comparison.resultOf .eq nullDate responses = _ := hcompares.resultOf_eq nullDate
  rw [← decide_eq_decide.2 (hother.text_eq_iff hwords)]
  exact hresult

end Record

/-- Whole records have one text just when they are equal. The text is compact JSON with sorted
members, from which the record is read back, and does not show in which order members were given. A
comparison for equality with it holds of that record and of no other. -/
theorem wholeRecords_exact :
    (∀ left right : Record, left.HasWords → right.HasWords →
      ((Answer.record left).resolve none = (Answer.record right).resolve none ↔ left = right)) ∧
    (∀ record : Record, record.HasWords →
      record.IsWrittenAs ((Answer.record record).resolve none)) ∧
    (∀ members, (Json.object members).isWhole = true → (Json.object members).HasDistinctNames →
      ∃ record, Answer.ofJson (.object members) = .ok (.record record) ∧
        ∀ other, (Json.object members).Reordered other →
          Answer.ofJson other = .ok (.record record)) ∧
    ∀ (record other : Record) (key : String) (responses : Responses) (response : Response)
      (nullDate : Date), record.HasWords → other.HasWords → key ≠ "" →
      responses.get? key = some response → response.answer = .record other →
      ({ operator := .eq, key := some key, operand := some ((Answer.record record).resolve none) } :
        Comparison).evaluate nullDate responses = .ok (decide (other = record)) := by
  refine ⟨?_, ?_, ?_, ?_⟩
  · intro left right hleft hright
    exact hleft.text_eq_iff hright
  · intro record hwords
    exact hwords.isWrittenAs
  · intro members hwhole hdistinct
    obtain ⟨record, hrecord⟩ := Answer.exists_record hwhole
    refine ⟨record, hrecord, ?_⟩
    intro other hreordered
    exact Answer.ofJson_of_reordered hwhole hdistinct hreordered hrecord
  · intro record other key responses response nullDate hwords hother hkey hresponse hanswer
    exact hwords.evaluate_eq hother hkey hresponse hanswer nullDate

/-- The largest and the least number of 64 bits, and characters that a string escapes. -/
theorem wholeRecords_exact_nested :
    let least : String × Json := ("a", .integer (-9223372036854775808))
    let most : String × Json := ("z", .integer 18446744073709551615)
    let escaped : String × Json := ("é", .string "\"\\\n\x01é")
    let nested (members : List (String × Json)) : String × Json :=
      ("b", .array [.object members, .null])
    let given : Json := .object [nested [escaped, most], least]
    let record : Record := ⟨[least, nested [most, escaped]],
      by decide, trivial, ⟨⟨by decide, trivial, trivial, trivial⟩, trivial, trivial⟩, trivial⟩
    let near : Record := ⟨[least, nested [most]],
      by decide, trivial, ⟨⟨by decide, trivial, trivial⟩, trivial, trivial⟩, trivial⟩
    let text := "\x7b\"a\":-9223372036854775808,\"b\":[\x7b\"z\":18446744073709551615," ++
      "\"é\":\"\\\"\\\\\\n\\u0001é\"\x7d,null]\x7d"
    let comparison : Comparison := { operator := .eq, key := some "q", operand := some text }
    let answered (fields : Record) : Responses := .ofList [("q", { answer := .record fields })]
    record.HasWords ∧ near.HasWords ∧ record.IsWrittenAs text ∧
      (Answer.record near).resolve none ≠ text ∧
      Answer.ofJson given = .ok (.record record) ∧
      comparison.evaluate .epoch (answered record) = .ok true ∧
      comparison.evaluate .epoch (answered near) = .ok false := by
  intro least most escaped nested given record near text comparison answered
  obtain ⟨htold, hwritten, hgiven, hholds⟩ := wholeRecords_exact
  have hwords : record.HasWords := by decide +kernel +zetaReduce
  have hnear : near.HasWords := by decide +kernel +zetaReduce
  have htext : (Answer.record record).resolve none = text := by decide +kernel +zetaReduce
  have hne : near ≠ record := by decide +kernel +zetaReduce
  have hreordered : given.Reordered record.toJson := by
    have hinner : Json.Altered .plain given (.object [nested [most, escaped], least]) :=
      @Json.Altered.member .plain [] [least] "b" _ _
        (@Json.Altered.item .plain [] [.null] _ _ (.reorder (.swap most escaped [])))
    exact .head hinner (.single (.reorder (.swap _ _ [])))
  have hrecord : Answer.ofJson given = .ok (.record record) := by
    obtain ⟨found, hfound, hother⟩ := hgiven [nested [escaped, most], least]
      (by decide +kernel +zetaReduce) (by decide +kernel +zetaReduce)
    exact hfound.trans ((hother _ hreordered).symm.trans
      (Answer.record record).recoversAsWritten.decode_eq)
  refine ⟨hwords, hnear, ?_, ?_, hrecord, ?_, ?_⟩
  · rw [← htext]
    exact hwritten record hwords
  · rw [← htext]
    exact fun heq => hne ((htold near record hnear hwords).1 heq)
  · have hresult :=
      hholds record record "q" (answered record) _ .epoch hwords hwords (by decide) rfl rfl
    rw [htext] at hresult
    exact hresult.trans (congrArg _ (decide_eq_true rfl))
  · have hresult :=
      hholds record near "q" (answered near) _ .epoch hwords hnear (by decide) rfl rfl
    rw [htext] at hresult
    exact hresult.trans (congrArg _ (decide_eq_false hne))

end BranchingInterview
