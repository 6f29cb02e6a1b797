import BranchingInterview.Json.Basic

/-!
The canonical form of a tree without flaws has the members of every object in ascending order of
their names, each name once. Trees that differ only in the order of members have one canonical
form.
-/

namespace BranchingInterview.Json

mutual

/-- No flaws, and the names of every object's members ascend. -/
def IsCanonical : Json → Prop
  | array items => AreCanonical items
  | object members => Ascending members ∧ HaveCanonicalValues members
  | flaw _ => False
  | _ => True

def AreCanonical : List Json → Prop
  | [] => True
  | item :: rest => item.IsCanonical ∧ AreCanonical rest

def HaveCanonicalValues : List (String × Json) → Prop
  | [] => True
  | (_, value) :: rest => value.IsCanonical ∧ HaveCanonicalValues rest

end

mutual

/-- The canonical form of a tree without flaws. Of several members of one name the last is kept. -/
def canonical? : Json → Option Json
  | array items => (canonicalItems? items).map array
  | object members => (canonicalMembers? members).map fun members => object (sortEntries members)
  | flaw _ => none
  | value => some value

def canonicalItems? : List Json → Option (List Json)
  | [] => some []
  | item :: rest => do return (← item.canonical?) :: (← canonicalItems? rest)

def canonicalMembers? : List (String × Json) → Option (List (String × Json))
  | [] => some []
  | (name, value) :: rest => do return (name, ← value.canonical?) :: (← canonicalMembers? rest)

end

@[simp]
theorem canonical?_bool (value : Bool) : (bool value).canonical? = some (bool value) := rfl

@[simp]
theorem canonical?_integer (value : Int) : (integer value).canonical? = some (integer value) := rfl

@[simp]
theorem canonical?_string (value : String) : (string value).canonical? = some (string value) := rfl

@[simp]
theorem canonical?_object (members : List (String × Json)) :
    (object members).canonical? =
      (canonicalMembers? members).map fun members => object (sortEntries members) := by
  rw [canonical?]

@[simp]
theorem canonicalMembers?_nil : canonicalMembers? [] = some [] := rfl

@[simp]
theorem canonicalMembers?_cons (name : String) (value : Json) (rest : List (String × Json)) :
    canonicalMembers? ((name, value) :: rest) =
      value.canonical?.bind fun value =>
        (canonicalMembers? rest).bind fun rest => some ((name, value) :: rest) := rfl

theorem canonical?_array {items results : List Json}
    (hitems : canonicalItems? items = some results) :
    (array items).canonical? = some (array results) := by
  rw [canonical?, hitems, Option.map_some]

theorem canonicalMembers?_append {first rest firstResult restResult : List (String × Json)}
    (hfirst : canonicalMembers? first = some firstResult)
    (hrest : canonicalMembers? rest = some restResult) :
    canonicalMembers? (first ++ rest) = some (firstResult ++ restResult) := by
  induction first generalizing firstResult with
  | nil =>
      cases hfirst
      exact hrest
  | cons member first ih =>
      obtain ⟨name, value⟩ := member
      rw [canonicalMembers?_cons] at hfirst
      obtain ⟨result, hvalue, hfirst⟩ := Option.bind_eq_some_iff.1 hfirst
      obtain ⟨results, hresults, hfirst⟩ := Option.bind_eq_some_iff.1 hfirst
      cases hfirst
      rw [List.cons_append, canonicalMembers?_cons, hvalue, ih hresults]
      rfl

theorem areCanonical_iff {items : List Json} :
    AreCanonical items ↔ ∀ item ∈ items, item.IsCanonical := by
  induction items with
  | nil => simp [AreCanonical]
  | cons item rest ih => simp [AreCanonical, ih]

theorem haveCanonicalValues_iff {members : List (String × Json)} :
    HaveCanonicalValues members ↔ ∀ member ∈ members, member.2.IsCanonical := by
  induction members with
  | nil => simp [HaveCanonicalValues]
  | cons member rest ih => simp [HaveCanonicalValues, ih]

mutual

theorem isCanonical_of_canonical? : ∀ {json result : Json},
    json.canonical? = some result → result.IsCanonical
  | .null, _, hresult => by cases hresult; trivial
  | .bool _, _, hresult => by cases hresult; trivial
  | .number _, _, hresult => by cases hresult; trivial
  | .string _, _, hresult => by cases hresult; trivial
  | .array items, result, hresult => by
      obtain ⟨sorted, hsorted, rfl⟩ := Option.map_eq_some_iff.1 hresult
      exact areCanonical_of_canonicalItems? hsorted
  | .object members, result, hresult => by
      obtain ⟨values, hvalues, rfl⟩ := Option.map_eq_some_iff.1 hresult
      refine ⟨ascending_sortEntries values, haveCanonicalValues_iff.2 fun member hmember => ?_⟩
      exact haveCanonicalValues_iff.1 (haveCanonicalValues_of_canonicalMembers? hvalues) member
        (mem_of_mem_sortEntries hmember)

theorem areCanonical_of_canonicalItems? : ∀ {items result : List Json},
    canonicalItems? items = some result → AreCanonical result
  | [], _, hresult => by cases hresult; trivial
  | item :: rest, result, hresult => by
      obtain ⟨value, hvalue, hresult⟩ := Option.bind_eq_some_iff.1 hresult
      obtain ⟨values, hvalues, hresult⟩ := Option.bind_eq_some_iff.1 hresult
      cases hresult
      exact ⟨isCanonical_of_canonical? hvalue, areCanonical_of_canonicalItems? hvalues⟩

theorem haveCanonicalValues_of_canonicalMembers? : ∀ {members result : List (String × Json)},
    canonicalMembers? members = some result → HaveCanonicalValues result
  | [], _, hresult => by cases hresult; trivial
  | (_, value) :: rest, result, hresult => by
      obtain ⟨value, hvalue, hresult⟩ := Option.bind_eq_some_iff.1 hresult
      obtain ⟨values, hvalues, hresult⟩ := Option.bind_eq_some_iff.1 hresult
      cases hresult
      exact ⟨isCanonical_of_canonical? hvalue, haveCanonicalValues_of_canonicalMembers? hvalues⟩

end

mutual

theorem canonical?_of_isCanonical : ∀ {json : Json},
    json.IsCanonical → json.canonical? = some json
  | .null, _ | .bool _, _ | .number _, _ | .string _, _ => rfl
  | .array items, hcanonical => by
      rw [canonical?, canonicalItems?_of_areCanonical hcanonical]
      rfl
  | .object members, hcanonical => by
      rw [canonical?, canonicalMembers?_of_haveCanonicalValues hcanonical.2, Option.map_some,
        sortEntries_of_ascending hcanonical.1]

theorem canonicalItems?_of_areCanonical : ∀ {items : List Json},
    AreCanonical items → canonicalItems? items = some items
  | [], _ => rfl
  | item :: rest, hcanonical => by
      rw [canonicalItems?, canonical?_of_isCanonical hcanonical.1,
        canonicalItems?_of_areCanonical hcanonical.2]
      rfl

theorem canonicalMembers?_of_haveCanonicalValues : ∀ {members : List (String × Json)},
    HaveCanonicalValues members → canonicalMembers? members = some members
  | [], _ => rfl
  | (_, value) :: rest, hcanonical => by
      rw [canonicalMembers?, canonical?_of_isCanonical hcanonical.1,
        canonicalMembers?_of_haveCanonicalValues hcanonical.2]
      rfl

end

mutual

theorem isWhole_of_isCanonical : ∀ {json : Json}, json.IsCanonical → json.isWhole = true
  | .null, _ | .bool _, _ | .number _, _ | .string _, _ => rfl
  | .array _, hcanonical => areWhole_of_areCanonical hcanonical
  | .object _, hcanonical => haveWholeValues_of_haveCanonicalValues hcanonical.2

theorem areWhole_of_areCanonical : ∀ {items : List Json},
    AreCanonical items → areWhole items = true
  | [], _ => rfl
  | _ :: _, hcanonical => by
      rw [areWhole, isWhole_of_isCanonical hcanonical.1, areWhole_of_areCanonical hcanonical.2]
      rfl

theorem haveWholeValues_of_haveCanonicalValues : ∀ {members : List (String × Json)},
    HaveCanonicalValues members → haveWholeValues members = true
  | [], _ => rfl
  | (_, _) :: _, hcanonical => by
      rw [haveWholeValues, isWhole_of_isCanonical hcanonical.1,
        haveWholeValues_of_haveCanonicalValues hcanonical.2]
      rfl

end

end BranchingInterview.Json
