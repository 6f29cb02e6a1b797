import BranchingInterview.Proofs.Json.Scalars

/-!
A tree is read back from its text if it is whole, its numbers are whole numbers of 64 bits, and it
is not nested too deep.
-/

namespace BranchingInterview.Json

mutual

/-- All numbers in a tree. -/
def numbers : Json → List Number
  | number value => [value]
  | array items => numbersOfItems items
  | object members => numbersOfMembers members
  | _ => []

def numbersOfItems : List Json → List Number
  | [] => []
  | item :: rest => item.numbers ++ numbersOfItems rest

def numbersOfMembers : List (String × Json) → List Number
  | [] => []
  | (_, value) :: rest => value.numbers ++ numbersOfMembers rest

end

/-- A tree that comes back from its text where `depth` more containers may be opened. -/
structure Readable (json : Json) (depth : Nat) : Prop where
  whole : json.isWhole = true
  words : ∀ value ∈ json.numbers, value.IsWord
  depth_le : json.depth ≤ depth

section

variable {items : List Json} {members : List (String × Json)} {depth : Nat}

theorem areWhole_iff : areWhole items = true ↔ ∀ item ∈ items, item.isWhole = true := by
  induction items with
  | nil => simp [areWhole]
  | cons item rest ih => simp [areWhole, ih]

theorem haveWholeValues_iff :
    haveWholeValues members = true ↔ ∀ member ∈ members, member.2.isWhole = true := by
  induction members with
  | nil => simp [haveWholeValues]
  | cons member rest ih => simp [haveWholeValues, ih]

theorem mem_numbersOfItems {value : Number} :
    value ∈ numbersOfItems items ↔ ∃ item ∈ items, value ∈ item.numbers := by
  induction items with
  | nil => simp [numbersOfItems]
  | cons item rest ih => simp [numbersOfItems, ih]

theorem mem_numbersOfMembers {value : Number} :
    value ∈ numbersOfMembers members ↔ ∃ member ∈ members, value ∈ member.2.numbers := by
  induction members with
  | nil => simp [numbersOfMembers]
  | cons member rest ih => simp [numbersOfMembers, ih]

theorem depthOfItems_le : depthOfItems items ≤ depth ↔ ∀ item ∈ items, item.depth ≤ depth := by
  induction items with
  | nil => simp [depthOfItems]
  | cons item rest ih => rw [depthOfItems, Nat.max_le, ih, List.forall_mem_cons]

theorem depthOfMembers_le :
    depthOfMembers members ≤ depth ↔ ∀ member ∈ members, member.2.depth ≤ depth := by
  induction members with
  | nil => simp [depthOfMembers]
  | cons member rest ih => rw [depthOfMembers, Nat.max_le, ih, List.forall_mem_cons]

theorem readable_array_iff :
    (array items).Readable (depth + 1) ↔ ∀ item ∈ items, item.Readable depth := by
  constructor
  · intro hreadable item hitem
    exact ⟨areWhole_iff.1 hreadable.whole item hitem,
      fun value hvalue => hreadable.words value (mem_numbersOfItems.2 ⟨item, hitem, hvalue⟩),
      depthOfItems_le.1 (Nat.le_of_succ_le_succ hreadable.depth_le) item hitem⟩
  · intro hitems
    have hdepth : depthOfItems items ≤ depth :=
      depthOfItems_le.2 fun item hitem => (hitems item hitem).depth_le
    refine ⟨areWhole_iff.2 fun item hitem => (hitems item hitem).whole, ?_,
      Nat.succ_le_succ hdepth⟩
    intro value hvalue
    obtain ⟨item, hitem, hvalue⟩ := mem_numbersOfItems.1 hvalue
    exact (hitems item hitem).words value hvalue

theorem readable_object_iff :
    (object members).Readable (depth + 1) ↔ ∀ member ∈ members, member.2.Readable depth := by
  constructor
  · intro hreadable member hmember
    exact ⟨haveWholeValues_iff.1 hreadable.whole member hmember,
      fun value hvalue => hreadable.words value (mem_numbersOfMembers.2 ⟨member, hmember, hvalue⟩),
      depthOfMembers_le.1 (Nat.le_of_succ_le_succ hreadable.depth_le) member hmember⟩
  · intro hmembers
    have hdepth : depthOfMembers members ≤ depth :=
      depthOfMembers_le.2 fun member hmember => (hmembers member hmember).depth_le
    refine ⟨haveWholeValues_iff.2 fun member hmember => (hmembers member hmember).whole, ?_,
      Nat.succ_le_succ hdepth⟩
    intro value hvalue
    obtain ⟨member, hmember, hvalue⟩ := mem_numbersOfMembers.1 hvalue
    exact (hmembers member hmember).words value hvalue

end

/-! The text of a container between its brackets. -/

def printItems : List Json → List Char
  | [] => []
  | item :: rest => item.print ++ printMore rest

def printMembers : List (String × Json) → List Char
  | [] => []
  | (name, value) :: rest => printString name ++ ':' :: value.print ++ printMoreMembers rest

theorem print_array (items : List Json) :
    (array items).print = '[' :: printItems items ++ [']'] := by
  cases items <;> rfl

theorem print_object (members : List (String × Json)) :
    (object members).print = '\x7b' :: printMembers members ++ ['\x7d'] := by
  rcases members with _ | ⟨⟨name, value⟩, rest⟩ <;> simp [print, printMembers]

/-- What a number may start with. -/
def StartsNumber (c : Char) : Prop := c = '-' ∨ c.isDigit = true

theorem exists_text_eq_cons (value : Int) :
    ∃ c text, (Number.integer value).text.toList = c :: text ∧ StartsNumber c := by
  rw [toList_text_integer]
  by_cases hnegative : value < 0
  · exact ⟨'-', _, if_pos hnegative, Or.inl rfl⟩
  · rw [if_neg hnegative]
    cases hdigits : Nat.toDigits 10 value.natAbs with
    | nil => exact absurd hdigits Nat.toDigits_ne_nil
    | cons c digits =>
        exact ⟨c, digits, rfl, Or.inr (isDigit_of_mem_toDigits (hdigits ▸ List.mem_cons_self))⟩

theorem StartsNumber.ne {c : Char} (hc : StartsNumber c) (other : Char) (hminus : other ≠ '-')
    (hdigit : other.isDigit = false) : c ≠ other := by
  rintro rfl
  rcases hc with hc | hc
  · exact hminus hc
  · rw [hdigit] at hc
    cases hc

theorem StartsNumber.isSpace_eq_false {c : Char} (hc : StartsNumber c) : isSpace c = false := by
  simp [isSpace, hc.ne ' ' (by decide) rfl, hc.ne '\t' (by decide) rfl,
    hc.ne '\n' (by decide) rfl, hc.ne '\r' (by decide) rfl]

theorem skipSpace_cons {c : Char} (hc : isSpace c = false) (rest : List Char) :
    skipSpace (c :: rest) = c :: rest :=
  List.dropWhile_cons_of_neg (by rw [hc]; decide)

/-- A value starts with neither a blank nor the end of an array. -/
theorem Readable.exists_print_eq_cons {json : Json} {depth : Nat} (hjson : json.Readable depth) :
    ∃ c text, json.print = c :: text ∧ isSpace c = false ∧ c ≠ ']' := by
  cases json with
  | null => exact ⟨'n', _, rfl, rfl, by decide⟩
  | bool value => cases value <;> exact ⟨_, _, rfl, rfl, by decide⟩
  | string value => exact ⟨'"', _, rfl, rfl, by decide⟩
  | array items => exact ⟨'[', _, print_array items, rfl, by decide⟩
  | object members => exact ⟨'\x7b', _, print_object members, rfl, by decide⟩
  | flaw reason => cases hjson.whole
  | number value =>
      cases value with
      | double value => exact (hjson.words _ List.mem_cons_self).elim
      | integer value =>
          obtain ⟨c, text, htext, hc⟩ := exists_text_eq_cons value
          exact ⟨c, text, htext, hc.isSpace_eq_false, hc.ne _ (by decide) rfl⟩

theorem readValue_number {value : Int} (hword : (Number.integer value).IsWord) (fuel depth : Nat)
    {rest : List Char} (hrest : EndsValue rest) :
    readValue (fuel + 1) depth ((number (.integer value)).print ++ rest) =
      ⟨number (.integer value), some rest⟩ := by
  have hread := readNumber_text hword hrest
  obtain ⟨c, text, htext, hc⟩ := exists_text_eq_cons value
  rw [htext] at hread
  rw [print, htext, List.cons_append, readValue, skipSpace_cons hc.isSpace_eq_false]
  split
  iterate 6
    next heq => exact absurd (List.cons.inj heq).1 (hc.ne _ (by decide) rfl)
  next => exact hread

theorem Readable.exists_fuel {json : Json} {depth fuel : Nat} (hjson : json.Readable depth)
    (hfuel : 2 * json.print.length ≤ fuel) : ∃ left, fuel = left + 1 := by
  obtain ⟨c, text, htext, -⟩ := hjson.exists_print_eq_cons
  rw [htext, List.length_cons] at hfuel
  exact ⟨fuel - 1, by omega⟩

theorem Readable.exists_depth {json : Json} {depth : Nat} (hjson : json.Readable depth)
    (hcontainer : 0 < json.depth) : ∃ inner, depth = inner + 1 := by
  have hpos : 0 < depth := Nat.lt_of_lt_of_le hcontainer hjson.depth_le
  exact Nat.exists_eq_add_one_of_ne_zero (Nat.ne_zero_of_lt hpos)

theorem readValue_string (name : String) (rest : List Char) (fuel depth : Nat) :
    readValue (fuel + 1) depth (printString name ++ rest) = ⟨string name, some rest⟩ := by
  have hread := readString_print name rest
  rw [printString, List.append_assoc]
  exact hread

theorem endsValue_cons {c : Char} (hc : c = ',' ∨ c = ']' ∨ c = '\x7d') (rest : List Char) :
    EndsValue (c :: rest) := by
  rintro _ ⟨⟩
  exact hc

theorem readValue_array {item : Json} {more : List Json} {fuel depth : Nat} {rest : List Char}
    (hitem : item.Readable depth)
    (hread : readItems fuel depth (printItems (item :: more) ++ ']' :: rest) =
      ⟨item :: more, some rest⟩) :
    readValue (fuel + 1) (depth + 1) ('[' :: printItems (item :: more) ++ ']' :: rest) =
      ⟨array (item :: more), some rest⟩ := by
  obtain ⟨c, text, htext, hspace, hend⟩ := hitem.exists_print_eq_cons
  rw [printItems, htext, List.cons_append, List.cons_append] at hread
  have hskip : skipSpace ('[' :: printItems (item :: more) ++ ']' :: rest) =
      '[' :: c :: (text ++ printMore more ++ ']' :: rest) := by
    rw [printItems, htext]
    rfl
  rw [readValue, hskip]
  simp only [skipSpace_cons hspace]
  split
  next heq => exact absurd (List.cons.inj heq).1 hend
  next => exact congrArg (Reading.map · array) hread

theorem printMore_cons (item : Json) (rest : List Json) :
    printMore (item :: rest) = ',' :: printItems (item :: rest) := rfl

theorem printMoreMembers_cons (member : String × Json) (rest : List (String × Json)) :
    printMoreMembers (member :: rest) = ',' :: printMembers (member :: rest) := by
  simp [printMoreMembers, printMembers]

/-- A member is read back, and reading goes on as the text after it says. -/
theorem readMembers_member (name : String) {value : Json} {fuel depth : Nat} {tail : List Char}
    (hvalue : readValue fuel depth (value.print ++ tail) = ⟨value, some tail⟩) :
    readMembers (fuel + 1) depth (printString name ++ ':' :: (value.print ++ tail)) =
      match skipSpace tail with
      | ',' :: rest => (readMembers fuel depth rest).map ((name, value) :: ·)
      | '\x7d' :: rest => ⟨[(name, value)], some rest⟩
      | _ => ⟨[(name, value), unnamed none], none⟩ := by
  obtain ⟨pieces, hscan, hassemble⟩ := exists_pieces name.toList (':' :: (value.print ++ tail))
  have hquote : skipSpace (printString name ++ ':' :: (value.print ++ tail)) =
      '"' :: (name.toList.flatMap escapeChar ++ '"' :: ':' :: (value.print ++ tail)) := by
    rw [printString, List.append_assoc]
    rfl
  have hcolon : skipSpace (':' :: (value.print ++ tail)) = ':' :: (value.print ++ tail) :=
    skipSpace_cons rfl _
  simp only [readMembers, hquote, hscan, hcolon, hvalue, nameMember, hassemble,
    String.ofList_toList, Option.map_some]
  generalize skipSpace tail = found
  split
  next heq => cases heq
  next heq => cases heq; rfl
  next heq => cases heq; rfl
  next hcomma hbrace heq =>
    cases heq
    split
    next rest => exact absurd rfl (hcomma rest)
    next rest => exact absurd rfl (hbrace rest)
    next => rfl

mutual

/-- A value is read back, and what follows it is left. Reading into a container takes two units of
fuel, which its two brackets pay for, as the comma before each further item does for the item. -/
theorem readValue_print : ∀ {json : Json} {fuel depth : Nat} {rest : List Char},
    json.Readable depth → 2 * json.print.length ≤ fuel → EndsValue rest →
    readValue fuel depth (json.print ++ rest) = ⟨json, some rest⟩
  | .null, _, _, _, hjson, hfuel, _ => by
      obtain ⟨_, rfl⟩ := hjson.exists_fuel hfuel
      rfl
  | .bool true, _, _, _, hjson, hfuel, _ | .bool false, _, _, _, hjson, hfuel, _ => by
      obtain ⟨_, rfl⟩ := hjson.exists_fuel hfuel
      rfl
  | .number (.double _), _, _, _, hjson, _, _ => (hjson.words _ List.mem_cons_self).elim
  | .number (.integer value), _, depth, _, hjson, hfuel, hrest => by
      obtain ⟨fuel, rfl⟩ := hjson.exists_fuel hfuel
      exact readValue_number (hjson.words _ List.mem_cons_self) fuel depth hrest
  | .string value, _, depth, rest, hjson, hfuel, _ => by
      obtain ⟨fuel, rfl⟩ := hjson.exists_fuel hfuel
      exact readValue_string value rest fuel depth
  | .array [], _, _, _, hjson, hfuel, _ => by
      obtain ⟨_, rfl⟩ := hjson.exists_fuel hfuel
      obtain ⟨_, rfl⟩ := hjson.exists_depth (by decide)
      rfl
  | .array (item :: more), _, _, rest, hjson, hfuel, _ => by
      obtain ⟨fuel, rfl⟩ := hjson.exists_fuel hfuel
      obtain ⟨depth, rfl⟩ := hjson.exists_depth (Nat.succ_pos _)
      have hitems := readable_array_iff.1 hjson
      rw [print_array, List.length_append, List.length_cons, List.length_singleton] at hfuel
      have hread := readItems_print hitems (List.cons_ne_nil item more)
        (by omega : 2 * (printItems (item :: more)).length + 1 ≤ fuel) rest
      rw [print_array, List.append_assoc]
      exact readValue_array (hitems item List.mem_cons_self) hread
  | .object [], _, _, _, hjson, hfuel, _ => by
      obtain ⟨_, rfl⟩ := hjson.exists_fuel hfuel
      obtain ⟨_, rfl⟩ := hjson.exists_depth (by decide)
      rfl
  | .object (member :: more), _, _, rest, hjson, hfuel, _ => by
      obtain ⟨fuel, rfl⟩ := hjson.exists_fuel hfuel
      obtain ⟨depth, rfl⟩ := hjson.exists_depth (Nat.succ_pos _)
      rw [print_object, List.length_append, List.length_cons, List.length_singleton] at hfuel
      have hread := readMembers_print (readable_object_iff.1 hjson) (List.cons_ne_nil member more)
        (by omega : 2 * (printMembers (member :: more)).length + 1 ≤ fuel) rest
      rw [print_object, List.append_assoc]
      exact congrArg (Reading.map · object) hread
  | .flaw _, _, _, _, hjson, _, _ => by cases hjson.whole

theorem readItems_print : ∀ {items : List Json} {fuel depth : Nat},
    (∀ item ∈ items, item.Readable depth) → items ≠ [] →
    2 * (printItems items).length + 1 ≤ fuel → ∀ rest,
    readItems fuel depth (printItems items ++ ']' :: rest) = ⟨items, some rest⟩
  | [], _, _, _, hsome, _, _ => absurd rfl hsome
  | [item], fuel, depth, hitems, _, hfuel, rest => by
      obtain ⟨fuel, rfl⟩ : ∃ left, fuel = left + 1 := ⟨fuel - 1, by omega⟩
      have hitem := readValue_print (hitems item List.mem_cons_self)
        (by simpa [printItems, printMore] using hfuel) (endsValue_cons (Or.inr (Or.inl rfl)) rest)
      simp only [printItems, printMore, List.append_nil, readItems, hitem]
      rfl
  | item :: next :: more, fuel, depth, hitems, _, hfuel, rest => by
      obtain ⟨fuel, rfl⟩ : ∃ left, fuel = left + 1 := ⟨fuel - 1, by omega⟩
      rw [printItems, printMore_cons, List.length_append, List.length_cons] at hfuel
      have hitem := readValue_print (hitems item List.mem_cons_self)
        (by omega : 2 * item.print.length ≤ fuel)
        (endsValue_cons (Or.inl rfl) (printItems (next :: more) ++ ']' :: rest))
      have hmore := readItems_print (List.forall_mem_cons.1 hitems).2 (List.cons_ne_nil next more)
        (by omega : 2 * (printItems (next :: more)).length + 1 ≤ fuel) rest
      rw [printItems, printMore_cons, List.append_assoc, List.cons_append]
      simp only [readItems, hitem]
      exact congrArg (Reading.map · (item :: ·)) hmore

theorem readMembers_print : ∀ {members : List (String × Json)} {fuel depth : Nat},
    (∀ member ∈ members, member.2.Readable depth) → members ≠ [] →
    2 * (printMembers members).length + 1 ≤ fuel → ∀ rest,
    readMembers fuel depth (printMembers members ++ '\x7d' :: rest) = ⟨members, some rest⟩
  | [], _, _, _, hsome, _, _ => absurd rfl hsome
  | [(name, value)], fuel, depth, hmembers, _, hfuel, rest => by
      obtain ⟨fuel, rfl⟩ : ∃ left, fuel = left + 1 := ⟨fuel - 1, by omega⟩
      rw [printMembers, printMoreMembers, List.append_nil, List.length_append,
        List.length_cons] at hfuel
      have hvalue := readValue_print (hmembers _ List.mem_cons_self)
        (by omega : 2 * value.print.length ≤ fuel) (endsValue_cons (Or.inr (Or.inr rfl)) rest)
      rw [printMembers, printMoreMembers, List.append_nil, List.append_assoc, List.cons_append,
        readMembers_member name hvalue]
      rfl
  | (name, value) :: next :: more, fuel, depth, hmembers, _, hfuel, rest => by
      obtain ⟨fuel, rfl⟩ : ∃ left, fuel = left + 1 := ⟨fuel - 1, by omega⟩
      rw [printMembers, printMoreMembers_cons, List.length_append, List.length_cons,
        List.length_append, List.length_cons] at hfuel
      have hvalue := readValue_print (hmembers _ List.mem_cons_self)
        (by omega : 2 * value.print.length ≤ fuel)
        (endsValue_cons (Or.inl rfl) (printMembers (next :: more) ++ '\x7d' :: rest))
      have hmore := readMembers_print (List.forall_mem_cons.1 hmembers).2
        (List.cons_ne_nil next more)
        (by omega : 2 * (printMembers (next :: more)).length + 1 ≤ fuel) rest
      rw [printMembers, printMoreMembers_cons]
      simp only [List.append_assoc, List.cons_append]
      rw [readMembers_member name hvalue]
      exact congrArg (Reading.map · ((name, value) :: ·)) hmore

end

/-- Reads a text whose containers may be nested up to `limit` deep. -/
def Document.readWithin (limit : Nat) (text : String) : Document :=
  let chars := text.toList
  let root := readValue (2 * chars.length + 2) limit chars
  ⟨root.found, (root.rest.map skipSpace).any List.isEmpty⟩

/-- A text is read whole, and the tree it was printed from comes back. -/
theorem Document.readWithin_text {json : Json} {limit : Nat} (hjson : json.Readable limit) :
    readWithin limit json.text = ⟨json, true⟩ := by
  have hend : EndsValue [] := by rintro _ ⟨⟩
  have hread := readValue_print hjson (Nat.le_add_right (2 * json.print.length) 2) hend
  rw [List.append_nil] at hread
  simp only [readWithin, text, String.toList_ofList, hread]
  rfl

theorem Readable.mono {json : Json} {depth limit : Nat} (hjson : json.Readable depth)
    (hle : depth ≤ limit) : json.Readable limit :=
  ⟨hjson.whole, hjson.words, Nat.le_trans hjson.depth_le hle⟩

/-- Trees that are read back are told apart by their texts. -/
theorem Readable.eq_of_text_eq {left right : Json} {depth limit : Nat}
    (hleft : left.Readable depth) (hright : right.Readable limit)
    (htext : left.text = right.text) : left = right := by
  have hfirst := Document.readWithin_text (hleft.mono (Nat.le_max_left depth limit))
  have hsecond := Document.readWithin_text (hright.mono (Nat.le_max_right depth limit))
  rw [htext, hsecond] at hfirst
  exact (congrArg Document.root hfirst).symm

theorem Document.read_text {json : Json} (hjson : json.Readable maxDepth) :
    Document.read json.text = ⟨json, true⟩ :=
  readWithin_text hjson

/-! The canonical form of a tree is read back where the tree is. -/

mutual

theorem Readable.canonical : ∀ {json result : Json} {depth : Nat}, json.Readable depth →
    json.canonical? = some result → result.Readable depth
  | .null, _, _, hjson, hresult | .bool _, _, _, hjson, hresult
  | .number _, _, _, hjson, hresult | .string _, _, _, hjson, hresult => by
      cases hresult
      exact hjson
  | .array items, result, _, hjson, hresult => by
      obtain ⟨depth, rfl⟩ := hjson.exists_depth (Nat.succ_pos _)
      obtain ⟨results, hresults, rfl⟩ := Option.map_eq_some_iff.1 hresult
      exact readable_array_iff.2 (readable_canonicalItems (readable_array_iff.1 hjson) hresults)
  | .object members, result, _, hjson, hresult => by
      obtain ⟨depth, rfl⟩ := hjson.exists_depth (Nat.succ_pos _)
      obtain ⟨values, hvalues, rfl⟩ := Option.map_eq_some_iff.1 hresult
      refine readable_object_iff.2 fun member hmember => ?_
      exact readable_canonicalMembers (readable_object_iff.1 hjson) hvalues member
        (mem_of_mem_sortEntries hmember)

theorem readable_canonicalItems : ∀ {items results : List Json} {depth : Nat},
    (∀ item ∈ items, item.Readable depth) → canonicalItems? items = some results →
    ∀ result ∈ results, result.Readable depth
  | [], _, _, _, hresults => by
      cases hresults
      exact nofun
  | item :: rest, results, _, hitems, hresults => by
      obtain ⟨value, hvalue, hresults⟩ := Option.bind_eq_some_iff.1 hresults
      obtain ⟨values, hvalues, hresults⟩ := Option.bind_eq_some_iff.1 hresults
      cases hresults
      obtain ⟨hitem, hrest⟩ := List.forall_mem_cons.1 hitems
      exact List.forall_mem_cons.2 ⟨hitem.canonical hvalue, readable_canonicalItems hrest hvalues⟩

theorem readable_canonicalMembers : ∀ {members results : List (String × Json)} {depth : Nat},
    (∀ member ∈ members, member.2.Readable depth) → canonicalMembers? members = some results →
    ∀ result ∈ results, result.2.Readable depth
  | [], _, _, _, hresults => by
      cases hresults
      exact nofun
  | (_, value) :: rest, results, _, hmembers, hresults => by
      obtain ⟨value, hvalue, hresults⟩ := Option.bind_eq_some_iff.1 hresults
      obtain ⟨values, hvalues, hresults⟩ := Option.bind_eq_some_iff.1 hresults
      cases hresults
      obtain ⟨hmember, hrest⟩ := List.forall_mem_cons.1 hmembers
      exact List.forall_mem_cons.2
        ⟨Readable.canonical hmember hvalue, readable_canonicalMembers hrest hvalues⟩

end

end BranchingInterview.Json
