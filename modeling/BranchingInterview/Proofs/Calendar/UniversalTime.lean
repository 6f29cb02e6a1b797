import BranchingInterview.Proofs.Calendar.Offset

/-!
Texts without an offset of their own: `null`, dates, local dates and times, and what ends in the
letter for universal time. All of them are read as universal time.
-/

namespace BranchingInterview

open Calendar Text

namespace Calendar

variable {parts next : Parts} {chars rest : List Char}

/-! What an item leaves of a text is the end of it. -/

theorem StartsWithDigits.suffix {limit : Nat} {digits : List Char}
    (hstarts : StartsWithDigits limit chars digits rest) : rest <:+ chars :=
  ⟨digits, hstarts.split.symm⟩

theorem suffix_of_readDigits {limit value : Nat}
    (hread : readDigits limit chars = some (value, rest)) : rest <:+ chars := by
  obtain ⟨digits, hstarts, -⟩ := readDigits_eq_some_iff.1 hread
  exact hstarts.suffix

theorem suffix_of_readNumber {field : Field} {value : Int}
    (hread : readNumber field chars = some (value, rest)) : rest <:+ chars := by
  cases field with
  | year =>
      obtain ⟨sign, factor, after, limit, number, rfl, -, hdigits, -⟩ :=
        readYear_eq_some_iff.1 hread
      exact (suffix_of_readDigits hdigits).trans (List.suffix_append sign after)
  | _ =>
      obtain ⟨⟨number, left⟩, hdigits, hpair⟩ := Option.map_eq_some_iff.1 hread
      cases hpair
      exact suffix_of_readDigits hdigits

theorem suffix_of_readFraction {nano : Nat} (hread : readFraction chars = some (nano, rest)) :
    rest <:+ chars := by
  rw [readFraction.eq_def] at hread
  split at hread
  · next after =>
      obtain ⟨digits, left, hstarts⟩ := exists_startsWithDigits after.length after
      simp only [hstarts.spanDigits_eq] at hread
      split at hread
      · cases hread
      · cases hread
        exact hstarts.suffix.trans (List.suffix_cons '.' after)
  · cases hread
    exact List.suffix_rfl

/-- An item leaves the end of a text. -/
theorem Item.suffix_of_read {item : Item} (hlocal : item.isLocal = true)
    (hread : item.read parts chars = some (next, rest)) : rest <:+ chars := by
  cases item with
  | digits field width =>
      obtain ⟨⟨value, left⟩, hdigits, hpair⟩ := Option.map_eq_some_iff.1 hread
      cases hpair
      obtain ⟨digits, hstarts, -⟩ := readExactly_eq_some_iff.1 hdigits
      exact hstarts.suffix
  | number field =>
      obtain ⟨⟨value, left⟩, hnumber, hpair⟩ := Option.map_eq_some_iff.1 hread
      cases hpair
      exact (suffix_of_readNumber hnumber).trans (List.dropWhile_suffix isBlank)
  | oneOf choices =>
      obtain ⟨c, -, rfl, -⟩ := read_oneOf_eq_some_iff.1 hread
      exact List.suffix_cons c rest
  | fraction =>
      obtain ⟨⟨nano, left⟩, hfraction, hpair⟩ := Option.map_eq_some_iff.1 hread
      cases hpair
      exact suffix_of_readFraction hfraction
  | _ => cases hlocal

theorem suffix_of_readItems {items : List Item} (hlocal : ∀ item ∈ items, item.isLocal = true)
    (hread : readItems items parts chars = some (next, rest)) : rest <:+ chars := by
  induction items generalizing parts chars with
  | nil =>
      cases hread
      exact List.suffix_rfl
  | cons item items ih =>
      obtain ⟨hitem, hitems⟩ := List.forall_mem_cons.1 hlocal
      obtain ⟨middle, after, hfirst, hothers⟩ := readItems_cons_eq_some_iff.1 hread
      exact (ih hitems hothers).trans (Item.suffix_of_read hitem hfirst)

theorem isDigit_of_readMinutes {minutes : Nat} (hread : readMinutes chars = some (minutes, [])) :
    ∀ c ∈ chars, c.isDigit = true := by
  obtain ⟨⟨value, left⟩, hexactly, hpair⟩ := Option.bind_eq_some_iff.1 hread
  obtain ⟨digits, hstarts, -⟩ := readExactly_eq_some_iff.1 hexactly
  obtain ⟨-, -, hpair⟩ := Option.bind_eq_some_iff.1 hpair
  cases hpair
  rw [hstarts.split, List.append_nil]
  exact hstarts.isDigit

/-- Whether a letter stands for a whole zone. -/
def isZulu (c : Char) : Bool := c == 'Z' || c == 'z'

theorem not_isZulu {test : Char → Bool} (htest : test 'Z' = false ∧ test 'z' = false) {c : Char}
    (hc : test c = true) : isZulu c = false := by
  rw [← Bool.not_eq_true]
  intro hzulu
  rw [isZulu, Bool.or_eq_true, beq_iff_eq, beq_iff_eq] at hzulu
  rcases hzulu with rfl | rfl
  · simp [htest.1] at hc
  · simp [htest.2] at hc

/-- A zone with a letter in it is that letter. -/
theorem offset_eq_zero_of_readLooseZone {offset : Int}
    (hread : readLooseZone chars = some (offset, [])) (hzulu : ∃ c ∈ chars, isZulu c = true) :
    offset = 0 := by
  rw [readLooseZone.eq_def] at hread
  split at hread
  · cases hread
    rfl
  · cases hread
    rfl
  · -- A sign, digits, colons and blanks, and digits are no letters.
    exfalso
    obtain ⟨c, hc, hletter⟩ := hzulu
    have hdigit {c : Char} : c.isDigit = true → isZulu c = false := not_isZulu (by decide)
    have hcolon {c : Char} : (c == ':' || isBlank c) = true → isZulu c = false :=
      @not_isZulu (fun c => c == ':' || isBlank c) (by decide) c
    obtain ⟨⟨factor, signed⟩, hsign, hsigned⟩ := Option.bind_eq_some_iff.1 hread
    obtain ⟨⟨hours, after⟩, hhours, hafter⟩ := Option.bind_eq_some_iff.1 hsigned
    obtain ⟨sign, rfl, hmem⟩ := readSign_eq_some_iff.1 hsign
    obtain ⟨digits, hstarts, -⟩ := readExactly_eq_some_iff.1 hhours
    have hend : ∀ c ∈ skipColons after, isZulu c = false := by
      simp only at hafter
      split at hafter
      · next hempty => simp [hempty]
      · obtain ⟨⟨minutes, left⟩, hminutes, hpair⟩ := Option.bind_eq_some_iff.1 hafter
        cases hpair
        exact fun c hc => hdigit (isDigit_of_readMinutes hminutes c hc)
    have hnone : isZulu c = false := by
      rw [hstarts.split, ← List.takeWhile_append_dropWhile (p := fun c => c == ':' || isBlank c)
        (l := after)] at hc
      rcases List.mem_cons.1 hc with rfl | hc
      · rcases mem_signs_iff.1 hmem with ⟨rfl, -⟩ | ⟨rfl, -⟩ | ⟨rfl, -⟩ <;> decide
      · rcases List.mem_append.1 hc with hc | hc
        · exact hdigit (hstarts.isDigit c hc)
        · rcases List.mem_append.1 hc with hc | hc
          · have hmark := List.mem_takeWhile_imp hc
            exact hcolon hmark
          · exact hend c hc
    rw [hnone] at hletter
    cases hletter

/-- A text has no offset of its own. -/
def IsUniversal (text : String) : Prop :=
  let chars := Text.trimmed text.toList
  chars = nullText ∨ (∃ form ∈ Form.dateItems :: Form.zoneless, ∃ parts, form.Reads chars parts) ∨
    ∃ c ∈ chars.getLast?, isZulu c = true

/-- A form has no zone, or ends in one. -/
theorem Form.local_or_zoned {form : Form} (hform : form ∈ all) :
    (∀ item ∈ form, item.isLocal = true) ∨
      ∃ items last, form = items ++ [last] ∧ (∀ item ∈ items, item.isLocal = true) ∧
        last ∈ [Item.zone, Item.looseZone] := by
  have hall : ∀ form ∈ all, List.all form Item.isLocal = true ∨
      List.all form.dropLast Item.isLocal = true ∧
        ∃ last ∈ [Item.zone, Item.looseZone], form.getLast? = some last := by decide
  rcases hall form hform with hlocal | ⟨hlocal, last, hzone, hlast⟩
  · exact Or.inl (List.all_eq_true.1 hlocal)
  · obtain ⟨items, rfl⟩ := List.getLast?_eq_some_iff.1 hlast
    rw [List.dropLast_concat] at hlocal
    exact Or.inr ⟨items, last, rfl, List.all_eq_true.1 hlocal, hzone⟩

theorem Item.readLooseZone_of_read {item : Item} (hzone : item ∈ [Item.zone, Item.looseZone])
    (hread : item.read parts chars = some (next, rest)) :
    readLooseZone (skipBlanks chars) = some (next.offset, rest) := by
  simp only [List.mem_cons, List.not_mem_nil, or_false] at hzone
  rcases hzone with rfl | rfl
  · obtain ⟨⟨offset, left⟩, hoffset, hpair⟩ := Option.map_eq_some_iff.1 hread
    cases hpair
    exact readLooseZone_of_readZone hoffset
  · obtain ⟨⟨offset, left⟩, hoffset, hpair⟩ := Option.map_eq_some_iff.1 hread
    cases hpair
    exact hoffset

/-- A letter at the end of a text is in what the items before the zone leave of it. -/
theorem exists_isZulu_mem_skipBlanks (hsuffix : rest <:+ chars) (hrest : rest ≠ [])
    (hzulu : ∃ c ∈ chars.getLast?, isZulu c = true) : ∃ c ∈ skipBlanks rest, isZulu c = true := by
  obtain ⟨before, rfl⟩ := hsuffix
  obtain ⟨c, hc, hletter⟩ := hzulu
  have hmem : c ∈ rest := by
    rw [List.getLast?_append, List.getLast?_eq_some_getLast hrest, Option.some_or] at hc
    cases hc
    exact List.getLast_mem hrest
  rw [← List.takeWhile_append_dropWhile (p := isBlank) (l := rest)] at hmem
  refine ⟨c, (List.mem_append.1 hmem).resolve_left fun hblank => ?_, hletter⟩
  rw [not_isZulu (by decide) (List.mem_takeWhile_imp hblank)] at hletter
  cases hletter

theorem Form.Reads.offset_of_isZulu {form : Form} (hreads : form.Reads chars parts)
    (hform : form ∈ all) (hzulu : ∃ c ∈ chars.getLast?, isZulu c = true) : parts.offset = 0 := by
  rcases local_or_zoned hform with hlocal | ⟨items, last, rfl, hlocal, hzone⟩
  · exact hreads.offset_of_isLocal hlocal
  · obtain ⟨next, rest, hitems, hlast⟩ := readItems_append_eq_some_iff.1 hreads
    obtain ⟨middle, after, hread, hend⟩ := readItems_cons_eq_some_iff.1 hlast
    cases hend
    have hsome : rest ≠ [] := by
      rintro rfl
      have hneeds : ∀ item ∈ [Item.zone, Item.looseZone], item.needsText = true := by decide
      rw [Item.read_nil_of_needsText (hneeds last hzone)] at hread
      cases hread
    exact offset_eq_zero_of_readLooseZone (Item.readLooseZone_of_read hzone hread)
      (exists_isZulu_mem_skipBlanks (suffix_of_readItems hlocal hitems) hsome hzulu)

theorem offset_eq_zero_of_isUniversal {nullDate : Date} {text : String} {instant : Instant}
    (hparse : parse nullDate text = some instant) (huniversal : IsUniversal text) :
    instant.offset = 0 := by
  by_cases hnull : Text.trimmed text.toList = nullText
  · rw [parse, if_pos hnull] at hparse
    rw [← Option.some.inj hparse]
    rfl
  · obtain ⟨form, hform, parts, hreads, hinstant⟩ := exists_reads_of_parse hparse hnull
    obtain ⟨date, -, rfl, -⟩ := Parts.instant?_eq_some_iff.1 hinstant
    change parts.offset = 0
    rcases huniversal with hsame | ⟨other, hother, found, hfound⟩ | hzulu
    · exact absurd hsame hnull
    · have hlocal : ∀ form ∈ Form.dateItems :: Form.zoneless, form ∈ Form.all ∧
          List.all form Item.isLocal = true := by decide
      obtain ⟨hall, hother⟩ := hlocal other hother
      rw [Form.reads_unique hform hall hreads hfound]
      exact hfound.offset_of_isLocal (List.all_eq_true.1 hother)
    · exact hreads.offset_of_isZulu hform hzulu

end Calendar

end BranchingInterview
