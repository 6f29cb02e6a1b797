import BranchingInterview.Proofs.Calendar.Digits

/-!
What the items of a form read, one after the other. Items without a zone read the same when a zone
follows; each item changes one part only; and all but a fraction need some text to read.
-/

namespace BranchingInterview.Calendar

open Text

variable {parts next : Parts} {chars rest suffix : List Char}

theorem isBlank_of_isDigit {c : Char} (hc : c.isDigit = true) : isBlank c = false := by
  simp only [Char.isDigit, Bool.and_eq_true, decide_eq_true_eq, UInt32.le_iff_toNat_le] at hc
  have hlow : 48 ≤ c.toNat := hc.1
  have hhigh : c.toNat ≤ 57 := hc.2
  simp [isBlank]
  omega

theorem readYear_append {value : Int} (hread : readYear chars = some (value, rest))
    (hsuffix : EndsDigits suffix) : readYear (chars ++ suffix) = some (value, rest ++ suffix) := by
  obtain ⟨sign, factor, after, limit, number, rfl, hsign, hdigits, rfl⟩ :=
    readYear_eq_some_iff.1 hread
  rw [readYear_eq_some_iff, List.append_assoc]
  cases hsign with
  | plus => exact ⟨_, _, _, _, _, rfl, .plus _, readAllDigits_append hdigits hsuffix, rfl⟩
  | minus => exact ⟨_, _, _, _, _, rfl, .minus _, readAllDigits_append hdigits hsuffix, rfl⟩
  | none => exact ⟨_, _, _, _, _, rfl, .none _, readDigits_append hdigits hsuffix, rfl⟩

theorem readNumber_append {field : Field} {value : Int}
    (hread : readNumber field chars = some (value, rest)) (hsuffix : EndsDigits suffix) :
    readNumber field (chars ++ suffix) = some (value, rest ++ suffix) := by
  cases field with
  | year => exact readYear_append hread hsuffix
  | _ =>
      obtain ⟨⟨number, left⟩, hdigits, hpair⟩ := Option.map_eq_some_iff.1 hread
      cases hpair
      simp only [readNumber, readDigits_append hdigits hsuffix, Option.map_some]

theorem readNumber_nil (field : Field) : readNumber field [] = none := by
  cases field <;> rfl

theorem readFraction_append {nano : Nat} (hread : readFraction chars = some (nano, rest))
    (hsuffix : EndsDigits suffix) (hpoint : suffix.head? ≠ some '.') :
    readFraction (chars ++ suffix) = some (nano, rest ++ suffix) := by
  rw [readFraction.eq_def] at hread
  split at hread
  · next after =>
      obtain ⟨digits, left, hstarts⟩ := exists_startsWithDigits after.length after
      have hspan := (hstarts.extend_all hsuffix).spanDigits_eq
      simp only [hstarts.spanDigits_eq] at hread
      simp only [List.cons_append, readFraction, hspan]
      split at hread
      · cases hread
      · next hdigits =>
          cases hread
          simp [hdigits]
  · next hnone =>
      cases hread
      rw [readFraction.eq_def]
      split
      · next after heq =>
          cases chars with
          | nil => exact absurd (congrArg List.head? heq) hpoint
          | cons c chars => exact absurd (congrArg (· :: chars) (List.cons.inj heq).1) (hnone chars)
      · rfl

namespace Item

/-- Whether an item tells nothing of the offset. -/
def isLocal : Item → Bool
  | .zone | .looseZone => false
  | _ => true

theorem read_oneOf_eq_some_iff {choices : List Char} :
    (oneOf choices).read parts chars = some (next, rest) ↔
      ∃ c ∈ choices, chars = c :: rest ∧ next = parts := by
  cases chars with
  | nil => simp [read]
  | cons c chars =>
      simp only [read, List.contains_iff_mem, List.cons.injEq]
      constructor
      · intro hread
        split at hread
        · next hc =>
            cases hread
            exact ⟨c, hc, ⟨rfl, rfl⟩, rfl⟩
        · cases hread
      · rintro ⟨choice, hchoice, ⟨rfl, rfl⟩, rfl⟩
        rw [if_pos hchoice]

theorem read_append {item : Item} (hlocal : item.isLocal = true)
    (hread : item.read parts chars = some (next, rest)) (hsuffix : EndsDigits suffix)
    (hpoint : suffix.head? ≠ some '.') :
    item.read parts (chars ++ suffix) = some (next, rest ++ suffix) := by
  cases item with
  | digits field width =>
      obtain ⟨⟨value, left⟩, hdigits, hpair⟩ := Option.map_eq_some_iff.1 hread
      cases hpair
      simp only [read, readExactly_append hdigits hsuffix, Option.map_some]
  | number field =>
      obtain ⟨⟨value, left⟩, hnumber, hpair⟩ := Option.map_eq_some_iff.1 hread
      cases hpair
      have hsome : skipBlanks chars ≠ [] := by
        intro hnil
        rw [hnil, readNumber_nil] at hnumber
        cases hnumber
      simp only [read, skipBlanks_append hsome, readNumber_append hnumber hsuffix, Option.map_some]
  | oneOf choices =>
      obtain ⟨c, hc, rfl, rfl⟩ := read_oneOf_eq_some_iff.1 hread
      exact read_oneOf_eq_some_iff.2 ⟨c, hc, rfl, rfl⟩
  | fraction =>
      obtain ⟨⟨nano, left⟩, hfraction, hpair⟩ := Option.map_eq_some_iff.1 hread
      cases hpair
      simp only [read, readFraction_append hfraction hsuffix hpoint, Option.map_some]
  | _ => cases hlocal

/-- What an item may do to the parts. -/
def Changes (parts next : Parts) : Item → Prop
  | .digits field _ | .number field => ∃ value, next = parts.set value field
  | .oneOf _ => next = parts
  | .fraction => ∃ nano, next = { parts with nano }
  | .zone | .looseZone => ∃ offset, next = { parts with offset }

theorem changes_of_read {item : Item} (hread : item.read parts chars = some (next, rest)) :
    item.Changes parts next := by
  cases item with
  | oneOf choices =>
      obtain ⟨c, -, -, hnext⟩ := read_oneOf_eq_some_iff.1 hread
      exact hnext
  | _ =>
      obtain ⟨⟨value, left⟩, -, hpair⟩ := Option.map_eq_some_iff.1 hread
      cases hpair
      exact ⟨_, rfl⟩

/-- Whether an item reads nothing from an empty text. -/
def needsText : Item → Bool
  | .digits _ width => 0 < width
  | .fraction => false
  | _ => true

theorem read_nil_of_needsText {item : Item} (hneeds : item.needsText = true) (parts : Parts) :
    item.read parts [] = none := by
  cases item with
  | digits field width =>
      have hwidth : 0 < width := of_decide_eq_true hneeds
      simp [read, readExactly, spanDigits, Nat.ne_of_lt hwidth]
  | number field =>
      have hread : readNumber field (skipBlanks []) = none := readNumber_nil field
      rw [read, hread]
      rfl
  | fraction => cases hneeds
  | _ => rfl

theorem eq_nil_of_read_nil {item : Item} (hread : item.read parts [] = some (next, rest)) :
    rest = [] := by
  cases hneeds : item.needsText with
  | true =>
      rw [read_nil_of_needsText hneeds] at hread
      cases hread
  | false =>
      cases item with
      | digits field width =>
          have hwidth : width = 0 := by simpa [needsText] using hneeds
          subst hwidth
          cases hread
          rfl
      | fraction =>
          cases hread
          rfl
      | _ => cases hneeds

end Item

theorem readItems_cons_eq_some_iff {item : Item} {items : List Item} {read : Parts × List Char} :
    readItems (item :: items) parts chars = some read ↔
      ∃ next rest, item.read parts chars = some (next, rest) ∧
        readItems items next rest = some read := by
  rw [readItems, Option.bind_eq_bind, Option.bind_eq_some_iff, Prod.exists]

theorem readItems_append_eq_some_iff {first second : List Item} {read : Parts × List Char} :
    readItems (first ++ second) parts chars = some read ↔
      ∃ next rest, readItems first parts chars = some (next, rest) ∧
        readItems second next rest = some read := by
  induction first generalizing parts chars with
  | nil =>
      constructor
      · exact fun hsecond => ⟨parts, chars, rfl, hsecond⟩
      · rintro ⟨next, rest, hnil, hsecond⟩
        cases hnil
        exact hsecond
  | cons item items ih =>
      simp only [List.cons_append, readItems_cons_eq_some_iff, ih]
      constructor
      · rintro ⟨middle, after, hitem, next, rest, hitems, hsecond⟩
        exact ⟨next, rest, ⟨middle, after, hitem, hitems⟩, hsecond⟩
      · rintro ⟨next, rest, ⟨middle, after, hitem, hitems⟩, hsecond⟩
        exact ⟨middle, after, hitem, next, rest, hitems, hsecond⟩

/-- Items that tell nothing of the offset read the same when more text follows. -/
theorem readItems_extend {items : List Item} (hlocal : ∀ item ∈ items, item.isLocal = true)
    (hread : readItems items parts chars = some (next, rest)) (hsuffix : EndsDigits suffix)
    (hpoint : suffix.head? ≠ some '.') :
    readItems items parts (chars ++ suffix) = some (next, rest ++ suffix) := by
  induction items generalizing parts chars with
  | nil =>
      cases hread
      rfl
  | cons item items ih =>
      obtain ⟨middle, after, hitem, hitems⟩ := readItems_cons_eq_some_iff.1 hread
      rw [readItems_cons_eq_some_iff]
      refine ⟨middle, after ++ suffix, ?_, ?_⟩
      · exact Item.read_append (hlocal item List.mem_cons_self) hitem hsuffix hpoint
      · exact ih (fun later hlater => hlocal later (List.mem_cons_of_mem _ hlater)) hitems

/-- What each item keeps, all of them keep. -/
theorem readItems_keeps {α : Type} (part : Parts → α) {items : List Item}
    (hkeeps : ∀ item ∈ items, ∀ parts next, item.Changes parts next → part next = part parts)
    (hread : readItems items parts chars = some (next, rest)) : part next = part parts := by
  induction items generalizing parts chars with
  | nil =>
      cases hread
      rfl
  | cons item items ih =>
      obtain ⟨middle, after, hitem, hitems⟩ := readItems_cons_eq_some_iff.1 hread
      rw [ih (fun later hlater => hkeeps later (List.mem_cons_of_mem _ hlater)) hitems]
      exact hkeeps item List.mem_cons_self parts middle (Item.changes_of_read hitem)

theorem readItems_nil_of_needsText {items : List Item} (hneeds : items.any Item.needsText = true)
    (parts : Parts) : readItems items parts [] = none := by
  rw [Option.eq_none_iff_forall_ne_some]
  intro read hread
  induction items generalizing parts with
  | nil => cases hneeds
  | cons item items ih =>
      obtain ⟨next, rest, hitem, hitems⟩ := readItems_cons_eq_some_iff.1 hread
      cases hhead : item.needsText with
      | true =>
          rw [Item.read_nil_of_needsText hhead] at hitem
          cases hitem
      | false =>
          rw [List.any_cons, hhead, Bool.false_or] at hneeds
          rw [Item.eq_nil_of_read_nil hitem] at hitems
          exact ih hneeds next hitems

/-- A form reads some parts from a whole text. -/
def Form.Reads (form : Form) (chars : List Char) (parts : Parts) : Prop :=
  readItems form {} chars = some (parts, [])

theorem Form.read_eq_some_iff {form : Form} {instant : Instant} :
    form.read chars = some instant ↔
      ∃ parts, form.Reads chars parts ∧ parts.instant? = some instant := by
  rw [Form.read, Option.bind_eq_bind, Option.bind_eq_some_iff, Prod.exists]
  constructor
  · rintro ⟨parts, rest, hread, hinstant⟩
    cases rest with
    | nil => exact ⟨parts, hread, hinstant⟩
    | cons c rest => cases hinstant
  · rintro ⟨parts, hread, hinstant⟩
    exact ⟨parts, [], hread, hinstant⟩

end BranchingInterview.Calendar
