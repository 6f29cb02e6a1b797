import BranchingInterview.Comparison
import BranchingInterview.Proofs.Calendar.Items
import Mathlib.Data.List.Pairwise

/-!
The order of the forms. Two forms are compared item by item: as long as their items read the same
they stay together, and where they part one of them reads nothing. So forms that accept one text
read the same parts from it, and it does not matter which of them is tried first.
-/

namespace BranchingInterview

namespace Calendar

open Text

variable {parts : Parts} {chars rest : List Char}

/-- Both forms read the same parts, whatever was read before them. -/
def Form.Agree (left right : Form) : Prop :=
  ∀ parts chars first second, readItems left parts chars = some (first, []) →
    readItems right parts chars = some (second, []) → first = second

def Field.maxDigits : Field → Nat
  | .year => 4
  | _ => 2

/-- The characters at which a zone may start. -/
def startsZone (c : Char) : Bool :=
  isBlank c || ['Z', 'z', '+', '-', '\u2212'].contains c

namespace Item

/-- Whether two items read the same where both of them read. -/
def concurs : Item → Item → Bool
  | .digits field width, .number other => field == other && width == field.maxDigits
  | .zone, .looseZone => true
  | .oneOf _, .oneOf _ => true
  | left, right => left == right

/-- Whether no text has both items at its head. -/
def excludes : Item → Item → Bool
  | .oneOf choices, .looseZone => choices.all fun c => !startsZone c
  | .looseZone, .oneOf choices => choices.all fun c => !startsZone c
  | _, _ => false

end Item

/-- Whether two forms go together up to a place where only one of them can go on. -/
def Form.agrees : Form → Form → Bool
  | [], [] => true
  | [], form => form.any Item.needsText
  | form, [] => form.any Item.needsText
  | left :: lefts, right :: rights =>
      left.excludes right || left.concurs right && agrees lefts rights

theorem readNumber_of_readExactly {field : Field} {value : Nat}
    (hread : readExactly field.maxDigits chars = some (value, rest)) :
    readNumber field (skipBlanks chars) = some ((value : Int), rest) := by
  have hwidth : 0 < field.maxDigits := by cases field <;> decide
  have hdigits := readDigits_of_readExactly hread hwidth
  obtain ⟨digits, hstarts, hsome, -⟩ := readDigits_eq_some_iff.1 hdigits
  obtain ⟨c, after, rfl, hc⟩ := hstarts.exists_head hsome
  rw [skipBlanks_cons (isBlank_of_isDigit hc)]
  cases field with
  | year => exact readYear_eq_some_iff.2 ⟨[], 1, _, 4, value, rfl, .none _, hdigits, by simp⟩
  | _ =>
      change (readDigits 2 _).map _ = _
      rw [show readDigits 2 (c :: after) = some (value, rest) from hdigits]
      rfl

theorem skipColons_of_readMinutes {minutes : Nat}
    (hread : readMinutes chars = some (minutes, rest)) :
    skipColons (':' :: chars) = chars ∧ chars ≠ [] := by
  obtain ⟨⟨value, left⟩, hexactly, -⟩ := Option.bind_eq_some_iff.1 hread
  have hdigits := readDigits_of_readExactly hexactly (by decide)
  obtain ⟨digits, hstarts, hsome, -⟩ := readDigits_eq_some_iff.1 hdigits
  obtain ⟨c, after, rfl, hc⟩ := hstarts.exists_head hsome
  have hcolon : c ≠ ':' := by
    rintro rfl
    cases hc
  simp [skipColons, isBlank_of_isDigit hc, hcolon]

/-- The signs of an offset. -/
def signs : List (Char × Int) := [('+', 1), ('-', -1), ('\u2212', -1)]

theorem mem_signs_iff {c : Char} {factor : Int} :
    (c, factor) ∈ signs ↔
      c = '+' ∧ factor = 1 ∨ c = '-' ∧ factor = -1 ∨ c = '\u2212' ∧ factor = -1 := by
  simp [signs]

theorem readSign_eq_some_iff {factor : Int} :
    readSign chars = some (factor, rest) ↔ ∃ c, chars = c :: rest ∧ (c, factor) ∈ signs := by
  constructor
  · intro hread
    rw [readSign.eq_def] at hread
    split at hread <;> cases hread <;> exact ⟨_, rfl, by simp [signs]⟩
  · rintro ⟨c, rfl, hsign⟩
    rcases mem_signs_iff.1 hsign with ⟨rfl, rfl⟩ | ⟨rfl, rfl⟩ | ⟨rfl, rfl⟩ <;> rfl

theorem isBlank_of_mem_signs {c : Char} {factor : Int} (hsign : (c, factor) ∈ signs) :
    isBlank c = false := by
  rcases mem_signs_iff.1 hsign with ⟨rfl, -⟩ | ⟨rfl, -⟩ | ⟨rfl, -⟩ <;> decide

/-- Where a zone is read strictly, it is read the same loosely. -/
theorem readLooseZone_of_readZone {offset : Int} (hread : readZone chars = some (offset, rest)) :
    readLooseZone (skipBlanks chars) = some (offset, rest) := by
  rw [readZone.eq_def] at hread
  split at hread
  · cases hread
    rfl
  · cases hread
    rfl
  · next hupper hlower =>
      obtain ⟨⟨factor, signed⟩, hsign, hsigned⟩ := Option.bind_eq_some_iff.1 hread
      obtain ⟨⟨hours, after⟩, hhours, hafter⟩ := Option.bind_eq_some_iff.1 hsigned
      obtain ⟨c, rfl, hc⟩ := readSign_eq_some_iff.1 hsign
      rw [skipBlanks_cons (isBlank_of_mem_signs hc), readLooseZone.eq_def]
      split
      · next heq => exact absurd heq (hupper _)
      · next heq => exact absurd heq (hlower _)
      · simp only at hafter
        split at hafter
        · next minutes =>
            obtain ⟨⟨value, left⟩, hminutes, hpair⟩ := Option.bind_eq_some_iff.1 hafter
            obtain ⟨hcolons, hsome⟩ := skipColons_of_readMinutes hminutes
            simp only [Option.bind_eq_bind, hsign, hhours, Option.bind_some, hcolons, hminutes]
            exact hpair
        · cases hafter

theorem readLooseZone_of_not_startsZone {c : Char} (hc : startsZone c = false) :
    readLooseZone (skipBlanks (c :: rest)) = none := by
  have hblank : isBlank c = false := by simp_all [startsZone]
  have hzone : c ≠ 'Z' ∧ c ≠ 'z' ∧ c ≠ '+' ∧ c ≠ '-' ∧ c ≠ '\u2212' := by simp_all [startsZone]
  have hsign : readSign (c :: rest) = none := by
    rw [Option.eq_none_iff_forall_ne_some]
    rintro ⟨factor, after⟩ hread
    obtain ⟨found, heq, hfound⟩ := readSign_eq_some_iff.1 hread
    cases heq
    simp_all [signs]
  rw [skipBlanks_cons hblank, readLooseZone.eq_def]
  split
  · next heq => exact absurd (List.cons.inj heq).1 hzone.1
  · next heq => exact absurd (List.cons.inj heq).1 hzone.2.1
  · rw [hsign]
    rfl

theorem Item.read_looseZone_eq_none {choices : List Char} {read : Parts × List Char}
    (hchoices : (choices.all fun c => !startsZone c) = true)
    (hread : (Item.oneOf choices).read parts chars = some read) (more : Parts) :
    Item.looseZone.read more chars = none := by
  obtain ⟨c, hc, rfl, -⟩ := Item.read_oneOf_eq_some_iff.1 hread
  have hstart : startsZone c = false := by simpa using List.all_eq_true.1 hchoices c hc
  rw [Item.read, readLooseZone_of_not_startsZone hstart]
  rfl

namespace Item

variable {left right : Item} {first second : Parts × List Char}

theorem read_eq_of_concurs (hconcurs : left.concurs right = true)
    (hleft : left.read parts chars = some first) (hright : right.read parts chars = some second) :
    first = second := by
  have hread : right.read parts chars = some first := by
    rw [concurs.eq_def] at hconcurs
    split at hconcurs
    · next field width other =>
        rw [Bool.and_eq_true, beq_iff_eq, beq_iff_eq] at hconcurs
        obtain ⟨rfl, rfl⟩ := hconcurs
        obtain ⟨⟨value, rest⟩, hexactly, rfl⟩ := Option.map_eq_some_iff.1 hleft
        simp only [read, readNumber_of_readExactly hexactly, Option.map_some]
    · obtain ⟨⟨offset, rest⟩, hzone, rfl⟩ := Option.map_eq_some_iff.1 hleft
      simp only [read, readLooseZone_of_readZone hzone, Option.map_some]
    · obtain ⟨c, -, rfl, hnext⟩ := read_oneOf_eq_some_iff.1 hleft
      obtain ⟨other, hother, hchars, -⟩ := read_oneOf_eq_some_iff.1 hright
      rw [← (List.cons.inj hchars).1] at hother
      exact read_oneOf_eq_some_iff.2 ⟨c, hother, rfl, hnext⟩
    · rw [beq_iff_eq] at hconcurs
      rwa [← hconcurs]
  rw [hread] at hright
  exact Option.some.inj hright

theorem not_excludes (hleft : left.read parts chars = some first)
    (hright : right.read parts chars = some second) : left.excludes right = false := by
  rw [Bool.eq_false_iff]
  intro hexcludes
  rw [excludes.eq_def] at hexcludes
  split at hexcludes
  · rw [read_looseZone_eq_none hexcludes hleft parts] at hright
    cases hright
  · rw [read_looseZone_eq_none hexcludes hright parts] at hleft
    cases hleft
  · cases hexcludes

end Item

namespace Form

theorem agree_of_agrees {left right : Form} (hagrees : left.agrees right = true) :
    left.Agree right := by
  intro parts chars first second hleft hright
  -- Both forms are read in step: up to here they have read the same parts and left the same text.
  fun_induction agrees left right generalizing parts chars with
  | case1 =>
      cases hleft
      cases hright
      rfl
  | case2 form =>
      cases hleft
      rw [readItems_nil_of_needsText hagrees] at hright
      cases hright
  | case3 form =>
      cases hright
      rw [readItems_nil_of_needsText hagrees] at hleft
      cases hleft
  | case4 left lefts right rights ih =>
      obtain ⟨next, rest, hitem, hlefts⟩ := readItems_cons_eq_some_iff.1 hleft
      obtain ⟨other, more, hother, hrights⟩ := readItems_cons_eq_some_iff.1 hright
      rw [Item.not_excludes hitem hother, Bool.false_or, Bool.and_eq_true] at hagrees
      cases Item.read_eq_of_concurs hagrees.1 hitem hother
      exact ih hagrees.2 next rest hlefts hrights

theorem Agree.symm {left right : Form} (hagree : left.Agree right) : right.Agree left :=
  fun parts chars first second hfirst hsecond =>
    (hagree parts chars second first hsecond hfirst).symm

theorem agree_refl (form : Form) : form.Agree form := by
  intro parts chars first second hfirst hsecond
  rw [hfirst] at hsecond
  exact congrArg Prod.fst (Option.some.inj hsecond)

/-- The forms without the one that is a form with a fraction, but for the fraction. -/
def essential : List Form :=
  [internet, secondsWithZone, minutesWithZone, fractionOfSecond, minuteItems, dateItems]

theorem agree_of_mem_essential {left right : Form} (hleft : left ∈ essential)
    (hright : right ∈ essential) : left.Agree right := by
  have hpairs : essential.Pairwise fun left right => left.agrees right = true := by decide
  have : Std.Symm Agree := ⟨fun _ _ => Agree.symm⟩
  exact (hpairs.imp agree_of_agrees).forall_of_forall (fun form _ => agree_refl form) hleft hright

/-- A form with seconds reads the same when it may have a fraction. -/
theorem reads_fractionOfSecond (hreads : secondItems.Reads chars parts) :
    fractionOfSecond.Reads chars parts := by
  have hnano : parts.nano = 0 := by
    refine readItems_keeps Parts.nano ?_ hreads
    simp [secondItems, minuteItems, dateItems, Item.Changes, Parts.set]
  refine readItems_append_eq_some_iff.2 ⟨parts, [], hreads, ?_⟩
  change some (({ parts with nano := 0 } : Parts), []) = some (parts, [])
  rw [← hnano]

theorem exists_essential {form : Form} (hform : form ∈ all) (hreads : form.Reads chars parts) :
    ∃ other ∈ essential, other.Reads chars parts := by
  by_cases hseconds : form = secondItems
  · subst hseconds
    exact ⟨fractionOfSecond, by simp [essential], reads_fractionOfSecond hreads⟩
  · refine ⟨form, ?_, hreads⟩
    simpa only [all, essential, List.mem_cons, List.not_mem_nil, or_false, hseconds, false_or]
      using hform

/-- Forms that read a whole text read the same parts from it. -/
theorem reads_unique {left right : Form} {first second : Parts} (hleft : left ∈ all)
    (hright : right ∈ all) (hfirst : left.Reads chars first) (hsecond : right.Reads chars second) :
    first = second := by
  obtain ⟨one, hone, hfirst⟩ := exists_essential hleft hfirst
  obtain ⟨other, hother, hsecond⟩ := exists_essential hright hsecond
  exact agree_of_mem_essential hone hother {} chars first second hfirst hsecond

theorem read_unique {left right : Form} {first second : Instant} (hleft : left ∈ all)
    (hright : right ∈ all) (hfirst : left.read chars = some first)
    (hsecond : right.read chars = some second) : first = second := by
  obtain ⟨parts, hreads, hinstant⟩ := read_eq_some_iff.1 hfirst
  obtain ⟨others, hothers, hother⟩ := read_eq_some_iff.1 hsecond
  cases reads_unique hleft hright hreads hothers
  rw [hinstant] at hother
  exact Option.some.inj hother

end Form

theorem findSome?_read_eq_some_iff {forms : List Form} (hforms : ∀ form ∈ forms, form ∈ Form.all)
    {instant : Instant} :
    forms.findSome? (·.read chars) = some instant ↔
      ∃ form ∈ forms, form.read chars = some instant := by
  constructor
  · exact List.exists_of_findSome?_eq_some
  · rintro ⟨form, hform, hread⟩
    have hsome : (forms.findSome? (·.read chars)).isSome = true := by
      rw [List.findSome?_isSome_iff]
      exact ⟨form, hform, by rw [hread]; rfl⟩
    obtain ⟨found, hfound⟩ := Option.isSome_iff_exists.1 hsome
    obtain ⟨other, hother, hinstant⟩ := List.exists_of_findSome?_eq_some hfound
    rw [hfound, Form.read_unique (hforms form hform) (hforms other hother) hread hinstant]

/-- One form that reads a whole text settles what becomes of it. -/
theorem readInstant_of_reads {form : Form} (hform : form ∈ Form.all)
    (hreads : form.Reads chars parts) : readInstant chars = parts.instant? := by
  ext instant
  rw [readInstant, findSome?_read_eq_some_iff fun _ => id]
  constructor
  · rintro ⟨other, hother, hread⟩
    obtain ⟨found, hfound, hinstant⟩ := Form.read_eq_some_iff.1 hread
    rwa [Form.reads_unique hform hother hreads hfound]
  · intro hinstant
    exact ⟨form, hform, Form.read_eq_some_iff.2 ⟨parts, hreads, hinstant⟩⟩

theorem readItems_nullText : ∀ form ∈ Form.all, readItems form {} nullText = none := by
  decide

/-- A text that a form reads is read as that form has it. -/
theorem parse_of_reads {form : Form} (hform : form ∈ Form.all) {text : String}
    (hreads : form.Reads (Text.trimmed text.toList) parts) (nullDate : Date) :
    parse nullDate text = parts.instant? := by
  have hnull : Text.trimmed text.toList ≠ nullText := by
    intro hnull
    rw [hnull, Form.Reads, readItems_nullText form hform] at hreads
    cases hreads
  rw [parse, if_neg hnull, readInstant_of_reads hform hreads]

/-- A text that is read as an instant, and is not `null`, is read by a form. -/
theorem exists_reads_of_parse {nullDate : Date} {text : String} {instant : Instant}
    (hparse : parse nullDate text = some instant) (hnull : Text.trimmed text.toList ≠ nullText) :
    ∃ form ∈ Form.all, ∃ parts, form.Reads (Text.trimmed text.toList) parts ∧
      parts.instant? = some instant := by
  rw [parse, if_neg hnull] at hparse
  obtain ⟨form, hform, hread⟩ := List.exists_of_findSome?_eq_some hparse
  exact ⟨form, hform, Form.read_eq_some_iff.1 hread⟩

theorem findSome?_read_of_perm {forms : List Form} (hperm : forms.Perm Form.all)
    (chars : List Char) : forms.findSome? (·.read chars) = readInstant chars := by
  ext instant
  rw [readInstant, findSome?_read_eq_some_iff fun _ => hperm.mem_iff.1,
    findSome?_read_eq_some_iff fun _ => id]
  simp only [hperm.mem_iff]

end Calendar

/-- Reads a date with the forms tried in some order. -/
def parseDateTrying (forms : List Calendar.Form) (nullDate : Date) (text : String) :
    Except ScriptError Instant :=
  let chars := Text.trimmed text.toList
  let found :=
    if chars = Calendar.nullText then some (.startOfDay nullDate)
    else forms.findSome? (·.read chars)
  match found with
  | some instant => .ok instant
  | none => .error (.invalidDate text)

open Calendar in
/-- Two forms that accept one text give the same instant with the same offset, so every order of
the forms reads the same dates, and seconds need no form of their own beside the fraction. -/
theorem parseDate_order_irrelevant :
    (∀ (text : String), ∀ left ∈ Form.all, ∀ right ∈ Form.all, ∀ first second,
      left.read (Text.trimmed text.toList) = some first →
        right.read (Text.trimmed text.toList) = some second → first = second) ∧
      (∀ forms : List Form, forms.Perm Form.all → ∀ nullDate text,
        parseDateTrying forms nullDate text = parseDate nullDate text) ∧
      ∀ chars instant, Form.secondItems.read chars = some instant →
        Form.fractionOfSecond.read chars = some instant := by
  refine ⟨?_, ?_, ?_⟩
  · intro text left hleft right hright first second hfirst hsecond
    exact Form.read_unique hleft hright hfirst hsecond
  · intro forms hperm nullDate text
    rw [parseDateTrying, findSome?_read_of_perm hperm]
    rfl
  · intro chars instant hread
    obtain ⟨parts, hreads, hinstant⟩ := Form.read_eq_some_iff.1 hread
    exact Form.read_eq_some_iff.2 ⟨parts, Form.reads_fractionOfSecond hreads, hinstant⟩

open Calendar in
/-- A leap second that three forms accept, read by the first and the last of the forms. -/
theorem parseDate_order_irrelevant_leapSecond :
    let zoned := "2024-12-31T23:59:60.5+01:00"
    let plain := "2024-12-31T23:59:60".toList
    (∃ first second,
      Form.internet.read (Text.trimmed zoned.toList) = some first ∧
        Form.secondsWithZone.read (Text.trimmed zoned.toList) = some second ∧ first = second) ∧
      Form.all.reverse.Perm Form.all ∧
      parseDateTrying Form.all.reverse .epoch zoned = parseDate .epoch zoned ∧
      ∃ instant, Form.secondItems.read plain = some instant ∧
        Form.fractionOfSecond.read plain = some instant := by
  intro zoned plain
  obtain ⟨hunique, horder, hfraction⟩ := parseDate_order_irrelevant
  have hperm : Form.all.reverse.Perm Form.all := List.reverse_perm Form.all
  obtain ⟨first, hfirst⟩ : ∃ first, Form.internet.read (Text.trimmed zoned.toList) = some first :=
    Option.isSome_iff_exists.1 (by decide +kernel)
  obtain ⟨second, hsecond⟩ :
      ∃ second, Form.secondsWithZone.read (Text.trimmed zoned.toList) = some second :=
    Option.isSome_iff_exists.1 (by decide +kernel)
  obtain ⟨instant, hplain⟩ : ∃ instant, Form.secondItems.read plain = some instant :=
    Option.isSome_iff_exists.1 (by decide +kernel)
  have hsame := hunique zoned Form.internet (by simp [Form.all]) Form.secondsWithZone
    (by simp [Form.all]) first second hfirst hsecond
  exact ⟨⟨first, second, hfirst, hsecond, hsame⟩, hperm, horder _ hperm .epoch zoned, instant,
    hplain, hfraction plain instant hplain⟩

end BranchingInterview
