import BranchingInterview.Proofs.Calendar.FormOrder
import BranchingInterview.Proofs.Calendar.Instants
import BranchingInterview.Proofs.Evaluation

/-!
A zone after a local time. The text of a local date and time stays readable when a zone is put after
it, in another form; the instant moves by the offset and keeps its day on the clock it was read from.
-/

namespace BranchingInterview

open Calendar Text

/-! Numbers written with leading zeros are read back. -/

namespace Date

variable {width n : Nat}

theorem natOfDigits_padded (width n : Nat) : natOfDigits (padded width n) = n := by
  have hzeros : Nat.ofDigitChars 10 (padded width n) 0 = n := by
    rw [padded, Nat.ofDigitChars_append, Nat.ofDigitChars_replicate_zero, Nat.mul_zero,
      Nat.ofDigitChars_ten_toDigits]
  exact hzeros

theorem isDigit_of_mem_padded {c : Char} (hc : c ∈ padded width n) : c.isDigit = true := by
  rcases List.mem_append.1 hc with hzero | hdigit
  · rw [List.eq_of_mem_replicate hzero]
    rfl
  · exact Nat.isDigit_of_mem_toDigits (by decide) (by decide) hdigit

theorem length_toDigits_le_two (hsmall : n < 100) : (Nat.toDigits 10 n).length ≤ 2 :=
  (Nat.length_toDigits_le_iff (by decide) (by decide)).2 hsmall

theorem length_padded (hfits : (Nat.toDigits 10 n).length ≤ width) :
    (padded width n).length = width := by
  rw [padded, List.length_append, List.length_replicate]
  omega

theorem readExactly_padded (hfits : (Nat.toDigits 10 n).length ≤ width) (rest : List Char) :
    readExactly width (padded width n ++ rest) = some (n, rest) := by
  have hlength := length_padded hfits
  refine readExactly_eq_some_iff.2 ⟨padded width n, ⟨rfl, ?_, ?_, ?_⟩, hlength, ?_⟩
  · exact fun c hc => isDigit_of_mem_padded hc
  · omega
  · exact Or.inl hlength
  · exact natOfDigits_padded width n

end Date

namespace Calendar

variable {sign : Char} {factor : Int} {hours minutes : Nat}

/-- The text of an offset: a sign, hours and minutes. -/
def zoneChars (sign : Char) (hours minutes : Nat) : List Char :=
  sign :: Date.padded 2 hours ++ ':' :: Date.padded 2 minutes

theorem readMinutes_padded (hminutes : minutes ≤ 59) :
    readMinutes (Date.padded 2 minutes) = some (minutes, []) := by
  have hfits := Date.length_toDigits_le_two (by omega : minutes < 100)
  have hread := Date.readExactly_padded hfits []
  rw [List.append_nil] at hread
  have hlt : minutes < 60 := by omega
  simp [readMinutes, hread, hlt, guard]

theorem readZone_zoneChars (hsign : (sign, factor) ∈ signs) (hhours : hours ≤ 23)
    (hminutes : minutes ≤ 59) :
    readZone (zoneChars sign hours minutes) = some (offsetSeconds factor hours minutes, []) := by
  have hfits := Date.length_toDigits_le_two (by omega : hours < 100)
  have hread := Date.readExactly_padded hfits (':' :: Date.padded 2 minutes)
  have hsigned : readSign (zoneChars sign hours minutes) =
      some (factor, Date.padded 2 hours ++ ':' :: Date.padded 2 minutes) :=
    readSign_eq_some_iff.2 ⟨sign, rfl, hsign⟩
  rw [readZone.eq_def]
  split
  · next heq =>
      rw [(List.cons.inj heq).1] at hsign
      simp [signs] at hsign
  · next heq =>
      rw [(List.cons.inj heq).1] at hsign
      simp [signs] at hsign
  · simp [hsigned, hread, readMinutes_padded hminutes]

/-- The head of a zone neither continues a number nor starts a fraction. -/
theorem readZone_head {zone : List Char} {offset : Int} (hzone : readZone zone = some (offset, [])) :
    EndsDigits zone ∧ zone.head? ≠ some '.' := by
  have hloose := readLooseZone_of_readZone hzone
  cases zone with
  | nil => cases hzone
  | cons c zone =>
      have hstarts : startsZone c = true := by
        by_contra hother
        rw [readLooseZone_of_not_startsZone (by simpa using hother)] at hloose
        cases hloose
      constructor
      · apply endsDigits_cons
        by_contra hdigit
        have hdigit : c.isDigit = true := by simpa using hdigit
        have hblank := isBlank_of_isDigit hdigit
        simp only [startsZone, hblank, Bool.false_or, List.contains_iff_mem, List.mem_cons,
          List.not_mem_nil, or_false] at hstarts
        rcases hstarts with rfl | rfl | rfl | rfl | rfl <;> cases hdigit
      · intro hpoint
        cases hpoint
        cases hstarts

/-- The forms of a local date and time. -/
def Form.zoneless : List Form := [fractionOfSecond, secondItems, minuteItems]

variable {form : Form} {parts : Parts} {chars zone : List Char} {offset : Int}

theorem Form.isLocal_of_mem_zoneless (hform : form ∈ zoneless) :
    ∀ item ∈ form, item.isLocal = true := by
  have hall : ∀ form ∈ zoneless, ∀ item ∈ form, item.isLocal = true := by decide
  exact hall form hform

theorem Item.keeps_offset {item : Item} (hlocal : item.isLocal = true) {next : Parts}
    (hchanges : item.Changes parts next) : next.offset = parts.offset := by
  cases item with
  | digits field width | number field =>
      obtain ⟨value, rfl⟩ := hchanges
      cases field <;> rfl
  | oneOf choices => rw [hchanges]
  | fraction =>
      obtain ⟨nano, rfl⟩ := hchanges
      rfl
  | _ => cases hlocal

theorem Form.Reads.offset_of_isLocal (hreads : form.Reads chars parts)
    (hlocal : ∀ item ∈ form, item.isLocal = true) : parts.offset = 0 :=
  readItems_keeps Parts.offset (fun item hitem _ _ => Item.keeps_offset (hlocal item hitem)) hreads

theorem Form.Reads.offset_eq_zero (hreads : form.Reads chars parts) (hform : form ∈ zoneless) :
    parts.offset = 0 :=
  hreads.offset_of_isLocal (isLocal_of_mem_zoneless hform)

theorem Form.zoneless_subset_all : ∀ form ∈ zoneless, form ∈ all := by decide

theorem Form.reads_looseZone (hlocal : ∀ item ∈ form, item.isLocal = true)
    (hreads : form.Reads chars parts) (hzone : readZone zone = some (offset, [])) :
    (form ++ [Item.looseZone]).Reads (chars ++ zone) { parts with offset } := by
  obtain ⟨hdigits, hpoint⟩ := readZone_head hzone
  refine readItems_append_eq_some_iff.2 ⟨parts, [] ++ zone, ?_, ?_⟩
  · exact readItems_extend hlocal hreads hdigits hpoint
  · refine readItems_cons_eq_some_iff.2 ⟨{ parts with offset }, [], ?_, rfl⟩
    simp only [List.nil_append, Item.read, readLooseZone_of_readZone hzone, Option.map_some]

/-- A zone after a local time is read by a form with a zone. -/
theorem Form.exists_reads_zone (hform : form ∈ zoneless) (hreads : form.Reads chars parts)
    (hzone : readZone zone = some (offset, [])) :
    ∃ zoned ∈ all, zoned.Reads (chars ++ zone) { parts with offset } := by
  have hlocal := isLocal_of_mem_zoneless hform
  have hseconds : secondsWithZone = fractionOfSecond ++ [Item.looseZone] := by decide
  have hfraction : fractionOfSecond ∈ zoneless := by decide
  simp only [zoneless, List.mem_cons, List.not_mem_nil, or_false] at hform
  rcases hform with rfl | rfl | rfl
  · refine ⟨secondsWithZone, by decide, ?_⟩
    rw [hseconds]
    exact reads_looseZone hlocal hreads hzone
  · refine ⟨secondsWithZone, by decide, ?_⟩
    rw [hseconds]
    exact reads_looseZone (isLocal_of_mem_zoneless hfraction) (reads_fractionOfSecond hreads) hzone
  · exact ⟨minutesWithZone, by decide, reads_looseZone hlocal hreads hzone⟩

theorem toList_of_trim_eq_self {text : String} (htrimmed : Text.trim text = text) :
    Text.trimmed text.toList = text.toList := by
  rw [← String.toList_inj, Text.trim, String.toList_ofList] at htrimmed
  exact htrimmed

theorem Form.ne_nil_of_reads (hform : form ∈ zoneless) (hreads : form.Reads chars parts) :
    chars ≠ [] := by
  have hneeds : ∀ form ∈ zoneless, form.any Item.needsText = true := by decide
  rintro rfl
  rw [Form.Reads, readItems_nil_of_needsText (hneeds form hform)] at hreads
  cases hreads

theorem isBlank_of_mem_zoneChars (hsign : (sign, factor) ∈ signs) {c : Char}
    (hc : c ∈ zoneChars sign hours minutes) : isBlank c = false := by
  rcases List.mem_cons.1 hc with rfl | hrest
  · exact isBlank_of_mem_signs hsign
  · rcases List.mem_append.1 hrest with hdigit | hrest
    · exact isBlank_of_isDigit (Date.isDigit_of_mem_padded hdigit)
    · rcases List.mem_cons.1 hrest with rfl | hdigit
      · decide
      · exact isBlank_of_isDigit (Date.isDigit_of_mem_padded hdigit)

/-- A local time with a zone after it is read as the instant of the local time, moved. -/
theorem parse_append_zone {text : String} {instant : Instant} (htrimmed : Text.trim text = text)
    (hform : form ∈ Form.zoneless) (hread : form.read text.toList = some instant)
    (hzone : readZone zone = some (offset, [])) (hblank : ∀ c ∈ zone, isBlank c = false)
    (hsmall : offset.natAbs < Instant.secondsPerDay.natAbs) (nullDate : Date) :
    parse nullDate (text ++ String.ofList zone) =
      if (instant.moved offset).universalDay.InRange then some (instant.moved offset)
      else none := by
  obtain ⟨parts, hreads, hinstant⟩ := Form.read_eq_some_iff.1 hread
  obtain ⟨zoned, hzoned, hboth⟩ := Form.exists_reads_zone hform hreads hzone
  have hlist := toList_of_trim_eq_self htrimmed
  have hwhole : Text.trimmed (text ++ String.ofList zone).toList = text.toList ++ zone := by
    rw [String.toList_append, String.toList_ofList]
    exact trimmed_append hlist (Form.ne_nil_of_reads hform hreads) hblank
  rw [← hwhole] at hboth
  rw [parse_of_reads hzoned hboth]
  exact Parts.instant?_withOffset hinstant (hreads.offset_eq_zero hform) hsmall

theorem offsetSeconds_small (hsign : (sign, factor) ∈ signs) (hhours : hours ≤ 23)
    (hminutes : minutes ≤ 59) :
    (offsetSeconds factor hours minutes).natAbs < Instant.secondsPerDay.natAbs := by
  rw [offsetSeconds, Instant.secondsPerDay]
  rcases mem_signs_iff.1 hsign with ⟨-, rfl⟩ | ⟨-, rfl⟩ | ⟨-, rfl⟩ <;> omega

end Calendar

/-- A local time that is read as an instant is read the same with `Z` after it. With hours and
minutes after it, it is read as the moved instant, on the same day, unless that is out of range. -/
theorem parseDate_append_zone (nullDate : Date) {text : String} {form : Form} {instant : Instant}
    (htrimmed : Text.trim text = text) (hform : form ∈ Form.zoneless)
    (hread : form.read text.toList = some instant) :
    parseDate nullDate text = .ok instant ∧ instant.offset = 0 ∧
      parseDate nullDate (text ++ "Z") = .ok instant ∧
      ∀ sign factor, (sign, factor) ∈ signs → ∀ hours minutes : Nat, hours ≤ 23 → minutes ≤ 59 →
        let offset : Int := factor * (hours * 3600 + minutes * 60)
        let moved : Instant := ⟨instant.second - offset, instant.nano, offset⟩
        let zoned := text ++ String.ofList (zoneChars sign hours minutes)
        (moved.universalDay.InRange →
          parseDate nullDate zoned = .ok moved ∧ moved.day = instant.day) ∧
        (¬moved.universalDay.InRange →
          parseDate nullDate zoned = .error (.invalidDate zoned)) := by
  obtain ⟨parts, hreads, hinstant⟩ := Form.read_eq_some_iff.1 hread
  obtain ⟨date, -, hdate, hrange⟩ := Parts.instant?_eq_some_iff.1 hinstant
  have hlist : Text.trimmed text.toList = text.toList := toList_of_trim_eq_self htrimmed
  have hzero : instant.offset = 0 := by
    rw [← hdate]
    exact hreads.offset_eq_zero hform
  have hmoved : instant.moved 0 = instant := by
    rw [Instant.moved, Int.sub_zero, ← hzero]
  refine ⟨?_, hzero, ?_, ?_⟩
  · rw [← hlist] at hreads
    rw [parseDate_eq_ok_iff, parse_of_reads (Form.zoneless_subset_all form hform) hreads, hinstant]
  · have hzone : readZone ['Z'] = some (0, []) := rfl
    have hblank : ∀ c ∈ ['Z'], isBlank c = false := List.forall_mem_singleton.2 (by decide)
    have hzulu := parse_append_zone htrimmed hform hread hzone hblank (by decide) nullDate
    rw [hmoved, if_pos hrange] at hzulu
    exact parseDate_eq_ok_iff.2 hzulu
  · intro sign factor hsign hours minutes hhours hminutes offset moved zoned
    have hparse := parse_append_zone htrimmed hform hread
      (readZone_zoneChars hsign hhours hminutes) (fun _ => isBlank_of_mem_zoneChars hsign)
      (offsetSeconds_small hsign hhours hminutes) nullDate
    constructor
    · intro hinside
      exact ⟨parseDate_eq_ok_iff.2 (hparse.trans (if_pos hinside)), Instant.day_moved hzero offset⟩
    · intro houtside
      exact parseDate_eq_error_iff.2 ⟨hparse.trans (if_neg houtside), rfl⟩

/-- The last leap second of all can be moved back but not forth. -/
theorem parseDate_append_zone_lastSecond :
    let text := "+262142-12-31T23:59:60.25"
    let instant : Instant := ⟨endSecond - 1, 1250000000, 0⟩
    Text.trim text = text ∧ Form.fractionOfSecond ∈ Form.zoneless ∧
      Form.fractionOfSecond.read text.toList = some instant ∧
      parseDate .epoch (text ++ "Z") = .ok instant ∧
      ('+', 1) ∈ signs ∧ ('-', -1) ∈ signs ∧
      parseDate .epoch (text ++ String.ofList (zoneChars '+' 0 30)) =
        .ok ⟨endSecond - 1801, 1250000000, 1800⟩ ∧
      parseDate .epoch (text ++ String.ofList (zoneChars '-' 0 30)) =
        .error (.invalidDate (text ++ String.ofList (zoneChars '-' 0 30))) := by
  intro text instant
  have htrimmed : Text.trim text = text := by decide +kernel
  have hform : Form.fractionOfSecond ∈ Form.zoneless := by decide
  have hread : Form.fractionOfSecond.read text.toList = some instant := by decide +kernel
  have hplus : ('+', 1) ∈ signs := by decide
  have hminus : ('-', -1) ∈ signs := by decide
  obtain ⟨-, -, hzulu, hzoned⟩ := parseDate_append_zone .epoch htrimmed hform hread
  have hback := (hzoned '+' 1 hplus 0 30 (by decide) (by decide)).1 (by decide +kernel)
  have hforth := (hzoned '-' (-1) hminus 0 30 (by decide) (by decide)).2 (by decide +kernel)
  exact ⟨htrimmed, hform, hread, hzulu, hplus, hminus, hback.1, hforth⟩

end BranchingInterview
