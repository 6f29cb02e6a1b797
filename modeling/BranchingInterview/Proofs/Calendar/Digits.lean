import BranchingInterview.Calendar.Form
import Mathlib.Data.List.TakeWhile

/-!
What the items of a form read. A number is all the digits that stand at its place, up to a limit, so
what has been read stays as it is when the text goes on with a character that is no digit.
-/

namespace BranchingInterview.Calendar

open Text

/-- No digit stands at the head of a text. -/
def EndsDigits (chars : List Char) : Prop := ∀ c ∈ chars.head?, c.isDigit = false

/-- A text starts with some digits, and with no more of them unless there is a limit. -/
structure StartsWithDigits (limit : Nat) (chars digits rest : List Char) : Prop where
  split : chars = digits ++ rest
  isDigit : ∀ c ∈ digits, c.isDigit = true
  length_le : digits.length ≤ limit
  ends : digits.length = limit ∨ EndsDigits rest

theorem endsDigits_nil : EndsDigits [] := by simp [EndsDigits]

theorem endsDigits_cons {c : Char} (hc : c.isDigit = false) (rest : List Char) :
    EndsDigits (c :: rest) := by simpa [EndsDigits] using hc

theorem EndsDigits.append {rest suffix : List Char} (hrest : EndsDigits rest)
    (hsuffix : EndsDigits suffix) : EndsDigits (rest ++ suffix) := by
  cases rest with
  | nil => exact hsuffix
  | cons c rest => exact hrest

/-- What is taken of a text ends where the test first fails. -/
theorem takeWhile_append_eq {test : Char → Bool} {head tail : List Char}
    (hhead : ∀ c ∈ head, test c = true) (htail : ∀ c ∈ tail.head?, test c = false) :
    (head ++ tail).takeWhile test = head := by
  rw [List.takeWhile_append_of_pos hhead]
  cases tail with
  | nil => simp
  | cons c tail =>
      have hc : test c = false := htail c rfl
      simp [hc]

theorem EndsDigits.take {chars : List Char} (hends : EndsDigits chars) (limit : Nat) :
    EndsDigits (chars.take limit) := by
  intro c hc
  rw [List.head?_take] at hc
  split at hc
  · cases hc
  · exact hends c hc

namespace StartsWithDigits

variable {limit : Nat} {chars digits rest suffix : List Char}

theorem spanDigits_eq (hstarts : StartsWithDigits limit chars digits rest) :
    spanDigits limit chars = (digits, rest) := by
  obtain ⟨rfl, hdigits, hlength, hends⟩ := hstarts
  have htail : EndsDigits (rest.take (limit - digits.length)) := by
    rcases hends with hfull | hends
    · simp [hfull, EndsDigits]
    · exact hends.take _
  have htake : ((digits ++ rest).take limit).takeWhile Char.isDigit = digits := by
    rw [List.take_append, List.take_of_length_le hlength, takeWhile_append_eq hdigits htail]
  simp only [spanDigits, htake, List.drop_left]

theorem extend (hstarts : StartsWithDigits limit chars digits rest) (hsuffix : EndsDigits suffix) :
    StartsWithDigits limit (chars ++ suffix) digits (rest ++ suffix) where
  split := by rw [hstarts.split, List.append_assoc]
  isDigit := hstarts.isDigit
  length_le := hstarts.length_le
  ends := hstarts.ends.imp_right fun hends => hends.append hsuffix

/-- A text cannot have more digits at its head than characters. -/
theorem endsDigits (hstarts : StartsWithDigits chars.length chars digits rest) :
    EndsDigits rest := by
  rcases hstarts.ends with hfull | hends
  · have hlength := congrArg List.length hstarts.split
    rw [List.length_append, hfull] at hlength
    rw [List.length_eq_zero_iff.1 (by omega : rest.length = 0)]
    exact endsDigits_nil
  · exact hends

theorem extend_all (hstarts : StartsWithDigits chars.length chars digits rest)
    (hsuffix : EndsDigits suffix) :
    StartsWithDigits (chars ++ suffix).length (chars ++ suffix) digits (rest ++ suffix) where
  split := by rw [hstarts.split, List.append_assoc]
  isDigit := hstarts.isDigit
  length_le := by
    have hlength := hstarts.length_le
    rw [List.length_append]
    omega
  ends := Or.inr (hstarts.endsDigits.append hsuffix)

theorem exists_head (hstarts : StartsWithDigits limit chars digits rest) (hdigits : digits ≠ []) :
    ∃ c after, chars = c :: after ∧ c.isDigit = true := by
  cases digits with
  | nil => exact absurd rfl hdigits
  | cons c digits => exact ⟨c, digits ++ rest, hstarts.split, hstarts.isDigit c List.mem_cons_self⟩

end StartsWithDigits

theorem exists_startsWithDigits (limit : Nat) (chars : List Char) :
    ∃ digits rest, StartsWithDigits limit chars digits rest := by
  induction chars generalizing limit with
  | nil => exact ⟨[], [], rfl, by simp, by simp, Or.inr endsDigits_nil⟩
  | cons c chars ih =>
      cases limit with
      | zero => exact ⟨[], c :: chars, rfl, by simp, by simp, Or.inl rfl⟩
      | succ limit =>
          cases hc : c.isDigit with
          | false => exact ⟨[], c :: chars, rfl, by simp, by simp, Or.inr (endsDigits_cons hc chars)⟩
          | true =>
              obtain ⟨digits, rest, hsplit, hdigits, hlength, hends⟩ := ih limit
              refine ⟨c :: digits, rest, ?_, ?_, ?_, ?_⟩
              · rw [hsplit, List.cons_append]
              · simpa [hc] using hdigits
              · simpa using hlength
              · simpa using hends

variable {limit width value : Nat} {chars digits rest suffix : List Char}

theorem spanDigits_eq_iff :
    spanDigits limit chars = (digits, rest) ↔ StartsWithDigits limit chars digits rest := by
  constructor
  · intro hspan
    obtain ⟨found, left, hfound⟩ := exists_startsWithDigits limit chars
    rw [hfound.spanDigits_eq] at hspan
    cases hspan
    exact hfound
  · exact StartsWithDigits.spanDigits_eq

theorem readDigits_eq_some_iff :
    readDigits limit chars = some (value, rest) ↔
      ∃ digits, StartsWithDigits limit chars digits rest ∧ digits ≠ [] ∧
        natOfDigits digits = value := by
  obtain ⟨digits, left, hstarts⟩ := exists_startsWithDigits limit chars
  have hspan := hstarts.spanDigits_eq
  simp only [readDigits, hspan, List.isEmpty_iff, ← spanDigits_eq_iff, Prod.mk.injEq]
  by_cases hdigits : digits = []
  · simp [hdigits]
  · simp only [hdigits, ↓reduceIte, Option.some.injEq, Prod.mk.injEq]
    constructor
    · rintro ⟨hvalue, hrest⟩
      exact ⟨digits, ⟨rfl, hrest⟩, hdigits, hvalue⟩
    · rintro ⟨found, ⟨rfl, hrest⟩, -, hvalue⟩
      exact ⟨hvalue, hrest⟩

theorem readExactly_eq_some_iff :
    readExactly width chars = some (value, rest) ↔
      ∃ digits, StartsWithDigits width chars digits rest ∧ digits.length = width ∧
        natOfDigits digits = value := by
  obtain ⟨digits, left, hstarts⟩ := exists_startsWithDigits width chars
  have hspan := hstarts.spanDigits_eq
  simp only [readExactly, hspan, ← spanDigits_eq_iff, Prod.mk.injEq]
  by_cases hlength : digits.length = width
  · simp only [hlength, ↓reduceIte, Option.some.injEq, Prod.mk.injEq]
    constructor
    · rintro ⟨hvalue, hrest⟩
      exact ⟨digits, ⟨rfl, hrest⟩, hlength, hvalue⟩
    · rintro ⟨found, ⟨rfl, hrest⟩, -, hvalue⟩
      exact ⟨hvalue, hrest⟩
  · simp only [hlength, ↓reduceIte, reduceCtorEq, false_iff, not_exists, not_and]
    rintro found ⟨rfl, -⟩ hfound
    exact absurd hfound hlength

theorem readDigits_append (hread : readDigits limit chars = some (value, rest))
    (hsuffix : EndsDigits suffix) :
    readDigits limit (chars ++ suffix) = some (value, rest ++ suffix) := by
  obtain ⟨digits, hstarts, hdigits⟩ := readDigits_eq_some_iff.1 hread
  exact readDigits_eq_some_iff.2 ⟨digits, hstarts.extend hsuffix, hdigits⟩

theorem readAllDigits_append (hread : readAllDigits chars = some (value, rest))
    (hsuffix : EndsDigits suffix) :
    readAllDigits (chars ++ suffix) = some (value, rest ++ suffix) := by
  obtain ⟨digits, hstarts, hdigits⟩ := readDigits_eq_some_iff.1 hread
  exact readDigits_eq_some_iff.2 ⟨digits, hstarts.extend_all hsuffix, hdigits⟩

theorem readExactly_append (hread : readExactly width chars = some (value, rest))
    (hsuffix : EndsDigits suffix) :
    readExactly width (chars ++ suffix) = some (value, rest ++ suffix) := by
  obtain ⟨digits, hstarts, hdigits⟩ := readExactly_eq_some_iff.1 hread
  exact readExactly_eq_some_iff.2 ⟨digits, hstarts.extend hsuffix, hdigits⟩

theorem readDigits_of_readExactly (hread : readExactly width chars = some (value, rest))
    (hwidth : 0 < width) : readDigits width chars = some (value, rest) := by
  obtain ⟨digits, hstarts, hlength, hvalue⟩ := readExactly_eq_some_iff.1 hread
  refine readDigits_eq_some_iff.2 ⟨digits, hstarts, ?_, hvalue⟩
  rintro rfl
  exact absurd hlength (by simp; omega)

/-- The signs of a year, and how many digits may follow each of them in a text. -/
inductive YearSign : List Char → Int → List Char → Nat → Prop
  | plus (after : List Char) : YearSign ['+'] 1 after after.length
  | minus (after : List Char) : YearSign ['-'] (-1) after after.length
  | none (after : List Char) : YearSign [] 1 after 4

theorem readYear_eq_some_iff {year : Int} :
    readYear chars = some (year, rest) ↔
      ∃ sign factor after limit value, chars = sign ++ after ∧ YearSign sign factor after limit ∧
        readDigits limit after = some (value, rest) ∧ year = factor * value := by
  constructor
  · intro hread
    rw [readYear.eq_def] at hread
    split at hread <;> obtain ⟨⟨value, left⟩, hdigits, hpair⟩ := Option.map_eq_some_iff.1 hread <;>
      cases hpair
    · exact ⟨_, _, _, _, _, rfl, .plus _, hdigits, by simp⟩
    · exact ⟨_, _, _, _, _, rfl, .minus _, hdigits, by simp⟩
    · exact ⟨_, _, _, _, _, rfl, .none _, hdigits, by simp⟩
  · rintro ⟨sign, factor, after, limit, value, rfl, hsign, hread, rfl⟩
    cases hsign with
    | plus =>
        rw [List.singleton_append, readYear, readAllDigits, hread]
        simp
    | minus =>
        rw [List.singleton_append, readYear, readAllDigits, hread]
        simp
    | none =>
        obtain ⟨digits, hstarts, hdigits, -⟩ := readDigits_eq_some_iff.1 hread
        obtain ⟨c, after, rfl, hc⟩ := hstarts.exists_head hdigits
        rw [List.nil_append, readYear.eq_def]
        split
        · next heq =>
            cases heq
            cases hc
        · next heq =>
            cases heq
            cases hc
        · simp [hread]

end BranchingInterview.Calendar
