import BranchingInterview.Proofs.Calendar.DaySequence
import BranchingInterview.Proofs.NullDate

/-!
Another date for `null`. A later date in place of `null` is felt only where one of the two texts of a
comparison is `null`, and there as it is expected: what was after a bound stays after it, and what comes
before a bound now came before it already. Whether a comparison fails does not depend on the date.
-/

namespace BranchingInterview

open Calendar

/-- A text of a comparison is `null`, perhaps between blanks. -/
def IsNull (side : Option String) : Prop := ∃ text ∈ side, Text.trim text = "null"

instance (side : Option String) : Decidable (IsNull side) :=
  inferInstanceAs (Decidable (∃ text ∈ side, Text.trim text = "null"))

namespace Instant

variable {first second third : Instant}

theorem lt_irrefl (instant : Instant) : ¬instant < instant := by
  rw [lt_iff]
  omega

theorem le_refl (instant : Instant) : instant ≤ instant := lt_irrefl instant

theorem lt_of_lt_of_le (hfirst : first < second) (hsecond : second ≤ third) : first < third := by
  rw [le_iff_not_lt] at hsecond
  rw [lt_iff] at *
  omega

theorem lt_of_le_of_lt (hfirst : first ≤ second) (hsecond : second < third) : first < third := by
  rw [le_iff_not_lt] at hfirst
  rw [lt_iff] at *
  omega

theorem startOfDay_le {earlier later : Date} (hle : earlier ≤ later) :
    startOfDay earlier ≤ startOfDay later := by
  have hnumber := Date.dayNumber_le_iff.2 hle
  rw [le_iff_not_lt, lt_iff]
  simp only [startOfDay, secondsPerDay]
  omega

end Instant

/-! What an operator asks of two instants, as the instants move. -/

namespace Operator

variable {operator : Operator} {first other last bound : Instant}

theorem Asks.of_later (hlater : operator ∈ [after, afterOrEqual]) (hfirst : first ≤ other)
    (hlast : bound ≤ last) (hasks : operator.Asks first last) : operator.Asks other bound := by
  simp only [List.mem_cons, List.not_mem_nil, or_false] at hlater
  rcases hlater with rfl | rfl
  · exact Instant.lt_of_le_of_lt hlast (Instant.lt_of_lt_of_le hasks hfirst)
  · exact Instant.le_trans hlast (Instant.le_trans hasks hfirst)

theorem Asks.of_earlier (hearlier : operator ∈ [before, beforeOrEqual]) (hfirst : other ≤ first)
    (hlast : last ≤ bound) (hasks : operator.Asks first last) : operator.Asks other bound := by
  simp only [List.mem_cons, List.not_mem_nil, or_false] at hearlier
  rcases hearlier with rfl | rfl
  · exact Instant.lt_of_le_of_lt hfirst (Instant.lt_of_lt_of_le hasks hlast)
  · exact Instant.le_trans hfirst (Instant.le_trans hasks hlast)

/-- Of an instant and itself an operator asks the same, whichever instant it is. -/
theorem asks_self_iff : operator.Asks first first ↔ operator.Asks other other := by
  cases operator with
  | after | before => exact iff_of_false (Instant.lt_irrefl _) (Instant.lt_irrefl _)
  | afterOrEqual | beforeOrEqual => exact iff_of_true (Instant.le_refl _) (Instant.le_refl _)
  | equalsDate => exact iff_of_true rfl rfl
  | _ => exact Iff.rfl

end Operator

/-! The two texts of a comparison under two dates for `null`. -/

section

variable {earlier later : Date} {side : Option String}

theorem readSide_of_isNull (hnull : IsNull side) (nullDate : Date) :
    readSide nullDate side = some (.ok (.startOfDay nullDate)) := by
  obtain ⟨text, rfl, htext⟩ := hnull
  exact readSide_of_parse (parse_of_null htext nullDate)

theorem readSide_of_not_isNull (hother : ¬IsNull side) :
    readSide earlier side = readSide later side := by
  cases side with
  | none => rfl
  | some text =>
      have htext : Text.trimmed text.toList ≠ nullText := by
        intro htext
        exact hother ⟨text, rfl, trim_eq_null_iff.2 htext⟩
      simp only [readSide, parseDate, parse, if_neg htext]

/-- Two readings of a text are the same, or the first is of an earlier instant. -/
inductive NotLater : Option (Except ScriptError Instant) → Option (Except ScriptError Instant) → Prop
  | same (reading : Option (Except ScriptError Instant)) : NotLater reading reading
  | moved {first last : Instant} (hle : first ≤ last) :
      NotLater (some (.ok first)) (some (.ok last))

theorem NotLater.exists_ok {left right : Option (Except ScriptError Instant)}
    (hmoved : NotLater left right) :
    (∀ first, left = some (.ok first) → ∃ last, right = some (.ok last) ∧ first ≤ last) ∧
      ∀ last, right = some (.ok last) → ∃ first, left = some (.ok first) ∧ first ≤ last := by
  cases hmoved with
  | same =>
      exact ⟨fun first hread => ⟨first, hread, Instant.le_refl first⟩,
        fun last hread => ⟨last, hread, Instant.le_refl last⟩⟩
  | @moved start stop hle =>
      constructor
      · rintro first hread
        obtain rfl := Except.ok.inj (Option.some.inj hread)
        exact ⟨stop, rfl, hle⟩
      · rintro last hread
        obtain rfl := Except.ok.inj (Option.some.inj hread)
        exact ⟨start, rfl, hle⟩

theorem notLater_of_le (hle : earlier ≤ later) (side : Option String) :
    NotLater (readSide earlier side) (readSide later side) := by
  by_cases hnull : IsNull side
  · rw [readSide_of_isNull hnull, readSide_of_isNull hnull]
    exact .moved (Instant.startOfDay_le hle)
  · rw [readSide_of_not_isNull hnull]
    exact .same _

end

namespace Operator

variable {operator : Operator} {nullDate other : Date} {response operand : Option String}

theorem holds_eq_compareDates (hdate : operator.isDate = true) :
    operator.holds nullDate response operand =
      compareDates nullDate (fun first last => operator.Asks first last) response operand := by
  cases operator with
  | after | afterOrEqual | before | beforeOrEqual | equalsDate => rfl
  | _ => cases hdate

/-- A date operator holds of two texts that are read as instants of which it holds. -/
theorem holds_eq_true_iff (hdate : operator.isDate = true) :
    operator.holds nullDate response operand = .ok true ↔
      ∃ first last, readSide nullDate response = some (.ok first) ∧
        readSide nullDate operand = some (.ok last) ∧ operator.Asks first last := by
  rw [holds_eq_compareDates hdate, compareDates_eq_readSide]
  rcases readSide nullDate response with _ | error | first
  · simp
  · cases readSide nullDate operand <;> simp [bind, Except.bind]
  · rcases readSide nullDate operand with _ | error | last
    · simp
    · simp [bind, Except.bind]
    · simp [bind, Except.bind, pure, Except.pure]

theorem holds_of_later (hlater : operator ∈ [after, afterOrEqual])
    (hresponse : NotLater (readSide nullDate response) (readSide other response))
    (hoperand : NotLater (readSide other operand) (readSide nullDate operand))
    (hholds : operator.holds nullDate response operand = .ok true) :
    operator.holds other response operand = .ok true := by
  have hdate : ∀ operator ∈ [after, afterOrEqual], operator.isDate = true := by decide
  obtain ⟨first, last, hfirst, hlast, hasks⟩ := (holds_eq_true_iff (hdate _ hlater)).1 hholds
  obtain ⟨moved, hmoved, hfirstLe⟩ := hresponse.exists_ok.1 first hfirst
  obtain ⟨bound, hbound, hboundLe⟩ := hoperand.exists_ok.2 last hlast
  exact (holds_eq_true_iff (hdate _ hlater)).2
    ⟨moved, bound, hmoved, hbound, hasks.of_later hlater hfirstLe hboundLe⟩

theorem holds_of_earlier (hearlier : operator ∈ [before, beforeOrEqual])
    (hresponse : NotLater (readSide other response) (readSide nullDate response))
    (hoperand : NotLater (readSide nullDate operand) (readSide other operand))
    (hholds : operator.holds nullDate response operand = .ok true) :
    operator.holds other response operand = .ok true := by
  have hdate : ∀ operator ∈ [before, beforeOrEqual], operator.isDate = true := by decide
  obtain ⟨first, last, hfirst, hlast, hasks⟩ := (holds_eq_true_iff (hdate _ hearlier)).1 hholds
  obtain ⟨moved, hmoved, hmovedLe⟩ := hresponse.exists_ok.2 first hfirst
  obtain ⟨bound, hbound, hlastLe⟩ := hoperand.exists_ok.1 last hlast
  exact (holds_eq_true_iff (hdate _ hearlier)).2
    ⟨moved, bound, hmoved, hbound, hasks.of_earlier hearlier hmovedLe hlastLe⟩

/-- Where both texts are `null`, or neither is, no operator tells one date for it from another. -/
theorem holds_eq_of_isNull_iff (hboth : IsNull response ↔ IsNull operand) :
    operator.holds nullDate response operand = operator.holds other response operand := by
  by_cases hdate : operator.isDate = true
  · by_cases hnull : IsNull response
    · obtain ⟨left, rfl, hleft⟩ := hnull
      obtain ⟨right, rfl, hright⟩ := hboth.1 ⟨left, rfl, hleft⟩
      rw [holds_of_parse hdate (parse_of_null hleft _) (parse_of_null hright _),
        holds_of_parse hdate (parse_of_null hleft _) (parse_of_null hright _)]
      exact congrArg Except.ok (decide_eq_decide.2 asks_self_iff)
    · exact holds_congr hdate (readSide_of_not_isNull hnull)
        (readSide_of_not_isNull fun hoperand => hnull (hboth.2 hoperand))
  · cases operator with
    | after | afterOrEqual | before | beforeOrEqual | equalsDate => exact absurd rfl hdate
    | _ => rfl

end Operator

namespace Comparison

variable {comparison : Comparison} {operator : Operator} {nullDate other : Date}
  {responses : Responses}

theorem evaluate_imp
    (hholds : operator.holds nullDate (comparison.resolve responses) comparison.operand = .ok true →
      operator.holds other (comparison.resolve responses) comparison.operand = .ok true) :
    ({ comparison with operator } : Comparison).evaluate nullDate responses = .ok true →
      ({ comparison with operator } : Comparison).evaluate other responses = .ok true := by
  rw [evaluate, evaluate]
  by_cases hnow : ({ comparison with operator } : Comparison).holdsAtOnce = true
  · rw [if_pos hnow, if_pos hnow]
    exact id
  · rw [if_neg hnow, if_neg hnow]
    exact hholds

end Comparison

/-- A later date for `null` changes nothing where both texts of a comparison are `null` or neither is,
and no failure. A response that alone is `null` is after all that it was after, and comes before what
it now comes before already; with an operand that alone is `null` it is the other way round. -/
theorem evaluate_of_later_null {earlier later : Date} (hle : earlier ≤ later)
    (comparison : Comparison) (responses : Responses) :
    let result (nullDate : Date) (operator : Operator) :=
      ({ comparison with operator } : Comparison).evaluate nullDate responses
    let response := comparison.resolve responses
    let operand := comparison.operand
    ((IsNull response ↔ IsNull operand) → ∀ operator,
        result earlier operator = result later operator) ∧
      (IsNull response → ¬IsNull operand →
        (∀ operator ∈ [Operator.after, .afterOrEqual],
          result earlier operator = .ok true → result later operator = .ok true) ∧
        ∀ operator ∈ [Operator.before, .beforeOrEqual],
          result later operator = .ok true → result earlier operator = .ok true) ∧
      (¬IsNull response → IsNull operand →
        (∀ operator ∈ [Operator.after, .afterOrEqual],
          result later operator = .ok true → result earlier operator = .ok true) ∧
        ∀ operator ∈ [Operator.before, .beforeOrEqual],
          result earlier operator = .ok true → result later operator = .ok true) ∧
      ∀ operator error,
        result earlier operator = .error error ↔ result later operator = .error error := by
  intro result response operand
  have hmoves (side : Option String) : NotLater (readSide earlier side) (readSide later side) :=
    notLater_of_le hle side
  have hstays {side : Option String} (hother : ¬IsNull side) :
      NotLater (readSide later side) (readSide earlier side) := by
    rw [readSide_of_not_isNull hother]
    exact .same _
  refine ⟨fun hboth operator => ?_, fun hresponse hoperand => ⟨fun operator hlater => ?_,
    fun operator hearlier => ?_⟩, fun hresponse hoperand => ⟨fun operator hlater => ?_,
    fun operator hearlier => ?_⟩, fun operator error => ?_⟩
  · exact if_congr Iff.rfl rfl (Operator.holds_eq_of_isNull_iff hboth)
  · exact Comparison.evaluate_imp (Operator.holds_of_later hlater (hmoves _) (hstays hoperand))
  · exact Comparison.evaluate_imp (Operator.holds_of_earlier hearlier (hmoves _) (hstays hoperand))
  · exact Comparison.evaluate_imp (Operator.holds_of_later hlater (hstays hresponse) (hmoves _))
  · exact Comparison.evaluate_imp (Operator.holds_of_earlier hearlier (hstays hresponse) (hmoves _))
  · rw [Comparison.evaluate_eq_error_iff, Comparison.evaluate_eq_error_iff]

/-- A response in blanks that alone is `null`, against a morning east of universal time; an operand
that alone is `null`, against the day it stands for; and both. -/
theorem evaluate_of_later_null_morning :
    let earlier : Date := ⟨2000, 6, 1, by decide, by decide, by decide, by decide⟩
    let later : Date := ⟨2001, 1, 1, by decide, by decide, by decide, by decide⟩
    let answered (text : String) : Responses := .ofList [("q", { answer := .text text })]
    let morning : Comparison :=
      { operator := .after, key := some "q", operand := some "2000-06-01T04:00+05:00" }
    let bound : Comparison := { operator := .beforeOrEqual, key := some "q", operand := some "null" }
    earlier ≤ later ∧ IsNull (morning.resolve (answered " null ")) ∧ ¬IsNull morning.operand ∧
      morning.evaluate earlier (answered " null ") = .ok true ∧
      morning.evaluate later (answered " null ") = .ok true ∧
      ¬IsNull (bound.resolve (answered "2000-06-01")) ∧ IsNull bound.operand ∧
      bound.evaluate later (answered "2000-06-01") = .ok true ∧
      bound.evaluate earlier (answered " null ") = bound.evaluate later (answered " null ") := by
  intro earlier later answered morning bound
  have hle : earlier ≤ later := by decide
  have hresponse : IsNull (morning.resolve (answered " null ")) := by decide +kernel
  have hoperand : ¬IsNull morning.operand := by decide +kernel
  have hresponse' : ¬IsNull (bound.resolve (answered "2000-06-01")) := by decide +kernel
  have hoperand' : IsNull bound.operand := by decide +kernel
  have hmorning : morning.evaluate earlier (answered " null ") = .ok true := by decide +kernel
  have hbound : bound.evaluate earlier (answered "2000-06-01") = .ok true := by decide +kernel
  obtain ⟨-, hlater, -⟩ := evaluate_of_later_null hle morning (answered " null ")
  obtain ⟨-, -, hearlier, -⟩ := evaluate_of_later_null hle bound (answered "2000-06-01")
  obtain ⟨hboth, -⟩ := evaluate_of_later_null hle bound (answered " null ")
  refine ⟨hle, hresponse, hoperand, hmorning, ?_, hresponse', hoperand', ?_, ?_⟩
  · exact (hlater hresponse hoperand).1 .after (by decide) hmorning
  · exact (hearlier hresponse' hoperand').2 .beforeOrEqual (by decide) hbound
  · exact hboth (iff_of_true hresponse hoperand') .beforeOrEqual

end BranchingInterview
