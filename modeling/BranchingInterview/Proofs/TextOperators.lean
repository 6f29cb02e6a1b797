import BranchingInterview.Proofs.Text.ByteOrder
import BranchingInterview.Proofs.TextOrder

/-!
The operators that order texts, as the halves of one total order. It is the order of the bytes of the
texts and of their code points: a text that another one goes on from comes first, and otherwise the
first place where two texts differ decides.
-/

namespace BranchingInterview

namespace Text

section

variable {α : Type} [LT α] {left right : List α} {first second : α}

/-- The second sequence goes on from the first, or has the greater member where they first differ. -/
def Precedes (left right : List α) : Prop :=
  (∃ member rest, right = left ++ member :: rest) ∨
    ∃ common first second rest others, left = common ++ first :: rest ∧
      right = common ++ second :: others ∧ first < second

theorem not_precedes_nil : ¬Precedes left [] := by
  rintro (⟨member, rest, hnil⟩ | ⟨common, first, second, rest, others, -, hnil, -⟩)
  · exact List.append_ne_nil_of_right_ne_nil _ (List.cons_ne_nil _ _) hnil.symm
  · exact List.append_ne_nil_of_right_ne_nil _ (List.cons_ne_nil _ _) hnil.symm

theorem precedes_cons_iff :
    Precedes (first :: left) (second :: right) ↔
      first < second ∨ first = second ∧ Precedes left right := by
  constructor
  · rintro (⟨member, rest, hsplit⟩ | ⟨common, low, high, rest, others, hleft, hright, hlt⟩)
    · obtain ⟨hhead, htail⟩ := List.cons.inj hsplit
      exact Or.inr ⟨hhead.symm, Or.inl ⟨member, rest, htail⟩⟩
    · cases common with
      | nil =>
          rw [(List.cons.inj hleft).1, (List.cons.inj hright).1]
          exact Or.inl hlt
      | cons member common =>
          obtain ⟨hfirst, htail⟩ := List.cons.inj hleft
          obtain ⟨hsecond, hmore⟩ := List.cons.inj hright
          exact Or.inr ⟨hfirst.trans hsecond.symm,
            Or.inr ⟨common, low, high, rest, others, htail, hmore, hlt⟩⟩
  · rintro (hlt | ⟨rfl, ⟨member, rest, rfl⟩ | ⟨common, low, high, rest, others, rfl, rfl, hlt⟩⟩)
    · exact Or.inr ⟨[], first, second, left, right, rfl, rfl, hlt⟩
    · exact Or.inl ⟨member, rest, rfl⟩
    · exact Or.inr ⟨first :: common, low, high, rest, others, rfl, rfl, hlt⟩

theorem lt_iff_precedes : left < right ↔ Precedes left right := by
  induction left generalizing right with
  | nil =>
      cases right with
      | nil => exact iff_of_false (List.not_lt_nil _) not_precedes_nil
      | cons member rest => exact iff_of_true (List.nil_lt_cons _ _) (Or.inl ⟨member, rest, rfl⟩)
  | cons first left ih =>
      cases right with
      | nil => exact iff_of_false (List.not_lt_nil _) not_precedes_nil
      | cons second right => rw [List.cons_lt_cons_iff, precedes_cons_iff, ih]

end

def codePoints (text : String) : List Nat := text.toList.map Char.toNat

theorem map_toNat_lt_iff {left right : List Char} :
    left.map Char.toNat < right.map Char.toNat ↔ left < right := by
  induction left generalizing right with
  | nil => cases right <;> simp
  | cons c left ih =>
      cases right with
      | nil => simp
      | cons d right =>
          have hcodes : c.toNat < d.toNat ↔ c < d := Iff.rfl
          rw [List.map_cons, List.map_cons, List.cons_lt_cons_iff, List.cons_lt_cons_iff, ih, hcodes,
            Char.toNat_inj]

theorem codePoints_lt_iff {left right : String} :
    codePoints left < codePoints right ↔ left < right := by
  rw [codePoints, codePoints, map_toNat_lt_iff, String.lt_iff_toList_lt]

end Text

open Text

namespace Comparison

/-- What a comparison gives when an operator stands in it. -/
def resultOf (comparison : Comparison) (operator : Operator) (nullDate : Date)
    (responses : Responses) : Except ScriptError Bool :=
  ({ comparison with operator } : Comparison).evaluate nullDate responses

/-- The comparison is one of a response with some text and an operand. -/
structure Compares (comparison : Comparison) (responses : Responses) (left right : String) :
    Prop where
  hasKey : comparison.hasKey = true
  response : comparison.resolve responses = some left
  operand : comparison.operand = some right

/-- Equality and the operators that order texts, on two texts, are one order and its reverse. -/
structure OrdersTexts (result : Operator → Except ScriptError Bool) (left right : String) : Prop where
  one_holds :
    result .gt = .ok true ∧ result .eq = .ok false ∧ result .lt = .ok false ∨
      result .gt = .ok false ∧ result .eq = .ok true ∧ result .lt = .ok false ∨
      result .gt = .ok false ∧ result .eq = .ok false ∧ result .lt = .ok true
  gte_iff : result .gte = .ok true ↔ result .gt = .ok true ∨ result .eq = .ok true
  lte_iff : result .lte = .ok true ↔ result .lt = .ok true ∨ result .eq = .ok true
  gt_iff : result .gt = .ok true ↔ bytes right < bytes left
  lt_iff : result .lt = .ok true ↔ bytes left < bytes right

theorem resultOf_of_missing {comparison : Comparison} {responses : Responses}
    (hkey : comparison.hasKey = true)
    (hmissing : comparison.resolve responses ∈ [none, some ""] ∨
      comparison.operand ∈ [none, some ""])
    {operator : Operator} (hnumber : operator.isNumber = true) (nullDate : Date) :
    comparison.resultOf operator nullDate responses = .ok false := by
  rw [resultOf, evaluate_of_isNumber hkey hnumber, compareTexts_of_missing hmissing]

namespace Compares

variable {comparison : Comparison} {responses : Responses} {left right : String}

theorem resultOf_of_isNumber (hcompares : comparison.Compares responses left right)
    {operator : Operator} (hnumber : operator.isNumber = true) (nullDate : Date) :
    comparison.resultOf operator nullDate responses =
      .ok (left != "" && (right != "" && operator.orders left right)) := by
  rw [resultOf, evaluate_of_isNumber hcompares.hasKey hnumber, hcompares.response,
    hcompares.operand, compareTexts_some]

theorem resultOf_eq (hcompares : comparison.Compares responses left right) (nullDate : Date) :
    comparison.resultOf .eq nullDate responses = .ok (decide (left = right)) := by
  rw [resultOf, evaluate_of_hasKey hcompares.hasKey (by decide), hcompares.response,
    hcompares.operand, Operator.holds, Option.isSome_some, Bool.true_and, Option.some_beq_some,
    beq_eq_decide]

theorem ordersTexts (hcompares : comparison.Compares responses left right) (hleft : left ≠ "")
    (hright : right ≠ "") (nullDate : Date) :
    OrdersTexts (fun operator => comparison.resultOf operator nullDate responses) left right := by
  have hresult (operator : Operator) (hnumber : operator.isNumber = true) :
      comparison.resultOf operator nullDate responses = .ok (operator.orders left right) := by
    rw [hcompares.resultOf_of_isNumber hnumber, bne_iff_ne.2 hleft, bne_iff_ne.2 hright,
      Bool.true_and, Bool.true_and]
  constructor <;> simp only [hcompares.resultOf_eq, hresult .gt rfl, hresult .gte rfl,
    hresult .lt rfl, hresult .lte rfl, Operator.orders, Except.ok.injEq, decide_eq_true_iff,
    decide_eq_false_iff_not, bytes_lt_bytes_iff]
  case one_holds =>
    rcases lt_trichotomy left right with hlt | heq | hgt
    · exact Or.inr (Or.inr ⟨hlt.not_gt, hlt.ne, hlt⟩)
    · exact Or.inr (Or.inl ⟨heq.not_gt, heq, heq.not_lt⟩)
    · exact Or.inl ⟨hgt, hgt.ne', hgt.not_gt⟩
  case gte_iff => exact le_iff_lt_or_eq.trans (or_congr_right eq_comm)
  case lte_iff => exact le_iff_lt_or_eq

/-- Two texts exchanged exchange an operator with the one that asks the reverse. -/
theorem resultOf_swap (hcompares : comparison.Compares responses left right) {other : Comparison}
    {others : Responses} (hswapped : other.Compares others right left) (nullDate : Date) :
    comparison.resultOf .gt nullDate responses = other.resultOf .lt nullDate others ∧
      comparison.resultOf .gte nullDate responses = other.resultOf .lte nullDate others := by
  rw [hcompares.resultOf_of_isNumber rfl, hcompares.resultOf_of_isNumber rfl,
    hswapped.resultOf_of_isNumber rfl, hswapped.resultOf_of_isNumber rfl]
  exact ⟨congrArg Except.ok (Bool.and_left_comm _ _ _),
    congrArg Except.ok (Bool.and_left_comm _ _ _)⟩

theorem resultOf_gt_iff (hcompares : comparison.Compares responses left right) (nullDate : Date) :
    comparison.resultOf .gt nullDate responses = .ok true ↔
      left ≠ "" ∧ right ≠ "" ∧ right < left := by
  rw [hcompares.resultOf_of_isNumber rfl]
  simp [Operator.orders]

end Compares

end Comparison

/-- The operators that order texts hold of nothing that is missing or empty. Of texts that are there
they are, with equality, one total order: that of the bytes, which is that of the code points. -/
theorem textOperators_order (nullDate : Date) :
    (∀ (comparison : Comparison) (responses : Responses), comparison.hasKey = true →
      comparison.resolve responses ∈ [none, some ""] ∨ comparison.operand ∈ [none, some ""] →
      ∀ operator ∈ [Operator.gt, .gte, .lt, .lte],
        comparison.resultOf operator nullDate responses = .ok false) ∧
      (∀ (comparison : Comparison) (responses : Responses) (left right : String),
        comparison.Compares responses left right → left ≠ "" → right ≠ "" →
        Comparison.OrdersTexts (fun operator => comparison.resultOf operator nullDate responses)
          left right) ∧
      (∀ (comparison other : Comparison) (responses others : Responses) (left right : String),
        comparison.Compares responses left right → other.Compares others right left →
        comparison.resultOf .gt nullDate responses = other.resultOf .lt nullDate others ∧
          comparison.resultOf .gte nullDate responses = other.resultOf .lte nullDate others) ∧
      (∀ (first second third : Comparison) (one two three : Responses)
        (left middle right : String), first.Compares one left middle →
        second.Compares two middle right → third.Compares three left right →
        first.resultOf .gt nullDate one = .ok true → second.resultOf .gt nullDate two = .ok true →
          third.resultOf .gt nullDate three = .ok true) ∧
      ∀ left right,
        (bytes left < bytes right ↔ codePoints left < codePoints right) ∧
          (codePoints left < codePoints right ↔ Precedes (codePoints left) (codePoints right)) := by
  refine ⟨?_, ?_, ?_, ?_, ?_⟩
  · intro comparison responses hkey hmissing operator hoperator
    have hnumber : ∀ operator ∈ [Operator.gt, .gte, .lt, .lte], operator.isNumber = true := by decide
    exact Comparison.resultOf_of_missing hkey hmissing (hnumber operator hoperator) nullDate
  · intro comparison responses left right hcompares hleft hright
    exact hcompares.ordersTexts hleft hright nullDate
  · intro comparison other responses others left right hcompares hswapped
    exact hcompares.resultOf_swap hswapped nullDate
  · intro first second third one two three left middle right hfirst hsecond hthird hgt hnext
    rw [hfirst.resultOf_gt_iff] at hgt
    rw [hsecond.resultOf_gt_iff] at hnext
    exact (hthird.resultOf_gt_iff nullDate).2 ⟨hgt.1, hnext.2.1, hnext.2.2.trans hgt.2.2⟩
  · intro left right
    exact ⟨bytes_lt_bytes_iff.trans codePoints_lt_iff.symm, lt_iff_precedes⟩

/-- A character outside the basic plane, which sixteen-bit units would put before the wide tilde. -/
theorem textOperators_order_beyondPlane :
    let comparing (operand : String) : Comparison :=
      { operator := .eq, key := some "q", operand := some operand }
    let answered (text : String) : Responses := .ofList [("q", { answer := .text text })]
    let result (operator : Operator) (text operand : String) :=
      (comparing operand).resultOf operator .epoch (answered text)
    (∀ text operand, (comparing operand).Compares (answered text) text operand) ∧
      result .gt "😀" "～" = .ok true ∧ result .eq "😀" "～" = .ok false ∧
      result .lt "～" "😀" = .ok true ∧ result .gt "～" "null" = .ok true ∧
      result .gt "😀" "null" = .ok true ∧ bytes "～" < bytes "😀" ∧
      Precedes (codePoints "～") (codePoints "😀") ∧
      (comparing "null").resultOf .gte .epoch {} = .ok false := by
  intro comparing answered result
  have hkey (operand : String) : (comparing operand).hasKey = true := by rfl
  have hcompares (text operand : String) :
      (comparing operand).Compares (answered text) text operand := ⟨hkey operand, rfl, rfl⟩
  have hgt : result .gt "😀" "～" = .ok true := by decide +kernel
  have hnext : result .gt "～" "null" = .ok true := by decide +kernel
  obtain ⟨hmissing, horders, hexchange, htrans, hbytes⟩ := textOperators_order .epoch
  obtain ⟨hone, -, -, hbytesGt, -⟩ :=
    horders _ _ _ _ (hcompares "😀" "～") (by decide) (by decide)
  have heq : result .eq "😀" "～" = .ok false := by
    rcases hone with ⟨-, heq, -⟩ | ⟨hnot, -⟩ | ⟨hnot, -⟩
    · exact heq
    · exact absurd (hgt.symm.trans hnot) (by decide)
    · exact absurd (hgt.symm.trans hnot) (by decide)
  have hlt : bytes "～" < bytes "😀" := hbytesGt.1 hgt
  have hprecedes : Precedes (codePoints "～") (codePoints "😀") :=
    (hbytes _ _).2.1 ((hbytes _ _).1.1 hlt)
  refine ⟨hcompares, hgt, heq, ?_, hnext, ?_, hlt, hprecedes, ?_⟩
  · exact (hexchange _ _ _ _ _ _ (hcompares "😀" "～") (hcompares "～" "😀")).1.symm.trans hgt
  · exact htrans _ _ _ _ _ _ _ _ _ (hcompares "😀" "～") (hcompares "～" "null")
      (hcompares "😀" "null") hgt hnext
  · exact hmissing _ _ (hkey "null") (Or.inl (by decide)) .gte (by decide)

end BranchingInterview
