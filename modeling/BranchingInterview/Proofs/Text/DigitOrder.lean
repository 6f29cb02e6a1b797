import BranchingInterview.Text.Digits
import Mathlib.Logic.Basic

/-!
The order of digits as text. Digits of one length are ordered as the numbers that they write.
-/

namespace BranchingInterview.Text

variable {digits left right rest more : List Char}

theorem toNat_of_isDigit {c : Char} (hc : c.isDigit = true) : c.toNat = 48 + digitValue c := by
  have hlow : 48 ≤ c.toNat := (Char.isDigit_iff_toNat.1 hc).1
  exact (Nat.add_sub_cancel' hlow).symm

theorem digitValue_le_nine {c : Char} (hc : c.isDigit = true) : digitValue c ≤ 9 := by
  have hhigh : c.toNat ≤ 57 := (Char.isDigit_iff_toNat.1 hc).2
  have hcode := toNat_of_isDigit hc
  omega

theorem digitValue_lt_iff {c d : Char} (hc : c.isDigit = true) (hd : d.isDigit = true) :
    digitValue c < digitValue d ↔ c < d := by
  have hcodes : c < d ↔ c.toNat < d.toNat := Iff.rfl
  rw [hcodes, toNat_of_isDigit hc, toNat_of_isDigit hd, Nat.add_lt_add_iff_left]

theorem digitValue_inj {c d : Char} (hc : c.isDigit = true) (hd : d.isDigit = true) :
    digitValue c = digitValue d ↔ c = d := by
  rw [← Char.toNat_inj, toNat_of_isDigit hc, toNat_of_isDigit hd, Nat.add_left_cancel_iff]

/-- The number that some digits write after others. -/
def continueDigits (value : Nat) (digits : List Char) : Nat :=
  digits.foldl (fun value c => 10 * value + digitValue c) value

theorem continueDigits_lt (hdigits : ∀ c ∈ digits, c.isDigit = true) (value : Nat) :
    continueDigits value digits < (value + 1) * Nat.pow 10 digits.length := by
  induction digits generalizing value with
  | nil => exact Nat.lt_of_lt_of_eq (Nat.lt_succ_self value) (Nat.mul_one _).symm
  | cons c digits ih =>
      rw [List.forall_mem_cons] at hdigits
      have hc := digitValue_le_nine hdigits.1
      calc
        continueDigits value (c :: digits) = continueDigits (10 * value + digitValue c) digits := rfl
        _ < (10 * value + digitValue c + 1) * Nat.pow 10 digits.length := ih hdigits.2 _
        _ ≤ ((value + 1) * 10) * Nat.pow 10 digits.length := Nat.mul_le_mul_right _ (by omega)
        _ = (value + 1) * (Nat.pow 10 digits.length * 10) := by rw [Nat.mul_assoc, Nat.mul_comm 10]
        _ = (value + 1) * Nat.pow 10 (c :: digits).length := rfl

theorem natOfDigits_lt (hdigits : ∀ c ∈ digits, c.isDigit = true) :
    natOfDigits digits < Nat.pow 10 digits.length := by
  have hbound := continueDigits_lt hdigits 0
  rw [Nat.zero_add, Nat.one_mul] at hbound
  exact hbound

/-- Digits of one length are ordered by the numbers they write; if these are equal, so are the
digits, and what follows them decides. -/
theorem continueDigits_compare (hleft : ∀ c ∈ left, c.isDigit = true)
    (hright : ∀ c ∈ right, c.isDigit = true) (hlength : left.length = right.length)
    (rest more : List Char) (value other : Nat) :
    (continueDigits value left = continueDigits other right ↔ value = other ∧ left = right) ∧
      (continueDigits value left < continueDigits other right ∨
          continueDigits value left = continueDigits other right ∧ rest < more ↔
        value < other ∨ value = other ∧ left ++ rest < right ++ more) := by
  induction left generalizing right value other with
  | nil =>
      obtain rfl := List.length_eq_zero_iff.1 hlength.symm
      simp [continueDigits]
  | cons c left ih =>
      obtain ⟨d, right, rfl⟩ := List.exists_cons_of_length_eq_add_one hlength.symm
      rw [List.forall_mem_cons] at hleft hright
      obtain ⟨hsame, hless⟩ := ih hleft.2 hright.2 (Nat.succ_inj.1 hlength)
        (10 * value + digitValue c) (10 * other + digitValue d)
      -- A digit more: the numbers compare by what they were before, and then by the digit.
      have hvalue := digitValue_le_nine hleft.1
      have hother := digitValue_le_nine hright.1
      have hequal : 10 * value + digitValue c = 10 * other + digitValue d ↔
          value = other ∧ c = d := by
        rw [← digitValue_inj hleft.1 hright.1]
        omega
      have hsmaller : 10 * value + digitValue c < 10 * other + digitValue d ↔
          value < other ∨ value = other ∧ c < d := by
        rw [← digitValue_lt_iff hleft.1 hright.1]
        omega
      constructor
      · rw [List.cons_eq_cons, ← and_assoc, ← hequal]
        exact hsame
      · rw [List.cons_append, List.cons_append, List.cons_lt_cons_iff, and_or_left, ← or_assoc,
          ← and_assoc, ← hsmaller, ← hequal]
        exact hless

variable (hleft : ∀ c ∈ left, c.isDigit = true) (hright : ∀ c ∈ right, c.isDigit = true)
  (hlength : left.length = right.length)

include hleft hright hlength

theorem natOfDigits_inj : natOfDigits left = natOfDigits right ↔ left = right := by
  have hcompare := (continueDigits_compare hleft hright hlength [] [] 0 0).1
  rw [eq_self, true_and] at hcompare
  exact hcompare

theorem append_lt_append_iff :
    left ++ rest < right ++ more ↔
      natOfDigits left < natOfDigits right ∨ natOfDigits left = natOfDigits right ∧ rest < more := by
  have hcompare := (continueDigits_compare hleft hright hlength rest more 0 0).2
  rw [eq_self, true_and, or_iff_right (Nat.lt_irrefl 0)] at hcompare
  exact hcompare.symm

end BranchingInterview.Text
