import BranchingInterview.Settings
import Mathlib

/-!
Words that are read without regard to the case of their letters, and to blanks around them. Such a
reading knows a word by its letters, each of which may be a capital.
-/

namespace BranchingInterview.Text

/-- Some characters are the letters of a word in small letters, each as it is or as a capital. -/
def Spells (chars : List Char) (word : String) : Prop :=
  List.Forall₂ (fun c letter => c = letter ∨ c = letter.toUpper) chars word.toList

/-- A text holds some characters and nothing but blanks around them. -/
def Holds (text : String) (core : List Char) : Prop :=
  ∃ before after, (∀ c ∈ before, isBlank c = true) ∧ (∀ c ∈ after, isBlank c = true) ∧
    text.toList = before ++ core ++ after

section Letters

variable {c letter : Char}

theorem toLower_eq_iff (hletter : letter.isLower = true) :
    c.toLower = letter ↔ c = letter ∨ c = letter.toUpper := by
  have hsmall : letter.toLower = letter :=
    Char.toLower_eq_of_not_isUpper (Char.not_isUpper_of_isLower hletter)
  constructor
  · rintro rfl
    by_cases hcapital : c.isUpper = true
    · rw [Char.toUpper_toLower_eq_toUpper]
      exact Or.inr (Char.toUpper_eq_of_not_isLower (Char.not_isLower_of_isUpper hcapital)).symm
    · exact Or.inl (Char.toLower_eq_of_not_isUpper hcapital).symm
  · rintro (rfl | rfl)
    · exact hsmall
    · rw [Char.toLower_toUpper_eq_toLower, hsmall]

theorem isBlank_of_isAlpha (hc : c.isAlpha = true) : isBlank c = false := by
  have hrange : 65 ≤ c.toNat ∧ c.toNat ≤ 90 ∨ 97 ≤ c.toNat ∧ c.toNat ≤ 122 := by
    simpa [Char.isAlpha, Char.isUpper, Char.isLower, UInt32.le_iff_toNat_le] using hc
  simp only [isBlank, Bool.or_eq_false_iff, Bool.and_eq_false_iff, decide_eq_false_iff_not,
    beq_eq_false_iff_ne]
  omega

end Letters

section Words

variable {chars : List Char} {word text : String}

theorem map_toLower_eq_iff (hword : ∀ letter ∈ word.toList, letter.isLower = true) :
    chars.map Char.toLower = word.toList ↔ Spells chars word := by
  rw [Spells, ← List.forall₂_eq_eq_eq, List.forall₂_map_left_iff]
  generalize word.toList = letters at hword
  induction letters generalizing chars with
  | nil => cases chars <;> simp
  | cons letter letters ih =>
      obtain ⟨hletter, hletters⟩ := List.forall_mem_cons.1 hword
      cases chars with
      | nil => simp
      | cons c chars => simp only [List.forall₂_cons, toLower_eq_iff hletter, ih hletters]

theorem lowerAscii_eq_iff (hword : ∀ letter ∈ word.toList, letter.isLower = true) :
    lowerAscii text = word ↔ Spells text.toList word := by
  rw [← map_toLower_eq_iff hword, lowerAscii, ← String.toList_inj, String.toList_ofList]

theorem Spells.isAlpha (hspells : Spells chars word)
    (hword : ∀ letter ∈ word.toList, letter.isLower = true) :
    ∀ c ∈ chars, c.isAlpha = true := by
  intro c hc
  rw [← Char.isLower_toLower_eq_isAlpha]
  refine hword c.toLower ?_
  rw [← (map_toLower_eq_iff hword).2 hspells]
  exact List.mem_map_of_mem hc

theorem Spells.not_blank (hspells : Spells chars word)
    (hword : ∀ letter ∈ word.toList, letter.isLower = true) : ∀ c ∈ chars, isBlank c = false :=
  fun c hc => isBlank_of_isAlpha (hspells.isAlpha hword c hc)

end Words

section Padding

variable {before after core : List Char} {text : String}

theorem skipBlanks_append_left (hbefore : ∀ c ∈ before, isBlank c = true) (rest : List Char) :
    skipBlanks (before ++ rest) = skipBlanks rest :=
  List.dropWhile_append_of_pos hbefore

/-- Without blanks of its own, what a text holds is what is left when it is trimmed. -/
theorem Holds.trimmed_eq (hholds : Holds text core) (hcore : ∀ c ∈ core, isBlank c = false) :
    trimmed text.toList = core := by
  obtain ⟨before, after, hbefore, hafter, htext⟩ := hholds
  rw [trimmed, htext, List.append_assoc, skipBlanks_append_left hbefore]
  cases core with
  | nil =>
      rw [List.nil_append, ← List.append_nil after, skipBlanks_append_left hafter]
      rfl
  | cons c core =>
      have hfirst : skipBlanks (c :: core ++ after) = c :: core ++ after :=
        skipBlanks_cons (hcore c List.mem_cons_self) _
      have hlast : skipBlanks (c :: core).reverse = (c :: core).reverse :=
        skipBlanks_eq_self_iff.2 fun d hd => hcore d (List.mem_reverse.1 (List.mem_of_head? hd))
      rw [hfirst, List.reverse_append,
        skipBlanks_append_left fun d hd => hafter d (List.mem_reverse.1 hd), hlast,
        List.reverse_reverse]

end Padding

end BranchingInterview.Text
