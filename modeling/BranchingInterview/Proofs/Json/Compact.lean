import BranchingInterview.Proofs.Json.ReadBack

/-!
The text of a tree is compact: it has no blanks outside of its strings.
-/

namespace BranchingInterview.Json

/-- The characters outside of the strings of a text, whose quotes belong to the strings. -/
def outside : (inString : Bool) → List Char → List Char
  | _, [] => []
  | true, '\\' :: _ :: rest => outside true rest
  | true, c :: rest => outside (c != '"') rest
  | false, c :: rest => if c = '"' then outside true rest else c :: outside false rest

def IsCompact (chars : List Char) : Prop :=
  ∀ c ∈ outside false chars, isSpace c = false

instance (chars : List Char) : Decidable (IsCompact chars) :=
  List.decidableBAll _ (outside false chars)

/-! Strings are closed where they end. -/

section

variable {c : Char}

theorem outside_plain (hquote : c ≠ '"') (hescape : c ≠ '\\') (rest : List Char) :
    outside true (c :: rest) = outside true rest := by
  rw [outside]
  · rw [bne_iff_ne.2 hquote]
  · exact fun _ _ hc _ => hescape hc

theorem hexDigit_ne (n : Nat) : hexDigit n ≠ '"' ∧ hexDigit n ≠ '\\' := by
  have hdigits : ∀ digit < 16, digit.digitChar ≠ '"' ∧ digit.digitChar ≠ '\\' := by decide
  exact hdigits _ (Nat.mod_lt n (by decide))

theorem outside_escapeChar (c : Char) (rest : List Char) :
    outside true (escapeChar c ++ rest) = outside true rest := by
  unfold escapeChar
  split
  iterate 7
    · rfl
  next hquote hescape _ _ _ _ _ =>
    split
    next hcontrol =>
      have hhigh := hexDigit_ne (c.toNat / 16)
      have hlow := hexDigit_ne c.toNat
      change outside true ('0' :: '0' :: hexDigit (c.toNat / 16) :: hexDigit c.toNat :: rest) = _
      rw [outside_plain (by decide) (by decide), outside_plain (by decide) (by decide),
        outside_plain hhigh.1 hhigh.2, outside_plain hlow.1 hlow.2]
    next => exact outside_plain hquote hescape rest

theorem outside_printString (value : String) (rest : List Char) :
    outside false (printString value ++ rest) = outside false rest := by
  have hchars : ∀ chars : List Char,
      outside true (chars.flatMap escapeChar ++ '"' :: rest) = outside false rest := by
    intro chars
    induction chars with
    | nil => rfl
    | cons c chars ih => rw [List.flatMap_cons, List.append_assoc, outside_escapeChar, ih]
  rw [printString, List.append_assoc]
  exact hchars value.toList

end

/-- In front of a compact text, the characters leave it compact. -/
def KeepsCompact (chars : List Char) : Prop :=
  ∀ rest, IsCompact rest → IsCompact (chars ++ rest)

theorem KeepsCompact.append {first second : List Char} (hfirst : KeepsCompact first)
    (hsecond : KeepsCompact second) : KeepsCompact (first ++ second) := by
  intro rest hrest
  rw [List.append_assoc]
  exact hfirst _ (hsecond rest hrest)

theorem KeepsCompact.isCompact {chars : List Char} (hchars : KeepsCompact chars) :
    IsCompact chars := by
  rw [← List.append_nil chars]
  exact hchars [] (List.forall_mem_nil _)

theorem keepsCompact_nil : KeepsCompact [] := fun _ hrest => hrest

theorem KeepsCompact.cons {chars : List Char} (hchars : KeepsCompact chars) {c : Char}
    (hquote : c ≠ '"') (hspace : isSpace c = false) : KeepsCompact (c :: chars) := by
  intro rest hrest
  rw [IsCompact, List.cons_append, outside, if_neg hquote]
  exact List.forall_mem_cons.2 ⟨hspace, hchars rest hrest⟩

theorem keepsCompact_of_forall {chars : List Char}
    (hchars : ∀ c ∈ chars, c ≠ '"' ∧ isSpace c = false) : KeepsCompact chars := by
  induction chars with
  | nil => exact keepsCompact_nil
  | cons c chars ih =>
      obtain ⟨⟨hquote, hspace⟩, hmore⟩ := List.forall_mem_cons.1 hchars
      exact (ih hmore).cons hquote hspace

theorem keepsCompact_of_all {chars : List Char}
    (hchars : chars.all (fun c => c != '"' && !isSpace c) = true) : KeepsCompact chars := by
  apply keepsCompact_of_forall
  intro c hc
  have hplain := List.all_eq_true.1 hchars c hc
  rwa [Bool.and_eq_true, bne_iff_ne, Bool.not_eq_true'] at hplain

theorem keepsCompact_printString (value : String) : KeepsCompact (printString value) := by
  intro rest hrest
  rwa [IsCompact, outside_printString]

theorem keepsCompact_integer (value : Int) :
    KeepsCompact (Number.integer value).text.toList := by
  apply keepsCompact_of_forall
  intro c hc
  have hstarts : StartsNumber c := by
    rw [toList_text_integer] at hc
    split at hc
    next =>
      rcases List.mem_cons.1 hc with rfl | hc
      · exact Or.inl rfl
      · exact Or.inr (isDigit_of_mem_toDigits hc)
    next => exact Or.inr (isDigit_of_mem_toDigits hc)
  exact ⟨hstarts.ne _ (by decide) rfl, hstarts.isSpace_eq_false⟩

theorem keepsCompact_printItems {items : List Json}
    (hitems : ∀ item ∈ items, KeepsCompact item.print) : KeepsCompact (printItems items) := by
  have hmore : ∀ {rest : List Json}, (∀ item ∈ rest, KeepsCompact item.print) →
      KeepsCompact (printMore rest) := by
    intro rest hrest
    induction rest with
    | nil => exact keepsCompact_nil
    | cons item rest ih =>
        obtain ⟨hitem, hrest⟩ := List.forall_mem_cons.1 hrest
        exact (hitem.append (ih hrest)).cons (by decide) rfl
  cases items with
  | nil => exact keepsCompact_nil
  | cons item rest =>
      obtain ⟨hitem, hrest⟩ := List.forall_mem_cons.1 hitems
      exact hitem.append (hmore hrest)

theorem keepsCompact_printMembers {members : List (String × Json)}
    (hmembers : ∀ member ∈ members, KeepsCompact member.2.print) :
    KeepsCompact (printMembers members) := by
  have hmember (name : String) {value : Json} (hvalue : KeepsCompact value.print) :
      KeepsCompact (printString name ++ ':' :: value.print) :=
    (keepsCompact_printString name).append (hvalue.cons (by decide) rfl)
  have hmore : ∀ {rest : List (String × Json)}, (∀ member ∈ rest, KeepsCompact member.2.print) →
      KeepsCompact (printMoreMembers rest) := by
    intro rest hrest
    induction rest with
    | nil => exact keepsCompact_nil
    | cons member rest ih =>
        obtain ⟨hvalue, hrest⟩ := List.forall_mem_cons.1 hrest
        exact ((hmember member.1 hvalue).append (ih hrest)).cons (by decide) rfl
  cases members with
  | nil => exact keepsCompact_nil
  | cons member rest =>
      obtain ⟨hvalue, hrest⟩ := List.forall_mem_cons.1 hmembers
      exact (hmember member.1 hvalue).append (hmore hrest)

/-- What stands between the strings of a text are brackets, commas, colons, numbers and the names of
three values. -/
theorem keepsCompact_print {json : Json} (hwords : ∀ number ∈ json.numbers, number.IsWord) :
    KeepsCompact json.print := by
  have hnull : KeepsCompact null.print := keepsCompact_of_all rfl
  induction json using induct with
  | null => exact hnull
  | bool value => cases value <;> exact keepsCompact_of_all rfl
  | number value =>
      cases value with
      | integer value => exact keepsCompact_integer value
      | double value => exact (hwords _ List.mem_cons_self).elim
  | string value => exact keepsCompact_printString value
  | array items ih =>
      rw [print_array]
      apply KeepsCompact.append
      · apply KeepsCompact.cons _ (by decide) rfl
        apply keepsCompact_printItems
        intro item hitem
        apply ih item hitem
        intro number hnumber
        exact hwords number (mem_numbersOfItems.2 ⟨item, hitem, hnumber⟩)
      · exact keepsCompact_nil.cons (by decide) rfl
  | object members ih =>
      rw [print_object]
      apply KeepsCompact.append
      · apply KeepsCompact.cons _ (by decide) rfl
        apply keepsCompact_printMembers
        intro member hmember
        apply ih member hmember
        intro number hnumber
        exact hwords number (mem_numbersOfMembers.2 ⟨member, hmember, hnumber⟩)
      · exact keepsCompact_nil.cons (by decide) rfl
  | flaw reason => exact hnull

theorem isCompact_text {json : Json} (hwords : ∀ number ∈ json.numbers, number.IsWord) :
    IsCompact json.text.toList := by
  rw [text, String.toList_ofList]
  exact (keepsCompact_print hwords).isCompact

example : IsCompact "[\"a b\",1]".toList ∧ ¬IsCompact "[\"a b\", 1]".toList := by decide

end BranchingInterview.Json
