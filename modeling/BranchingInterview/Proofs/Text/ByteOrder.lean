import Mathlib.Data.String.Basic

/-!
The order of texts. Texts are compared by the code points of their characters, and a text that
another one goes on from comes before it. UTF-8 keeps this order: comparing the bytes of two texts
gives the same result.
-/

namespace BranchingInterview.Text

/-- The bytes of a text in UTF-8. -/
def bytes (text : String) : List UInt8 := text.toUTF8.data.toList

theorem bytes_eq_flatMap (text : String) :
    bytes text = text.toList.flatMap String.utf8EncodeChar := by
  rw [bytes, String.toUTF8, ← String.utf8Encode_toList, List.utf8Encode,
    List.toList_data_toByteArray]

theorem cons_ofNat_lt_iff {first second : Nat} (hfirst : first < 256) (hsecond : second < 256)
    (rest others : List UInt8) :
    UInt8.ofNat first :: rest < UInt8.ofNat second :: others ↔
      first < second ∨ first = second ∧ rest < others := by
  have hfirstByte : (UInt8.ofNat first).toNat = first := UInt8.toNat_ofNat_of_lt hfirst
  have hsecondByte : (UInt8.ofNat second).toNat = second := UInt8.toNat_ofNat_of_lt hsecond
  rw [List.cons_lt_cons_iff, UInt8.lt_iff_toNat_lt, ← UInt8.toNat_inj, hfirstByte, hsecondByte]

theorem toNat_lt (character : Char) : character.val.toNat < 1114112 := by
  have hvalid : character.val.toNat < 0xd800 ∨
      0xdfff < character.val.toNat ∧ character.val.toNat < 0x110000 := character.valid
  omega

/-- The bytes of a smaller character are smaller where the two first differ, whatever follows. -/
theorem encode_append_lt {left right : Char} (hlt : left < right) (rest others : List UInt8) :
    String.utf8EncodeChar left ++ rest < String.utf8EncodeChar right ++ others := by
  have hcodes : left.val.toNat < right.val.toNat := hlt
  have hleft := toNat_lt left
  have hright := toNat_lt right
  rw [String.utf8EncodeChar.eq_1, String.utf8EncodeChar.eq_1]
  generalize left.val.toNat = code at *
  generalize right.val.toNat = other at *
  -- Each byte after the first holds six bits, so the codes are compared six bits at a time.
  have hlast : code / 64 < other / 64 ∨ code / 64 = other / 64 ∧ code % 64 < other % 64 := by
    omega
  have hmiddle : code / 64 < other / 64 → code / 4096 < other / 4096 ∨
      code / 4096 = other / 4096 ∧ code / 64 % 64 < other / 64 % 64 := by
    omega
  have hfirst : code / 4096 < other / 4096 → code / 262144 < other / 262144 ∨
      code / 262144 = other / 262144 ∧ code / 4096 % 64 < other / 4096 % 64 := by
    omega
  split_ifs
  all_goals
    simp (disch := omega) only [List.cons_append, List.nil_append, cons_ofNat_lt_iff,
      Nat.mod_eq_of_lt]
    omega

theorem flatMap_encode_lt {left right : List Char} (hlt : left < right) :
    left.flatMap String.utf8EncodeChar < right.flatMap String.utf8EncodeChar := by
  induction left generalizing right with
  | nil =>
      cases right with
      | nil => exact absurd hlt (List.lt_irrefl [])
      | cons head rest =>
          obtain ⟨byte, more, hbytes⟩ :=
            List.exists_cons_of_ne_nil (String.utf8EncodeChar_ne_nil (c := head))
          rw [List.flatMap_cons, hbytes]
          exact List.nil_lt_cons byte _
  | cons head rest ih =>
      cases right with
      | nil => exact absurd hlt (List.not_lt_nil _)
      | cons other others =>
          rw [List.flatMap_cons, List.flatMap_cons]
          rcases List.cons_lt_cons_iff.1 hlt with hhead | ⟨rfl, hrest⟩
          · exact encode_append_lt hhead _ _
          · exact List.append_left_lt (ih hrest)

theorem bytes_lt_bytes_iff {left right : String} : bytes left < bytes right ↔ left < right := by
  have hkeeps {first second : String} (hlt : first < second) : bytes first < bytes second := by
    rw [bytes_eq_flatMap, bytes_eq_flatMap]
    exact flatMap_encode_lt (String.lt_iff_toList_lt.1 hlt)
  refine ⟨fun hbytes => ?_, hkeeps⟩
  rcases lt_trichotomy left right with hlt | rfl | hgt
  · exact hlt
  · exact absurd hbytes (List.lt_irrefl _)
  · exact absurd hbytes (List.lt_asymm (hkeeps hgt))

theorem bytes_empty_lt {text : String} (hpresent : text ≠ "") : bytes "" < bytes text := by
  rcases lt_trichotomy "" text with hlt | heq | hgt
  · exact bytes_lt_bytes_iff.2 hlt
  · exact absurd heq.symm hpresent
  · exact absurd (bytes_lt_bytes_iff.2 hgt) (List.not_lt_nil _)

end BranchingInterview.Text
