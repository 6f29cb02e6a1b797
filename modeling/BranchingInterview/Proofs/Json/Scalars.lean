import BranchingInterview.Json.Printer
import BranchingInterview.Json.Reader
import Mathlib.Data.Option.Basic

/-!
Strings and whole numbers are read back from their text. A string ends at its closing quote, and a
number where a character follows that no number goes on with.
-/

namespace BranchingInterview

/-- A whole number that fits 64 bits, with or without a sign. -/
def Number.IsWord : Number → Prop
  | integer value => Int64.minValue.toInt ≤ value ∧ value < UInt64.size
  | double _ => False

instance : DecidablePred Number.IsWord
  | .integer _ => inferInstanceAs (Decidable (_ ∧ _))
  | .double _ => inferInstanceAs (Decidable False)

namespace Json

/-! Strings -/

section

variable {c : Char}

theorem scanString_plain (hquote : c ≠ '"') (hescape : c ≠ '\\') (hprintable : 0x20 ≤ c.toNat)
    (rest : List Char) :
    scanString (c :: rest) =
      (scanString rest).map fun found => (.char c :: found.1, found.2) := by
  have hguard : (guard (0x20 ≤ c.toNat) : Option Unit) = some () := if_pos hprintable
  rw [scanString]
  · rw [hguard]
    cases scanString rest <;> rfl
  · exact hquote
  · exact fun _ _ _ _ _ hc _ => hescape hc
  · exact fun _ _ hc _ => hescape hc

theorem scanString_short {letter : Char} (hletter : unescape? letter = some c)
    (rest : List Char) :
    scanString ('\\' :: letter :: rest) =
      (scanString rest).map fun found => (.char c :: found.1, found.2) := by
  rw [scanString]
  · rw [hletter]
    cases scanString rest <;> rfl
  · rintro _ _ _ _ _ rfl -
    cases hletter

theorem scanString_long {first second third fourth : Char} {code : Nat}
    (hcode : hexCode? first second third fourth = some code) (rest : List Char) :
    scanString ('\\' :: 'u' :: first :: second :: third :: fourth :: rest) =
      (scanString rest).map fun found => (.unit code :: found.1, found.2) := by
  rw [scanString, hcode]
  cases scanString rest <;> rfl

/-- The pieces that a printed character may be read as. -/
inductive Piece.Names : Piece → Char → Prop
  | char (c : Char) : Names (.char c) c
  | unit (c : Char) (hcontrol : c.toNat < 0x20) : Names (.unit c.toNat) c

theorem hexCode?_hexDigit : ∀ code < 0x20,
    hexCode? '0' '0' (hexDigit (code / 16)) (hexDigit code) = some code := by
  decide

theorem exists_piece (c : Char) :
    ∃ piece : Piece, piece.Names c ∧ ∀ rest, scanString (escapeChar c ++ rest) =
      (scanString rest).map fun found => (piece :: found.1, found.2) := by
  unfold escapeChar
  split
  iterate 7
    · exact ⟨_, .char _, scanString_short rfl⟩
  next hquote hescape _ _ _ _ _ =>
    split
    next hcontrol =>
      exact ⟨_, .unit c hcontrol, scanString_long (hexCode?_hexDigit c.toNat hcontrol)⟩
    next hprintable =>
      exact ⟨_, .char c, scanString_plain hquote hescape (Nat.le_of_not_lt hprintable)⟩

theorem assemble_cons {piece : Piece} (hpiece : piece.Names c) (pieces : List Piece) :
    assemble (piece :: pieces) = (assemble pieces).map (c :: ·) := by
  cases hpiece with
  | char => rfl
  | unit c hcontrol =>
      have hleading : isLeading c.toNat = false := by
        simp only [isLeading, Bool.and_eq_false_iff, decide_eq_false_iff_not]
        omega
      have htrailing : isTrailing c.toNat = false := by
        simp only [isTrailing, Bool.and_eq_false_iff, decide_eq_false_iff_not]
        omega
      rcases pieces with _ | ⟨_ | _, pieces⟩ <;>
        simp [assemble, hleading, htrailing, Char.ofNat_toNat]

end

/-- What stands before the closing quote of a printed string names its characters. -/
theorem exists_pieces (value rest : List Char) :
    ∃ pieces, scanString (value.flatMap escapeChar ++ '"' :: rest) = some (pieces, rest) ∧
      assemble pieces = some value := by
  induction value with
  | nil => exact ⟨[], rfl, rfl⟩
  | cons c value ih =>
      obtain ⟨pieces, hscan, hassemble⟩ := ih
      obtain ⟨piece, hpiece, hfirst⟩ := exists_piece c
      refine ⟨piece :: pieces, ?_, ?_⟩
      · rw [List.flatMap_cons, List.append_assoc, hfirst, hscan]
        rfl
      · rw [assemble_cons hpiece, hassemble]
        rfl

theorem readString_print (value : String) (rest : List Char) :
    readString (value.toList.flatMap escapeChar ++ '"' :: rest) = ⟨string value, some rest⟩ := by
  obtain ⟨pieces, hscan, hassemble⟩ := exists_pieces value.toList rest
  simp only [readString, hscan, hassemble, String.ofList_toList]

/-! Whole numbers -/

/-- The text after a value: it goes on with the container of the value, or ends. -/
def EndsValue (rest : List Char) : Prop :=
  ∀ c ∈ rest.head?, c = ',' ∨ c = ']' ∨ c = '\x7d'

theorem isDigit_eq_false_of_endsValue {c : Char} {rest : List Char}
    (hrest : EndsValue (c :: rest)) : c.isDigit = false := by
  rcases hrest c rfl with rfl | rfl | rfl <;> rfl

theorem takeWhile_isDigit {digits rest : List Char} (hdigits : ∀ c ∈ digits, c.isDigit = true)
    (hrest : EndsValue rest) : (digits ++ rest).takeWhile Char.isDigit = digits := by
  rw [List.takeWhile_append_of_pos hdigits]
  cases rest with
  | nil => exact List.append_nil digits
  | cons c rest =>
      rw [List.takeWhile_cons_of_neg (by rw [isDigit_eq_false_of_endsValue hrest]; decide),
        List.append_nil]

theorem dropWhile_isDigit {digits rest : List Char} (hdigits : ∀ c ∈ digits, c.isDigit = true)
    (hrest : EndsValue rest) : (digits ++ rest).dropWhile Char.isDigit = rest := by
  rw [List.dropWhile_append_of_pos hdigits]
  cases rest with
  | nil => rfl
  | cons c rest =>
      rw [List.dropWhile_cons_of_neg (by rw [isDigit_eq_false_of_endsValue hrest]; decide)]

theorem isDigit_of_mem_toDigits {n : Nat} {c : Char} (hc : c ∈ Nat.toDigits 10 n) :
    c.isDigit = true :=
  Nat.isDigit_of_mem_toDigits (by decide) (by decide) hc

theorem digitChar_ne_zero : ∀ n < 10, n ≠ 0 → n.digitChar ≠ '0' := by
  decide

/-- The digits of a number do not start with a zero, but for those of zero itself. -/
theorem head?_toDigits_ne_zero {n : Nat} (hn : n ≠ 0) : (Nat.toDigits 10 n).head? ≠ some '0' := by
  induction n using Nat.base_induction 10 (by decide) with
  | single n hlt =>
      rw [Nat.toDigits_of_lt_base hlt, List.head?_cons, ne_eq, Option.some_inj]
      exact digitChar_ne_zero n hlt hn
  | digit n k hk hpos ih =>
      have hhead := ih (Nat.ne_of_gt hpos)
      rw [List.head?_eq_some_head Nat.toDigits_ne_nil] at hhead
      rw [← Nat.toDigits_append_toDigits (by decide) hpos hk, List.head?_append,
        List.head?_eq_some_head Nat.toDigits_ne_nil, Option.some_or]
      exact hhead

theorem Numeral.readWhole_toDigits (n : Nat) {rest : List Char} (hrest : EndsValue rest) :
    readWhole (Nat.toDigits 10 n ++ rest) = some (Nat.toDigits 10 n, rest) := by
  have htake := takeWhile_isDigit (fun _ => isDigit_of_mem_toDigits (n := n)) hrest
  have hdrop := dropWhile_isDigit (fun _ => isDigit_of_mem_toDigits (n := n)) hrest
  simp only [readWhole, htake, hdrop]
  split
  next hnil => exact absurd hnil Nat.toDigits_ne_nil
  next hzero =>
    by_cases hn : n = 0
    · subst hn
      cases hzero
    · exact absurd (by rw [hzero]; rfl) (head?_toDigits_ne_zero hn)
  next => rfl

theorem Numeral.readUnsigned_toDigits (negative : Bool) (n : Nat) {rest : List Char}
    (hrest : EndsValue rest) :
    readUnsigned negative (Nat.toDigits 10 n ++ rest) =
      some (⟨negative, Nat.toDigits 10 n, none, none⟩, rest) := by
  have hfraction : readFraction rest = some (none, rest) := by
    unfold readFraction
    split
    · rcases hrest '.' rfl with hc | hc | hc <;> cases hc
    · rfl
  have hpower : readPower rest = some (none, rest) := by
    unfold readPower
    split
    · rcases hrest 'e' rfl with hc | hc | hc <;> cases hc
    · rcases hrest 'E' rfl with hc | hc | hc <;> cases hc
    · rfl
  rw [readUnsigned, readWhole_toDigits n hrest]
  simp only [Option.bind_eq_bind, Option.bind_some, hfraction, hpower]
  rfl

theorem Numeral.read_toDigits (n : Nat) {rest : List Char} (hrest : EndsValue rest) :
    read (Nat.toDigits 10 n ++ rest) = some (⟨false, Nat.toDigits 10 n, none, none⟩, rest) := by
  have hunsigned := readUnsigned_toDigits false n hrest
  cases hdigits : Nat.toDigits 10 n with
  | nil => exact absurd hdigits Nat.toDigits_ne_nil
  | cons c digits =>
      have hdigit : c.isDigit = true := isDigit_of_mem_toDigits (hdigits ▸ List.mem_cons_self)
      rw [hdigits] at hunsigned
      rw [← hunsigned, List.cons_append]
      unfold read
      split
      next heq =>
        rw [(List.cons.inj heq).1] at hdigit
        cases hdigit
      next => rfl

theorem Numeral.absorb_eq (digits : List Char) (value : Nat)
    (hfits : Nat.ofDigitChars 10 digits value < UInt64.size) :
    absorb value digits = (Nat.ofDigitChars 10 digits value, []) := by
  induction digits generalizing value with
  | nil => rw [absorb, Nat.ofDigitChars_nil]
  | cons c digits ih =>
      rw [Nat.ofDigitChars_cons] at hfits ⊢
      have hgrows : ∀ next, next ≤ Nat.ofDigitChars 10 digits next := by
        intro next
        rw [Nat.ofDigitChars_eq_ofDigitChars_zero]
        exact Nat.le_add_right_of_le (Nat.le_mul_of_pos_left next (Nat.pow_pos (by decide)))
      have hnext : 10 * value + Text.digitValue c < UInt64.size :=
        Nat.lt_of_le_of_lt (hgrows _) hfits
      simp only [absorb, hnext, ↓reduceIte]
      exact ih _ hfits

theorem Numeral.absorb_toDigits {n : Nat} (hfits : n < UInt64.size) :
    absorb 0 (Nat.toDigits 10 n) = (n, []) := by
  rw [absorb_eq, Nat.ofDigitChars_ten_toDigits]
  rwa [Nat.ofDigitChars_ten_toDigits]

/-- The numeral that a whole number is written as. -/
def Numeral.ofInt (value : Int) : Numeral :=
  ⟨value < 0, Nat.toDigits 10 value.natAbs, none, none⟩

theorem toList_text_integer (value : Int) :
    (Number.integer value).text.toList =
      if value < 0 then '-' :: Nat.toDigits 10 value.natAbs else Nat.toDigits 10 value.natAbs := by
  rw [Number.text, Int.toString_eq_repr, Int.repr_eq_if]
  by_cases hnegative : value < 0
  · have hsize : (-value).toNat = value.natAbs := by omega
    rw [if_neg (Int.not_le.2 hnegative), if_pos hnegative, String.toList_append, Nat.toList_repr,
      hsize]
    rfl
  · have hsize : value.toNat = value.natAbs := by omega
    rw [if_pos (Int.not_lt.1 hnegative), if_neg hnegative, Nat.toList_repr, hsize]

theorem Numeral.read_text {value : Int} {rest : List Char} (hrest : EndsValue rest) :
    read ((Number.integer value).text.toList ++ rest) = some (ofInt value, rest) := by
  rw [toList_text_integer, ofInt]
  by_cases hnegative : value < 0
  · simp only [hnegative, ↓reduceIte, decide_true]
    exact readUnsigned_toDigits true value.natAbs hrest
  · simp only [hnegative, ↓reduceIte, decide_false]
    exact read_toDigits value.natAbs hrest

theorem Numeral.number?_ofInt {value : Int} (hword : (Number.integer value).IsWord) :
    (ofInt value).number? = some (.integer value) := by
  obtain ⟨hmin, hmax⟩ := hword
  have hmin : -9223372036854775808 ≤ value := hmin
  have hmax : value < 18446744073709551616 := hmax
  have hsize : UInt64.size = 18446744073709551616 := rfl
  have habsorb := absorb_toDigits (n := value.natAbs) (by rw [hsize]; omega)
  by_cases hnegative : value < 0
  · have hrange : 0 < value.natAbs ∧ 2 * value.natAbs ≤ UInt64.size := by
      rw [hsize]
      omega
    have hvalue : -(value.natAbs : Int) = value := by omega
    simp only [number?, ofInt, habsorb, hnegative, hrange, decide_true, Bool.not_true,
      Bool.false_eq_true, ↓reduceIte, and_self, hvalue]
  · have hvalue : (value.natAbs : Int) = value := by omega
    simp only [number?, ofInt, habsorb, hnegative, decide_false, Bool.not_false, ↓reduceIte, hvalue]

theorem readNumber_text {value : Int} (hword : (Number.integer value).IsWord) {rest : List Char}
    (hrest : EndsValue rest) :
    readNumber ((Number.integer value).text.toList ++ rest) =
      ⟨number (.integer value), some rest⟩ := by
  simp only [readNumber, Numeral.read_text hrest, Numeral.number?_ofInt hword]

end Json

end BranchingInterview
