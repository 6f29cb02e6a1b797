/-!
White space in the sense of the Unicode property `White_Space`, which has more members than the
six ASCII ones, and the removal of it at both ends of a text.
-/

namespace BranchingInterview.Text

def isBlank (c : Char) : Bool :=
  let code := c.toNat
  (0x09 ≤ code && code ≤ 0x0D) || code == 0x20 || code == 0x85 || code == 0xA0 ||
    code == 0x1680 || (0x2000 ≤ code && code ≤ 0x200A) || code == 0x2028 || code == 0x2029 ||
    code == 0x202F || code == 0x205F || code == 0x3000

def skipBlanks (chars : List Char) : List Char :=
  chars.dropWhile isBlank

def trimmed (chars : List Char) : List Char :=
  (skipBlanks (skipBlanks chars).reverse).reverse

def trim (text : String) : String :=
  String.ofList (trimmed text.toList)

theorem skipBlanks_cons {c : Char} (hc : isBlank c = false) (chars : List Char) :
    skipBlanks (c :: chars) = c :: chars := by
  rw [skipBlanks, List.dropWhile_cons_of_neg (by simp [hc])]

theorem skipBlanks_append {chars : List Char} (hsome : skipBlanks chars ≠ [])
    (suffix : List Char) : skipBlanks (chars ++ suffix) = skipBlanks chars ++ suffix := by
  rw [skipBlanks, List.dropWhile_append, if_neg]
  · rfl
  · exact fun hempty => hsome (List.isEmpty_iff.1 hempty)

theorem length_skipBlanks_le (chars : List Char) : (skipBlanks chars).length ≤ chars.length :=
  (List.dropWhile_suffix isBlank).length_le

theorem skipBlanks_eq_self_iff {chars : List Char} :
    skipBlanks chars = chars ↔ ∀ c ∈ chars.head?, isBlank c = false := by
  cases chars with
  | nil => simp [skipBlanks]
  | cons c chars =>
      cases hc : isBlank c with
      | false => simp [skipBlanks_cons hc, hc]
      | true =>
          have hskip : skipBlanks (c :: chars) = skipBlanks chars := by
            rw [skipBlanks, List.dropWhile_cons_of_pos hc]
            rfl
          have hlength := length_skipBlanks_le chars
          constructor
          · intro hself
            rw [hskip] at hself
            rw [hself, List.length_cons] at hlength
            omega
          · intro hhead
            rw [hhead c rfl] at hc
            cases hc

/-- A text is trimmed if neither its first nor its last character is blank. -/
theorem trimmed_eq_self_iff {chars : List Char} :
    trimmed chars = chars ↔
      (∀ c ∈ chars.head?, isBlank c = false) ∧ ∀ c ∈ chars.getLast?, isBlank c = false := by
  rw [← skipBlanks_eq_self_iff, ← List.head?_reverse, ← skipBlanks_eq_self_iff]
  constructor
  · intro htrimmed
    have hskip : skipBlanks chars = chars := by
      apply (List.dropWhile_suffix isBlank).eq_of_length_le
      have hlength := length_skipBlanks_le (skipBlanks chars).reverse
      rw [← List.length_reverse, ← trimmed, htrimmed, List.length_reverse] at hlength
      exact hlength
    rw [trimmed, hskip] at htrimmed
    refine ⟨hskip, ?_⟩
    rw [← List.reverse_reverse (skipBlanks chars.reverse), htrimmed]
  · rintro ⟨hfirst, hlast⟩
    rw [trimmed, hfirst, hlast, List.reverse_reverse]

theorem trimmed_append {chars suffix : List Char} (htrimmed : trimmed chars = chars)
    (hsome : chars ≠ []) (hsuffix : ∀ c ∈ suffix, isBlank c = false) :
    trimmed (chars ++ suffix) = chars ++ suffix := by
  obtain ⟨hfirst, hlast⟩ := trimmed_eq_self_iff.1 htrimmed
  refine trimmed_eq_self_iff.2 ⟨?_, ?_⟩
  · cases chars with
    | nil => exact absurd rfl hsome
    | cons c chars => exact hfirst
  · intro c hc
    rw [List.getLast?_append] at hc
    cases hend : suffix.getLast? with
    | none =>
        rw [hend, Option.none_or] at hc
        exact hlast c hc
    | some last =>
        rw [hend, Option.some_or] at hc
        cases hc
        exact hsuffix c (List.mem_of_getLast? hend)

end BranchingInterview.Text
