/-!
Decimal digits and the number they write.
-/

namespace BranchingInterview.Text

def digitValue (c : Char) : Nat := c.toNat - '0'.toNat

def natOfDigits (digits : List Char) : Nat :=
  digits.foldl (fun value c => 10 * value + digitValue c) 0

end BranchingInterview.Text
