/-!
Ids for the nodes of a tree that their author left without one: `node_` and a random UUID of
version 4.
-/

namespace BranchingInterview.NodeId

def hexChars (width n : Nat) : List Char :=
  let digits := Nat.toDigits 16 (n % Nat.pow 16 width)
  List.replicate (width - digits.length) '0' ++ digits

def lead : List Char := ['n', 'o', 'd', 'e', '_']

def ofBits (bits : Nat) : String :=
  String.ofList (lead ++ hexChars 8 (bits >>> 90) ++ '-' :: hexChars 4 (bits >>> 74) ++
    '-' :: '4' :: hexChars 3 (bits >>> 62) ++ '-' :: hexChars 1 (8 + (bits >>> 60) % 4) ++
    hexChars 3 (bits >>> 48) ++ '-' :: hexChars 12 bits)

/-- Spreads a seed and the position of a node over 122 bits. -/
def scatter (seed : Nat) (path : List Nat) : Nat :=
  path.foldl
    (fun bits index => (bits + index + 1) * 0x2360ED051FC65DA44385DF649FCCF645 % Nat.pow 2 122) seed

/-- The id of the node at a position, given the indices that lead to it. -/
def generate (seed : Nat) (path : List Nat) : String :=
  ofBits (scatter seed path)

def isHexChar (c : Char) : Bool :=
  ('0' ≤ c && c ≤ '9') || ('a' ≤ c && c ≤ 'f')

def dropHex? (width : Nat) (chars : List Char) : Option (List Char) :=
  if (chars.take width).length = width && (chars.take width).all isHexChar then
    some (chars.drop width)
  else none

def dropChar? (allowed : Char → Bool) : List Char → Option (List Char)
  | c :: rest => if allowed c then some rest else none
  | [] => none

def isGenerated (id : String) : Bool :=
  let rest := do
    let rest ← if lead.isPrefixOf id.toList then some (id.toList.drop lead.length) else none
    let rest ← dropChar? (· == '-') (← dropHex? 8 rest)
    let rest ← dropChar? (· == '-') (← dropHex? 4 rest)
    let rest ← dropChar? (· == '4') rest
    let rest ← dropChar? (· == '-') (← dropHex? 3 rest)
    let rest ← dropChar? ['8', '9', 'a', 'b'].contains rest
    let rest ← dropChar? (· == '-') (← dropHex? 3 rest)
    dropHex? 12 rest
  rest == some []

end BranchingInterview.NodeId
