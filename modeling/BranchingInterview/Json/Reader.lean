import BranchingInterview.Json.Canonical
import BranchingInterview.Json.Numeral

/-!
Reading JSON text. The reader never fails: where the text is not JSON, or names no value, it puts
a flaw into the tree, so that whoever uses the tree in the order of the text meets the sound parts
first.
-/

namespace BranchingInterview.Json

def isSpace (c : Char) : Bool :=
  c == ' ' || c == '\t' || c == '\n' || c == '\r'

def skipSpace (chars : List Char) : List Char :=
  chars.dropWhile isSpace

/-- A character of a string as written: itself, or the code unit of an escape. -/
inductive Piece
  | char (c : Char)
  | unit (code : Nat)
deriving DecidableEq

def hexValue? (c : Char) : Option Nat :=
  if '0' ≤ c ∧ c ≤ '9' then some (c.toNat - '0'.toNat)
  else if 'a' ≤ c ∧ c ≤ 'f' then some (c.toNat - 'a'.toNat + 10)
  else if 'A' ≤ c ∧ c ≤ 'F' then some (c.toNat - 'A'.toNat + 10)
  else none

def hexCode? (first second third fourth : Char) : Option Nat := do
  return (((← hexValue? first) * 16 + (← hexValue? second)) * 16 + (← hexValue? third)) * 16 +
    (← hexValue? fourth)

def unescape? : Char → Option Char
  | '"' => some '"'
  | '\\' => some '\\'
  | '/' => some '/'
  | 'b' => some '\x08'
  | 'f' => some '\x0c'
  | 'n' => some '\n'
  | 'r' => some '\r'
  | 't' => some '\t'
  | _ => none

/-- The pieces up to the closing quote and the text after it. -/
def scanString : List Char → Option (List Piece × List Char)
  | [] => none
  | '"' :: rest => some ([], rest)
  | '\\' :: 'u' :: first :: second :: third :: fourth :: rest => do
      let code ← hexCode? first second third fourth
      let (pieces, rest) ← scanString rest
      return (.unit code :: pieces, rest)
  | '\\' :: c :: rest => do
      let c ← unescape? c
      let (pieces, rest) ← scanString rest
      return (.char c :: pieces, rest)
  | c :: rest => do
      guard (0x20 ≤ c.toNat)
      let (pieces, rest) ← scanString rest
      return (.char c :: pieces, rest)

def isLeading (code : Nat) : Bool := 0xD800 ≤ code && code ≤ 0xDBFF

def isTrailing (code : Nat) : Bool := 0xDC00 ≤ code && code ≤ 0xDFFF

def joinUnits (leading trailing : Nat) : Char :=
  Char.ofNat (0x10000 + (leading - 0xD800) * 0x400 + (trailing - 0xDC00))

/-- The characters of the pieces; half a character has none. -/
def assemble : List Piece → Option (List Char)
  | [] => some []
  | .char c :: rest => (assemble rest).map (c :: ·)
  | .unit leading :: .unit trailing :: rest =>
      if isLeading leading then
        if isTrailing trailing then (assemble rest).map (joinUnits leading trailing :: ·) else none
      else if isTrailing leading then none
      else (assemble (.unit trailing :: rest)).map (Char.ofNat leading :: ·)
  | .unit code :: rest =>
      if isLeading code || isTrailing code then none
      else (assemble rest).map (Char.ofNat code :: ·)

/-- What reading finds at a place, and the text after it unless the text breaks off there. -/
structure Reading (α : Type) where
  found : α
  rest : Option (List Char)

namespace Reading

variable {α β : Type}

def map (reading : Reading α) (change : α → β) : Reading β :=
  ⟨change reading.found, reading.rest⟩

def malformed : Reading Json := ⟨flaw .malformed, none⟩

/-- A container that is nested too deep is no value, but its text is read to its end. -/
def limitDepth (depth : Nat) (reading : Reading Json) : Reading Json :=
  match depth, reading.rest with
  | 0, some rest => ⟨flaw .unrepresentable, some rest⟩
  | 0, none => malformed
  | _ + 1, _ => reading

end Reading

def readString (chars : List Char) : Reading Json :=
  match scanString chars with
  | none => .malformed
  | some (pieces, rest) =>
      match assemble pieces with
      | none => ⟨flaw .unrepresentable, some rest⟩
      | some value => ⟨string (String.ofList value), some rest⟩

def readNumber (chars : List Char) : Reading Json :=
  match Numeral.read chars with
  | none => .malformed
  | some (numeral, rest) =>
      match numeral.number? with
      | none => ⟨flaw .unrepresentable, some rest⟩
      | some value => ⟨number value, some rest⟩

/-- What breaks off where the name of a member should start. -/
def unnamed (instead : Option Found) : String × Json :=
  ("", flaw (.nameless instead))

/-- A member under its name, given what is found after the colon. -/
def nameMember (pieces : List Piece) (value : Reading Json) : String × Json :=
  match assemble pieces, value.rest with
  | some name, _ => (String.ofList name, value.found)
  | none, some _ => ("", flaw .misnamed)
  | none, none => unnamed none

mutual

/-- Reads a value; `depth` more containers may be opened around one another. -/
def readValue : Nat → Nat → List Char → Reading Json
  | 0, _, _ => .malformed
  | fuel + 1, depth, chars =>
      match skipSpace chars with
      | 'n' :: 'u' :: 'l' :: 'l' :: rest => ⟨null, some rest⟩
      | 't' :: 'r' :: 'u' :: 'e' :: rest => ⟨bool true, some rest⟩
      | 'f' :: 'a' :: 'l' :: 's' :: 'e' :: rest => ⟨bool false, some rest⟩
      | '"' :: rest => readString rest
      | '[' :: rest =>
          match skipSpace rest with
          | ']' :: rest => .limitDepth depth ⟨array [], some rest⟩
          | rest => .limitDepth depth ((readItems fuel (depth - 1) rest).map array)
      | '\x7b' :: rest =>
          match skipSpace rest with
          | '\x7d' :: rest => .limitDepth depth ⟨object [], some rest⟩
          | rest => .limitDepth depth ((readMembers fuel (depth - 1) rest).map object)
      | chars => readNumber chars

def readItems : Nat → Nat → List Char → Reading (List Json)
  | 0, _, _ => ⟨[flaw .malformed], none⟩
  | fuel + 1, depth, chars =>
      let item := readValue fuel depth chars
      match item.rest.map skipSpace with
      | none => ⟨[item.found], none⟩
      | some (',' :: rest) => (readItems fuel depth rest).map (item.found :: ·)
      | some (']' :: rest) => ⟨[item.found], some rest⟩
      | some _ => ⟨[item.found, flaw .malformed], none⟩

def readMembers : Nat → Nat → List Char → Reading (List (String × Json))
  | 0, _, _ => ⟨[unnamed none], none⟩
  | fuel + 1, depth, chars =>
      match skipSpace chars with
      | '"' :: rest =>
          match scanString rest with
          | none => ⟨[unnamed none], none⟩
          | some (pieces, rest) =>
              let value :=
                match skipSpace rest with
                | ':' :: rest => readValue fuel depth rest
                | _ => .malformed
              let member := nameMember pieces value
              match value.rest.map skipSpace with
              | none => ⟨[member], none⟩
              | some (',' :: rest) => (readMembers fuel depth rest).map (member :: ·)
              | some ('\x7d' :: rest) => ⟨[member], some rest⟩
              | some _ => ⟨[member, unnamed none], none⟩
      | chars => ⟨[unnamed (readValue fuel depth chars).found.found?], none⟩

end

def maxDepth : Nat := 127

/-- The tree of a text, and whether the text ends with it. -/
structure Document where
  root : Json
  isComplete : Bool

def Document.read (text : String) : Document :=
  let chars := text.toList
  let root := readValue (2 * chars.length + 2) maxDepth chars
  ⟨root.found, (root.rest.map skipSpace).any List.isEmpty⟩

/-- The canonical tree of a text that is JSON and a value throughout. -/
def ofText? (text : String) : Option Json :=
  let document := Document.read text
  if document.isComplete then document.root.canonical? else none

end BranchingInterview.Json
