import BranchingInterview.Text.Alphanumeric
import BranchingInterview.Text.Blank
import BranchingInterview.Text.Pattern

/-!
Reading patterns. Texts are Unicode, but no property of characters beyond ASCII is known: a pattern
that asks for one is refused, unless it is restricted to ASCII.
-/

namespace BranchingInterview.Text.Pattern

structure Modes where
  ignoresCase : Bool := false
  isMultiline : Bool := false
  dotTakesBreaks : Bool := false
  isReluctant : Bool := false
  isAscii : Bool := false
  /-- Blanks, and comments from a hash sign to the end of the line, are passed over. -/
  isSpaced : Bool := false

/-- Passes over blanks and comments; `isComment` says whether a comment has begun. -/
def skipSpaced (isComment : Bool) : List Char → List Char
  | [] => []
  | c :: rest =>
      if isComment then skipSpaced (c != '\n') rest
      else if c == '#' then skipSpaced true rest
      else if isBlank c then skipSpaced false rest
      else c :: rest

namespace Modes

def skip (modes : Modes) (chars : List Char) : List Char :=
  if modes.isSpaced then skipSpaced false chars else chars

def set? (modes : Modes) (isOn : Bool) : Char → Option Modes
  | 'i' => some { modes with ignoresCase := isOn }
  | 'm' => some { modes with isMultiline := isOn }
  | 's' => some { modes with dotTakesBreaks := isOn }
  | 'U' => some { modes with isReluctant := isOn }
  | 'u' => some { modes with isAscii := !isOn }
  | 'x' => some { modes with isSpaced := isOn }
  | _ => none

/-- Sets the modes that are listed, each once; those after a hyphen are switched off. The modes
`seen` are listed before, the last of them first. -/
def read (modes : Modes) (isOn : Bool) (seen : List Char) :
    List Char → Option (Modes × List Char)
  | [] => none
  | c :: rest =>
      if c == ':' || c == ')' then
        if seen.head? = some '-' then none else some (modes, c :: rest)
      else if seen.contains c then none
      else if c == '-' then modes.read false (c :: seen) rest
      else do (← modes.set? isOn c).read isOn (c :: seen) rest

/-- A set as it is without regard to case, if the modes say so. -/
def fold? (modes : Modes) (set : CharSet) : Option CharSet :=
  if modes.ignoresCase then
    if modes.isAscii then some set.caseless else none
  else some set

/-- A set or its complement. One of ASCII characters has no complement. -/
def negate? (modes : Modes) (isNegated : Bool) (set : CharSet) : Option CharSet :=
  if isNegated then
    if modes.isAscii && !set.contains '\x80' then none else some set.complement
  else some set

end Modes

/-- What a backslash and the characters after it stand for. -/
inductive Escape
  | char (c : Char)
  | set (set : CharSet)
  | place (place : Place)

def hexDigit? (c : Char) : Option Nat :=
  if c.isDigit then some (c.toNat - '0'.toNat)
  else if 'a' ≤ c && c ≤ 'f' then some (c.toNat - 'a'.toNat + 10)
  else if 'A' ≤ c && c ≤ 'F' then some (c.toNat - 'A'.toNat + 10)
  else none

/-- The character whose code point some hexadecimal digits write. -/
def charOfHex? (digits : List Char) : Option Char := do
  let code ← digits.foldlM (fun code c => return 16 * code + (← hexDigit? c)) 0
  if code.isValidChar then some (Char.ofNat code) else none

def readHex (count : Nat) (chars : List Char) : Option (Escape × List Char) := do
  guard (count ≤ chars.length)
  return (.char (← charOfHex? (chars.take count)), chars.drop count)

/-- The character that a backslash makes of the next one: a control, or a mark as itself. -/
def unescape? : Char → Option Char
  | 'a' => some '\x07'
  | 'f' => some '\x0c'
  | 'n' => some '\n'
  | 'r' => some '\r'
  | 't' => some '\t'
  | 'v' => some '\x0b'
  | c => if c.toNat < 0x80 && !c.isAlphanum && c != '<' && c != '>' then some c else none

/-- A character that can stand where only ASCII is known. -/
def Modes.char? (modes : Modes) : Escape → Option Char
  | .char c => if modes.isAscii && 0x80 ≤ c.toNat then none else some c
  | _ => none

def Modes.readEscape (modes : Modes) : List Char → Option (Escape × List Char)
  | [] => none
  | c :: rest =>
      let ifAscii (escape : Escape) := if modes.isAscii then some (escape, rest) else none
      match c with
      | 'x' => do
          let (item, rest) ← readHex 2 rest
          return (.char (← modes.char? item), rest)
      | 'u' => readHex 4 rest
      | 'U' => readHex 8 rest
      | 'A' => some (.place .textStart, rest)
      | 'z' => some (.place .textEnd, rest)
      | 'b' => ifAscii (.place .wordEdge)
      | 'B' => ifAscii (.place .noWordEdge)
      | '<' => ifAscii (.place .wordStart)
      | '>' => ifAscii (.place .wordEnd)
      | 'd' => ifAscii (.set .digits)
      | 's' => ifAscii (.set .spaces)
      | 'w' => ifAscii (.set .wordChars)
      | c => (unescape? c).map fun c => (.char c, rest)

/-- Reads a character of a class, or an escape. -/
def Modes.readItem (modes : Modes) : List Char → Option (Escape × List Char)
  | '\\' :: rest => modes.readEscape rest
  | c :: rest => some (.char c, rest)
  | [] => none

def Modes.itemSet? (modes : Modes) : Escape → Option CharSet
  | .set set => some set
  | escape => (modes.char? escape).map .single

/-- Reads a character, a set or a range of a class. -/
def Modes.readRange (modes : Modes) (chars : List Char) : Option (CharSet × List Char) := do
  let (first, rest) ← modes.readItem chars
  let rest := modes.skip rest
  let next :=
    match rest with
    | '-' :: rest => (modes.skip rest).head?
    | _ => none
  match next with
  | none | some ']' | some '-' => return (← modes.itemSet? first, rest)
  | some _ =>
      let (last, rest) ← modes.readItem (modes.skip (rest.drop 1))
      let first ← modes.char? first
      let last ← modes.char? last
      guard (first ≤ last)
      return (.range first last, rest)

/-- Reads a set by its name between colons, after the opening bracket. -/
def Modes.readNamed (modes : Modes) : List Char → Option (Option CharSet × List Char)
  | ':' :: rest => do
      let (isNegated, rest) := match rest with
        | '^' :: rest => (true, rest)
        | rest => (false, rest)
      let name := rest.takeWhile (· != ':')
      let set ← CharSet.named? (String.ofList name)
      match rest.drop name.length with
      | ':' :: ']' :: rest => return ((modes.fold? set).bind (modes.negate? isNegated), rest)
      | _ => none
  | _ => none

mutual

/-- Reads a class after its opening bracket. Hyphens or a closing bracket at its head stand for
themselves. -/
def Modes.readClass (modes : Modes) : Nat → List Char → Option (CharSet × List Char)
  | 0, _ => none
  | fuel + 1, chars => do
      let (isNegated, chars) := match modes.skip chars with
        | '^' :: rest => (true, modes.skip rest)
        | chars => (false, chars)
      let hyphens := chars.takeWhile (· == '-')
      let (found, rest) : CharSet × List Char :=
        match hyphens, chars with
        | [], ']' :: rest => (.single ']', rest)
        | [], chars => (.none, chars)
        | hyphens, chars => (.single '-', chars.drop hyphens.length)
      let (set, rest) ← modes.readSets fuel some found rest
      return (← (← modes.fold? set) |> modes.negate? isNegated, rest)

/-- Reads the sets of a class up to its closing bracket. The sets `found` since the last operation
are taken together before the operation is done. -/
def Modes.readSets (modes : Modes) :
    Nat → (CharSet → Option CharSet) → CharSet → List Char → Option (CharSet × List Char)
  | 0, _, _, _ => none
  | fuel + 1, operate, found, chars => do
      let operated (operation : CharSet → CharSet → CharSet) : Option (CharSet → Option CharSet) := do
        let left ← modes.fold? (← operate found)
        return fun right => return operation left (← modes.fold? right)
      match modes.skip chars with
      | ']' :: rest => return (← operate found, rest)
      | '[' :: rest =>
          match modes.readNamed rest with
          | some (set, rest) => modes.readSets fuel operate (found.union (← set)) rest
          | none =>
              let (set, rest) ← modes.readClass fuel rest
              modes.readSets fuel operate (found.union set) rest
      | '&' :: '&' :: rest => modes.readSets fuel (← operated .inter) .none rest
      | '-' :: '-' :: rest => modes.readSets fuel (← operated .diff) .none rest
      | '~' :: '~' :: rest => modes.readSets fuel (← operated .symmDiff) .none rest
      | chars =>
          let (set, rest) ← modes.readRange chars
          modes.readSets fuel operate (found.union set) rest

end

/-- Reads what is neither a group nor a repetition. -/
def Modes.readUnit (modes : Modes) : List Char → Option (Pattern × List Char)
  | '.' :: rest =>
      let set := if modes.dotTakesBreaks then CharSet.all else (CharSet.single '\n').complement
      if modes.isAscii then none else some (oneOf set, rest)
  | '^' :: rest => some (atPlace (if modes.isMultiline then .lineStart else .textStart), rest)
  | '$' :: rest => some (atPlace (if modes.isMultiline then .lineEnd else .textEnd), rest)
  | '[' :: rest => do
      let (set, rest) ← modes.readClass (2 * rest.length + 2) rest
      return (oneOf set, rest)
  | '*' :: _ | '+' :: _ | '?' :: _ | '\x7b' :: _ => none
  | chars => do
      let (item, rest) ← modes.readItem chars
      match item with
      | .char c => return (oneOf (← modes.fold? (.single c)), rest)
      | .set set => return (oneOf set, rest)
      | .place place => return (atPlace place, rest)

/-- The repetition that a mark stands for. -/
def repetition? : Char → Option (Bool → Pattern → Pattern)
  | '*' => some fun isGreedy body => optional isGreedy (repeated isGreedy body)
  | '+' => some repeated
  | '?' => some optional
  | _ => none

/-- Applies the marks that follow a pattern to it. -/
def Modes.repeat (modes : Modes) : Nat → Pattern → List Char → Pattern × List Char
  | 0, pattern, chars => (pattern, chars)
  | fuel + 1, pattern, chars =>
      match modes.skip chars with
      | [] => (pattern, [])
      | mark :: rest =>
          match repetition? mark, rest with
          | none, _ => (pattern, chars)
          | some repetition, '?' :: rest =>
              modes.repeat fuel (repetition modes.isReluctant pattern) rest
          | some repetition, rest => modes.repeat fuel (repetition (!modes.isReluctant) pattern) rest

/-- Where the reader stands. -/
structure Cursor where
  rest : List Char
  modes : Modes := {}
  /-- The names of groups so far. -/
  names : List (List Char) := []

namespace Cursor

def skip (cursor : Cursor) : Cursor :=
  { cursor with rest := cursor.modes.skip cursor.rest }

def isGroupName : List Char → Bool
  | [] => false
  | first :: rest =>
      (isAlphanumeric first && !first.isDigit || first == '_') &&
        rest.all fun c => isAlphanumeric c || c == '_' || c == '.' || c == '[' || c == ']'

/-- Reads the name of a group after its opening angle bracket. -/
def readName (cursor : Cursor) (chars : List Char) : Option Cursor := do
  let name := chars.takeWhile (· != '>')
  guard (name.length < chars.length && isGroupName name && !cursor.names.contains name)
  return { cursor with rest := chars.drop (name.length + 1), names := name :: cursor.names }

/-- Reads the head of a group after its opening parenthesis, and says whether there is a group: modes
in parentheses are for what follows them. -/
def readOpening (cursor : Cursor) : Option (Bool × Cursor) :=
  match cursor.skip.rest with
  | '?' :: 'P' :: '<' :: rest => (cursor.readName rest).map fun cursor => (true, cursor)
  | '?' :: '<' :: rest => (cursor.readName rest).map fun cursor => (true, cursor)
  | '?' :: ')' :: _ => none
  | '?' :: rest => do
      let (modes, rest) ← cursor.modes.read true [] rest
      return (rest.head? = some ':', { cursor with modes, rest := rest.drop 1 })
  | _ => some (true, cursor)

end Cursor

mutual

def readEither : Nat → Cursor → Option (Pattern × Cursor)
  | 0, _ => none
  | fuel + 1, cursor => do
      let (first, cursor) ← readBoth fuel cursor
      match cursor.rest with
      | '|' :: rest =>
          let (second, cursor) ← readEither fuel { cursor with rest }
          return (either first second, cursor)
      | _ => return (first, cursor)

def readBoth : Nat → Cursor → Option (Pattern × Cursor)
  | 0, _ => none
  | fuel + 1, cursor =>
      let cursor := cursor.skip
      match cursor.rest with
      | [] | '|' :: _ | ')' :: _ => some (empty, cursor)
      | '(' :: rest => do
          let (isGroup, inner) ← { cursor with rest }.readOpening
          if isGroup then
            let (first, inner) ← readEither fuel inner
            guard (inner.rest.head? = some ')')
            readAfter fuel first { cursor with rest := inner.rest.drop 1, names := inner.names }
          else readBoth fuel inner
      | chars => do
          let (first, rest) ← cursor.modes.readUnit chars
          readAfter fuel first { cursor with rest }

/-- Reads on after a part of a pattern, first the repetition of that part. -/
def readAfter : Nat → Pattern → Cursor → Option (Pattern × Cursor)
  | 0, _, _ => none
  | fuel + 1, first, cursor => do
      let (first, rest) := cursor.modes.repeat cursor.rest.length first cursor.rest
      let (second, cursor) ← readBoth fuel { cursor with rest }
      return (both first second, cursor)

end

def parse? (text : String) : Option Pattern :=
  let chars := text.toList
  match readEither (4 * chars.length + 4) { rest := chars } with
  | some (pattern, cursor) => if cursor.rest.isEmpty then some pattern else none
  | none => none

end BranchingInterview.Text.Pattern
