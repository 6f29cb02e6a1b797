import BranchingInterview.Json.Canonical

/-!
The compact text of a JSON tree: no blanks, members in their order, and only what JSON does not
allow in a string is escaped.
-/

namespace BranchingInterview

def Number.text : Number → String
  | .integer value => toString value
  | .double value => value.text

namespace Json

def hexDigit (n : Nat) : Char := Nat.digitChar (n % 16)

def escapeChar (c : Char) : List Char :=
  match c with
  | '"' => ['\\', '"']
  | '\\' => ['\\', '\\']
  | '\n' => ['\\', 'n']
  | '\t' => ['\\', 't']
  | '\r' => ['\\', 'r']
  | '\x08' => ['\\', 'b']
  | '\x0c' => ['\\', 'f']
  | c =>
      if c.toNat < 0x20 then ['\\', 'u', '0', '0', hexDigit (c.toNat / 16), hexDigit c.toNat]
      else [c]

def printString (value : String) : List Char :=
  '"' :: value.toList.flatMap escapeChar ++ ['"']

mutual

def print : Json → List Char
  | null => ['n', 'u', 'l', 'l']
  | bool true => ['t', 'r', 'u', 'e']
  | bool false => ['f', 'a', 'l', 's', 'e']
  | number value => value.text.toList
  | string value => printString value
  | array [] => ['[', ']']
  | array (item :: rest) => '[' :: item.print ++ printMore rest ++ [']']
  | object [] => ['\x7b', '\x7d']
  | object ((name, value) :: rest) =>
      '\x7b' :: printString name ++ ':' :: value.print ++ printMoreMembers rest ++ ['\x7d']
  | flaw _ => ['n', 'u', 'l', 'l']

def printMore : List Json → List Char
  | [] => []
  | item :: rest => ',' :: item.print ++ printMore rest

def printMoreMembers : List (String × Json) → List Char
  | [] => []
  | (name, value) :: rest => ',' :: printString name ++ ':' :: value.print ++ printMoreMembers rest

end

def text (json : Json) : String :=
  String.ofList json.print

def canonicalText (json : Json) : String :=
  (json.canonical?.getD json).text

end Json

end BranchingInterview
