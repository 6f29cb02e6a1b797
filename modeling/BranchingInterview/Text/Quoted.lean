import BranchingInterview.Text.Invisible

/-!
Quoted text, as messages and log lines show it: in double quotes, with a backslash before a quote
or a backslash, short forms for four controls, and `\u{…}` with the code point of every other
invisible character.
-/

namespace BranchingInterview.Text

def hexDigits (n : Nat) : List Char :=
  Nat.toDigits 16 n

def quoteChar (c : Char) : List Char :=
  match c with
  | '"' => ['\\', '"']
  | '\\' => ['\\', '\\']
  | '\n' => ['\\', 'n']
  | '\t' => ['\\', 't']
  | '\r' => ['\\', 'r']
  | '\x00' => ['\\', '0']
  | c =>
      if c.toNat < 0x20 || isInvisible c then
        '\\' :: 'u' :: '\x7b' :: hexDigits c.toNat ++ ['\x7d']
      else [c]

def quote (text : String) : String :=
  String.ofList ('"' :: text.toList.flatMap quoteChar ++ ['"'])

end BranchingInterview.Text
