/-!
Sets of characters, put together from ranges.
-/

namespace BranchingInterview.Text

inductive CharSet
  | anyOf (ranges : List (Char × Char))
  | complement (set : CharSet)
  | union (left right : CharSet)
  | inter (left right : CharSet)
  /-- With every ASCII letter also its other case. -/
  | caseless (set : CharSet)
deriving DecidableEq, Repr

namespace CharSet

def contains : CharSet → Char → Bool
  | anyOf ranges, c => ranges.any fun range => range.1 ≤ c && c ≤ range.2
  | complement set, c => !set.contains c
  | union left right, c => left.contains c || right.contains c
  | inter left right, c => left.contains c && right.contains c
  | caseless set, c => set.contains c || set.contains c.toLower || set.contains c.toUpper

def none : CharSet := anyOf []

def all : CharSet := complement none

def range (first last : Char) : CharSet := anyOf [(first, last)]

def single (c : Char) : CharSet := range c c

def diff (left right : CharSet) : CharSet := inter left (complement right)

def symmDiff (left right : CharSet) : CharSet := union (diff left right) (diff right left)

def digits : CharSet := range '0' '9'

def spaces : CharSet := anyOf [('\t', '\r'), (' ', ' ')]

/-- Letters, digits and the underscore. -/
def wordChars : CharSet := anyOf [('0', '9'), ('A', 'Z'), ('_', '_'), ('a', 'z')]

/-- The sets of ASCII characters that have a name. -/
def named? : String → Option CharSet
  | "alnum" => some (anyOf [('0', '9'), ('A', 'Z'), ('a', 'z')])
  | "alpha" => some (anyOf [('A', 'Z'), ('a', 'z')])
  | "ascii" => some (range '\x00' '\x7f')
  | "blank" => some (anyOf [('\t', '\t'), (' ', ' ')])
  | "cntrl" => some (anyOf [('\x00', '\x1f'), ('\x7f', '\x7f')])
  | "digit" => some digits
  | "graph" => some (range '!' '~')
  | "lower" => some (range 'a' 'z')
  | "print" => some (range ' ' '~')
  | "punct" => some (anyOf [('!', '/'), (':', '@'), ('[', '\x60'), ('\x7b', '~')])
  | "space" => some spaces
  | "upper" => some (range 'A' 'Z')
  | "word" => some wordChars
  | "xdigit" => some (anyOf [('0', '9'), ('A', 'F'), ('a', 'f')])
  | _ => .none

end CharSet

end BranchingInterview.Text
