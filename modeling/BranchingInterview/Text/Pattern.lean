import BranchingInterview.Text.CharSet

/-!
Patterns for texts. A pattern prefers one of the ways to match the start of a text: the first of two
alternatives, and as many repetitions as there are or, where they are marked as reluctant, as few. It
is looked for from the start of a text on, and fits the text if the first match that is found, in its
preferred way, leaves nothing.
-/

namespace BranchingInterview.Text

/-- A place between characters. Words are made of ASCII letters, digits and underscores. -/
inductive Place
  | textStart
  | textEnd
  | lineStart
  | lineEnd
  | wordEdge
  | noWordEdge
  | wordStart
  | wordEnd
deriving DecidableEq, Repr

inductive Pattern
  | empty
  | oneOf (set : CharSet)
  | atPlace (place : Place)
  | both (first second : Pattern)
  | either (first second : Pattern)
  | optional (isGreedy : Bool) (body : Pattern)
  /-- One or more times. -/
  | repeated (isGreedy : Bool) (body : Pattern)
deriving DecidableEq, Repr

/-- Whether a place is between two neighbours, of which one is missing at an end of the text. -/
def Place.isBetween (left right : Option Char) : Place → Bool :=
  let isInWord (neighbour : Option Char) := neighbour.any CharSet.wordChars.contains
  fun
  | textStart => left.isNone
  | textEnd => right.isNone
  | lineStart => left.all (· == '\n')
  | lineEnd => right.all (· == '\n')
  | wordEdge => isInWord left != isInWord right
  | noWordEdge => isInWord left == isInWord right
  | wordStart => !isInWord left && isInWord right
  | wordEnd => isInWord left && !isInWord right

namespace Pattern

section

variable {α : Type}

/-- Going on before staying here, or after it. -/
def inOrder (isGreedy : Bool) (further : List α) (here : α) : List α :=
  if isGreedy then further ++ [here] else here :: further

end

/-- What repetitions leave of a text, the preferred first; one that takes nothing is the last. -/
def restsOfRepeated (isGreedy : Bool) (rests : List Char → List (List Char)) :
    Nat → List Char → List (List Char)
  | 0, text => rests text
  | fuel + 1, text =>
      ((rests text).flatMap fun rest =>
        if rest.length < text.length then
          inOrder isGreedy (restsOfRepeated isGreedy rests fuel rest) rest
        else [rest]).eraseDups

/-- What the ways to match the start of `text`, the end of a whole text, leave of it, the preferred
first. -/
def rests (whole : List Char) : Pattern → List Char → List (List Char)
  | empty, text => [text]
  | oneOf set, text =>
      match text with
      | [] => []
      | c :: rest => if set.contains c then [rest] else []
  | atPlace place, text =>
      let left := (whole.take (whole.length - text.length)).getLast?
      if place.isBetween left text.head? then [text] else []
  | both first second, text =>
      ((first.rests whole text).flatMap (second.rests whole)).eraseDups
  | either first second, text =>
      (first.rests whole text ++ second.rests whole text).eraseDups
  | optional isGreedy body, text => (inOrder isGreedy (body.rests whole text) text).eraseDups
  | repeated isGreedy body, text => restsOfRepeated isGreedy (body.rests whole) text.length text

/-- The pattern after as few characters as possible. -/
def anywhere (pattern : Pattern) : Pattern :=
  both (optional false (repeated false (oneOf .all))) pattern

def fits (pattern : Pattern) (text : String) : Bool :=
  (pattern.anywhere.rests text.toList text.toList).head? = some []

end Pattern

end BranchingInterview.Text
