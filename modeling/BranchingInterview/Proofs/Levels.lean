import BranchingInterview.Log.Filter
import BranchingInterview.Proofs.Text.Spelling
import Mathlib.Data.List.TakeWhile

/-!
Level texts that name a level. A text that spells the name of a level, in letters of any case, shows
every event up to that level, wherever it happens.
-/

namespace BranchingInterview.Log

open Text

namespace Level

def all : List Level := [error, warn, info, debug, trace]

def name : Level → String
  | error => "error"
  | warn => "warn"
  | info => "info"
  | debug => "debug"
  | trace => "trace"

theorem isLower_name (level : Level) : ∀ letter ∈ level.name.toList, letter.isLower = true := by
  have hall : level.name.toList.all Char.isLower = true := by cases level <;> decide
  exact List.all_eq_true.1 hall

end Level

variable {chars : List Char} {c : Char} {level : Level}

end BranchingInterview.Log
