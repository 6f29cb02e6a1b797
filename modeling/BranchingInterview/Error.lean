/-!
What can go wrong: in a router, in a turn of a script, in an interview as written, and in the
settings. Each cause has one wording.
-/

namespace BranchingInterview

inductive RouterError
  | unknownCheckpoint (name : String)
  | stackUnderflow
  | interviewComplete
  | other (message : String)
deriving DecidableEq, Repr

def RouterError.message : RouterError → String
  | unknownCheckpoint name => "Unknown checkpoint: " ++ name
  | stackUnderflow => "Navigation stack underflow"
  | interviewComplete => "Interview already complete"
  | other message => message

/-- Why a turn of a script ends early. -/
inductive ScriptError
  /-- A text compared as a date is none. -/
  | invalidDate (text : String)
  | unhandledOperator (name : String)
  | missingScreen (id : String)
  | rejected (reason : RouterError)
deriving DecidableEq, Repr

def ScriptError.message : ScriptError → String
  | invalidDate text => "The date '" ++ text ++ "' failed to parse"
  | unhandledOperator name => "Unhandled conditional operator: " ++ name
  | missingScreen id => "Screen not found: " ++ id
  | rejected reason => "Router rejected command: " ++ reason.message

/-- What an author left out or got wrong. -/
inductive ValidationError
  | missingKey (operator : String)
  | missingOperand (operator : String)
  | emptyPush
  | nestedAlways
  | alwaysNotAlone
  | unknownScreen (id referrer : String)
  | invalidPayload (action reason : String)
deriving DecidableEq, Repr

def ValidationError.message : ValidationError → String
  | missingKey operator =>
      "A '" ++ operator ++ "' condition must select a response to compare to"
  | missingOperand operator => "A '" ++ operator ++ "' condition must have a value"
  | emptyPush => "A Push action cannot have an empty payload"
  | nestedAlways => "Only the top-level condition should be configurable to always execute"
  | alwaysNotAlone =>
      "If the first condition is always executable then there should be no other conditions"
  | unknownScreen id referrer =>
      "Screen '" ++ id ++ "' referenced by " ++ referrer ++ " does not exist"
  | invalidPayload action reason =>
      "Invalid payload for '" ++ action ++ "' action: " ++ reason

structure SettingsError where
  name : String
  reason : String
deriving DecidableEq, Repr

def SettingsError.message (error : SettingsError) : String :=
  "Invalid value for " ++ error.name ++ ": " ++ error.reason

/-- Any of the errors, for a host that wants a single type. -/
inductive Failure
  | script (error : ScriptError)
  | router (error : RouterError)
  | validation (error : ValidationError)
  | settings (error : SettingsError)
deriving DecidableEq, Repr

def Failure.message : Failure → String
  | script error => "Script error: " ++ error.message
  | router error => "Router error: " ++ error.message
  | validation error => "Validation error: " ++ error.message
  | settings error => "Configuration error: " ++ error.message

end BranchingInterview
