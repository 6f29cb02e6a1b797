import BranchingInterview.Calendar.Form
import BranchingInterview.Error
import BranchingInterview.Text.Blank

/-!
The settings of a script and how they are loaded from the environment: three variables, each with
a default, of which the first with a value that is not allowed is reported.
-/

namespace BranchingInterview

/-- What becomes of a screen id that no screen has. -/
inductive ScreenPolicy
  /-- It is dropped. -/
  | lenient
  /-- The turn fails. -/
  | strict
deriving DecidableEq, Repr

structure Settings where
  /-- The date that `null` stands for where dates are compared. -/
  nullDate : Date := Date.epoch
  screenPolicy : ScreenPolicy := .lenient
  logLevel : String := "info"
deriving DecidableEq

def lowerAscii (text : String) : String :=
  String.ofList (text.toList.map Char.toLower)

namespace ScreenPolicy

def name : ScreenPolicy → String
  | lenient => "lenient"
  | strict => "strict"

def isStrict : ScreenPolicy → Bool
  | lenient => false
  | strict => true

def variableName : String := "INTERVIEW_SCREEN_POLICY"

/-- Outer blanks and the case of letters do not matter. -/
def parse (text : String) : Except SettingsError ScreenPolicy :=
  let word := lowerAscii (Text.trim text)
  if word = lenient.name then .ok lenient
  else if word = strict.name then .ok strict
  else .error ⟨variableName, "must be 'strict' or 'lenient'"⟩

end ScreenPolicy

namespace Settings

def nullDateVariable : String := "INTERVIEW_NULL_DATE"

def logLevelVariable : String := "LOG_LEVEL"

def logLevels : List String := ["error", "warn", "info", "debug", "trace"]

def parseNullDate (text : String) : Except SettingsError Date :=
  match Calendar.readDate (Text.trimmed text.toList) with
  | some date => .ok date
  | none => .error ⟨nullDateVariable, "must be an ISO date (YYYY-MM-DD)"⟩

def validate (settings : Settings) : Except SettingsError Unit :=
  if logLevels.contains (lowerAscii settings.logLevel) then .ok ()
  else .error ⟨logLevelVariable, "must be one of " ++ ", ".intercalate logLevels⟩

def ofEnvironment (value? : String → Option String) : Except SettingsError Settings := do
  let nullDate ←
    match value? nullDateVariable with
    | some text => parseNullDate text
    | none => .ok Date.epoch
  let screenPolicy ←
    match value? ScreenPolicy.variableName with
    | some text => ScreenPolicy.parse text
    | none => .ok .lenient
  let logLevel := (value? logLevelVariable).getD "info"
  let settings : Settings := { nullDate, screenPolicy, logLevel }
  settings.validate
  return settings

end Settings

end BranchingInterview
