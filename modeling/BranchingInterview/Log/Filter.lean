import BranchingInterview.Log.Directive
import BranchingInterview.Settings

/-!
Which reports are shown. Of the directives for the target of an event the one with the longest
target decides, and without any the event is not shown. Directives for the span of a screen show
more of what happens while the screen is processed.
-/

namespace BranchingInterview.Log

abbrev Filter := List Directive

namespace Directive

def isFor (directive : Directive) (target : String) : Bool :=
  directive.target.toList.isPrefixOf target.toList

/-- It asks for nothing that only a span can have. -/
def isPlain (directive : Directive) : Bool :=
  directive.span.isNone && directive.field.all (·.value.isNone)

/-- It is for the span of a screen, whichever screen that is. -/
def isForScreens (directive : Directive) : Bool :=
  (directive.span.isSome || directive.field.isSome) && directive.isFor scriptTarget &&
    directive.span.all (· = "process") && directive.field.all (·.name = "screen_id")

def fieldName (directive : Directive) : String :=
  (directive.field.map FieldPattern.name).getD ""

/-- Both ask for the same, so that the later one replaces the other. -/
def isAlike (left right : Directive) : Bool :=
  left.target = right.target && left.span = right.span && left.field = right.field

/-- Of two directives the one with the longer target, or else the one with the greater field; the
second if they are alike. -/
def closer (left right : Directive) : Directive :=
  if right.target.length < left.target.length then left
  else if left.target.length < right.target.length then right
  else if right.fieldName < left.fieldName then left
  else right

end Directive

namespace Filter

def splitCommas : List Char → List (List Char)
  | [] => [[]]
  | ',' :: rest => [] :: splitCommas rest
  | c :: rest =>
      match splitCommas rest with
      | piece :: more => (c :: piece) :: more
      | [] => [[c]]

/-- A text without directives shows errors. -/
def parse? (text : String) : Option Filter := do
  let directives ← ((splitCommas text.toList).filter (!·.isEmpty)).mapM Directive.parse?
  return if directives.isEmpty then [{ limit := Level.verbosity .error }] else directives

/-- The filter of a text; one that is no filter counts as `info`. -/
def ofText (text : String) : Filter :=
  (parse? text).getD [{ limit := Level.verbosity .info }]

/-- The verbosity set by the directive that decides; 0 without any. -/
def decidedLimit : Filter → Nat
  | [] => 0
  | first :: rest => (rest.foldl Directive.closer first).limit

/-- The verbosity shown of an event with some fields, wherever it happens. -/
def eventLimit (filter : Filter) (target : String) (fields : List String) : Nat :=
  decidedLimit (filter.filter fun directive =>
    directive.isPlain && directive.isFor target &&
      directive.field.all fun field => fields.contains field.name)

/-- The span of a screen is known to the filter: something as verbose is shown, and a directive is
for such spans or for their target. -/
def showsSpan (filter : Filter) : Bool :=
  let verbosity := Level.verbosity .info
  (filter.any fun directive =>
    verbosity ≤ directive.limit || directive.field.any (·.value.isSome)) &&
  (filter.any Directive.isForScreens ||
    verbosity ≤ decidedLimit (filter.filter fun directive =>
      directive.isPlain && directive.isFor scriptTarget))

/-- The directives that no later one replaces. -/
def withoutReplaced : Filter → Filter
  | [] => []
  | directive :: rest =>
      if rest.any directive.isAlike then withoutReplaced rest
      else directive :: withoutReplaced rest

/-- The verbosity shown in the span of a screen by the directives for that span. -/
def spanLimit (filter : Filter) (screen : String) : Nat :=
  if filter.showsSpan then
    (filter.withoutReplaced.filter fun directive =>
      directive.isForScreens && directive.field.all (·.accepts screen)).foldl
        (fun limit directive => max limit directive.limit) 0
  else 0

def shows (filter : Filter) (report : Report) : Bool :=
  let event := report.event
  event.level.verbosity ≤ filter.eventLimit event.target event.fields ||
    report.screen.any fun screen => event.level.verbosity ≤ filter.spanLimit screen

end Filter

/-- The line of a report, if it is shown. The screen is named if its span is shown. -/
def Report.line? (filter : Filter) (report : Report) : Option String :=
  if filter.shows report then
    let span :=
      match report.screen with
      | some screen =>
          if filter.showsSpan then "process\x7bscreen_id=" ++ screen ++ "\x7d: " else ""
      | none => ""
    some (report.event.level.column ++ " " ++ span ++ report.event.target ++ ": " ++
      report.event.text)
  else none

/-- The lines shown of some reports, given the level texts of the settings installed in turn: the
first one counts. -/
def lines (levels : List String) (reports : List Report) : List String :=
  match levels with
  | [] => []
  | level :: _ => reports.filterMap (Report.line? (Filter.ofText level))

end BranchingInterview.Log
