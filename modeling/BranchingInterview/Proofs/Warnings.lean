import BranchingInterview.Proofs.Environment
import BranchingInterview.Proofs.Levels
import BranchingInterview.Proofs.Requests
import BranchingInterview.Proofs.Stacks

/-!
What becomes of the ids that a call asks for under the lenient policy. Before a router that accepts
every command an id either has its screen pushed or is reported to be dropped: the pushes come in
the reverse of the order in which the ids are asked for, the reports come in that order.
-/

namespace BranchingInterview

variable {σ α β : Type}

def Command.pushed? : Command → Option Screen
  | push screen => some screen
  | _ => none

def Log.Event.dropped? : Event → Option String
  | dropped id => some id
  | _ => none

/-- The ids that are reported to be dropped. -/
def Log.warnings (reports : List Report) : List String :=
  reports.filterMap fun report => report.event.dropped?

/-- The reports that have a line at a level. -/
def Log.shown (level : String) (reports : List Report) : List Report :=
  reports.filter fun report => (report.line? (Filter.ofText level)).isSome

/-- Before a router that accepts every command a turn returns a result, pushes some screens and
warns of some ids, whatever the session is. -/
def Turn.Yields (turn : Turn (σ × List Command) α) (result : Except ScriptError α)
    (pushed : List Screen) (warned : List String) : Prop :=
  ∀ session, ∃ state sent reports,
    turn.run.run session = (result,
      { router := (state, session.router.2 ++ sent), reports := session.reports ++ reports }) ∧
    sent.filterMap Command.pushed? = pushed ∧ Log.warnings reports = warned

namespace Turn

variable {pushed more : List Screen} {warned others : List String} {error : ScriptError} {value : α}
  {result : Except ScriptError β} {first : Turn (σ × List Command) α}
  {next : α → Turn (σ × List Command) β}

theorem Yields.bind (hfirst : first.Yields (.ok value) pushed warned)
    (hnext : (next value).Yields result more others) :
    (first >>= next).Yields result (pushed ++ more) (warned ++ others) := by
  intro session
  obtain ⟨state, sent, reports, hrun, rfl, rfl⟩ := hfirst session
  obtain ⟨last, later, rest, hnextRun, rfl, rfl⟩ := hnext _
  refine ⟨last, sent ++ later, reports ++ rest, ?_, List.filterMap_append ..,
    List.filterMap_append ..⟩
  rw [run_bind, hrun]
  dsimp only
  rw [hnextRun, List.append_assoc, List.append_assoc]

theorem Yields.bind_error (hfirst : first.Yields (.error error) pushed warned) :
    (first >>= next).Yields (.error error) pushed warned := by
  intro session
  obtain ⟨state, sent, reports, hrun, hpushed, hwarned⟩ := hfirst session
  exact ⟨state, sent, reports, by rw [run_bind, hrun], hpushed, hwarned⟩

section Accepting

variable {router : Router σ} (context : TurnContext (σ × List Command))
  (haccepts : ∀ command state, (router command state).1 = .ok ())
  (hrouter : context.router = router.recording) (hlenient : context.policy = .lenient)

end Accepting

end Turn

namespace Script

section

variable {script : Script} {responses : Responses} {candidate : Candidate}

end

/-- What is reported in a call. -/
def reports (script : Script) (router : Router σ) (state : σ) : Call σ → List Log.Report
  | .setup => ((script.setup router.recording).run.run { router := (state, []) }).2.reports
  | .process screen responses =>
      ((script.process router.recording screen responses).run.run
        { router := (state, []) }).2.reports
  | .host _ => []

variable {script : Script} {router : Router σ}
  (haccepts : ∀ command state, (router command state).1 = .ok ())
  (hlenient : script.settings.screenPolicy = .lenient)
include haccepts hlenient

end Script

end BranchingInterview
