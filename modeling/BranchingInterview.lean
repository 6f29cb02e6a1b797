import BranchingInterview.Action.Stored
import BranchingInterview.Log.Filter
import BranchingInterview.Run
import BranchingInterview.Wire.Clause
import BranchingInterview.Wire.Interview
import BranchingInterview.Proofs.Policy
import BranchingInterview.Proofs.Stacks
import BranchingInterview.Proofs.Moments
import BranchingInterview.Proofs.Wire.Trees
import BranchingInterview.Proofs.Agreement
import BranchingInterview.Proofs.DateOrder
import BranchingInterview.Proofs.Groups
import BranchingInterview.Proofs.Storage
import BranchingInterview.Proofs.Calendar.Offset
import BranchingInterview.Proofs.Calendar.WrittenDate
import BranchingInterview.Proofs.Lookup
import BranchingInterview.Proofs.References
import BranchingInterview.Proofs.TextOrder
import BranchingInterview.Proofs.SoleAlways
import BranchingInterview.Proofs.Snapshots
import BranchingInterview.Proofs.Unanswered
import BranchingInterview.Proofs.Reloading
import BranchingInterview.Proofs.Wire.MemberOrder
import BranchingInterview.Proofs.Checks
import BranchingInterview.Proofs.Clauses
import BranchingInterview.Proofs.Pushes
import BranchingInterview.Proofs.Failures
import BranchingInterview.Proofs.Calendar.DaySequence
import BranchingInterview.Proofs.Calendar.UniversalTime
import BranchingInterview.Proofs.DayOrder
import BranchingInterview.Proofs.Calendar.DateText
import BranchingInterview.Proofs.NullDate
import BranchingInterview.Proofs.Calendar.FixedWidth
import BranchingInterview.Proofs.TextDates
import BranchingInterview.Proofs.InstantRange
import BranchingInterview.Proofs.Regrouping
import BranchingInterview.Proofs.NullShift
import BranchingInterview.Proofs.TextOperators
import BranchingInterview.Proofs.StartingScreens
import BranchingInterview.Proofs.Text.Spelling
import BranchingInterview.Proofs.Environment
import BranchingInterview.Proofs.Wire.UnknownOperators
import BranchingInterview.Proofs.Warnings
import BranchingInterview.Proofs.Operands
import BranchingInterview.Proofs.WholeRecords
