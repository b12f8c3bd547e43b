import Debugger.EventLoop
import Debugger.Log.Buffer
import Debugger.Log.Filter
import Debugger.Settings.File
import Debugger.Proofs.Calls
import Debugger.Proofs.EvaluationFrame
import Debugger.Proofs.Target
import Debugger.Proofs.Attaching
import Debugger.Proofs.Breakpoints
import Debugger.Proofs.Bookkeeping
import Debugger.Proofs.History
import Debugger.Proofs.SourcePaths
import Debugger.Proofs.Waiting
import Debugger.Proofs.Loading
import Debugger.Proofs.Operations
import Debugger.Proofs.Hits
import Debugger.Proofs.Runs
import Debugger.Proofs.Consistency
import Debugger.Proofs.Removal
import Debugger.Proofs.Coverage
import Debugger.Proofs.Agreement
import Debugger.Proofs.Sessions
import Debugger.Proofs.Mirroring
import Debugger.Proofs.Silence
import Debugger.Proofs.Lifetimes
import Debugger.Proofs.Additions
import Debugger.Proofs.Logpoints
import Debugger.Proofs.Printing
import Debugger.Proofs.Lexing
import Debugger.Proofs.Parsing
import Debugger.Proofs.RoundTrip
import Debugger.Proofs.Handles
import Debugger.Proofs.Growth
import Debugger.Proofs.HitLog
import Debugger.Proofs.HitCounts
import Debugger.Proofs.RegistryFrame
import Debugger.Proofs.Suspension
import Debugger.Proofs.Exactness
import Debugger.Proofs.Outcome
import Debugger.Proofs.LoadOrder
import Debugger.Proofs.Teardown
import Debugger.Proofs.MessageTemplates
import Debugger.Proofs.Formation
import Debugger.Proofs.Selection
import Debugger.Proofs.Marshalling
import Debugger.Proofs.Lockstep
import Debugger.Proofs.Locals
import Debugger.Proofs.Boxes
import Debugger.Proofs.Braces
import Debugger.Proofs.Holes
import Debugger.Proofs.Repetition
import Debugger.Proofs.Membership
import Debugger.Proofs.Resuming
import Debugger.Proofs.Integers
import Debugger.Proofs.Hierarchy
import Debugger.Proofs.Overloads
import Debugger.Proofs.Reports
import Debugger.Proofs.Rescanning
import Debugger.Proofs.Progressions
import Debugger.Proofs.StringIndexing
import Debugger.Proofs.TypeChecks
import Debugger.Proofs.Nesting
import Debugger.Proofs.Locality
import Debugger.Proofs.Reruns
import Debugger.Proofs.Layout
import Debugger.Proofs.IntegerLiterals
import Debugger.Proofs.QuestionMarks
import Debugger.Proofs.Unboxing
import Debugger.Proofs.StringLiterals
import Debugger.Proofs.HoleSources
import Debugger.Proofs.Reentry
import Debugger.Proofs.HandleNumbers
import Debugger.Proofs.HitConditions
import Debugger.Proofs.Distances
import Debugger.Proofs.Lineage
import Debugger.Proofs.StaticFields
import Debugger.Proofs.Overriding
