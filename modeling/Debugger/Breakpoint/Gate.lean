import Debugger.Breakpoint.Registry
import Debugger.Eval.Evaluate

/-!
What becomes of a hit: its breakpoint stops the thread, or logs a message and lets it go on, or
lets it go on silently. A condition that cannot be evaluated stops, so that its user gets to know.
-/

namespace Debugger

inductive Decision where
  | stop (breakpoint : BreakpointId)
  | goOn
  | log (breakpoint : BreakpointId) (message : String)
deriving DecidableEq, Repr

def Decision.stops : Decision → Bool
  | stop _ => true
  | _ => false

/-- The innermost frame of a thread. -/
def Remote.topFrame (thread : ThreadId) : Remote (Option FrameId) := do
  return (← frames thread).head?.map (·.id)

/-- The scope of the innermost frame of a thread. -/
def Scope.top (settings : EvalSettings) (thread : ThreadId) : Eval Scope := do
  match ← Remote.topFrame thread with
  | some frame => return { thread, frame, settings }
  | none => throw (.unsupported (.noFrames thread))

/-- Reads and evaluates a text, and makes something of its value. -/
def Scope.evaluateText {α : Type} (scope : Scope) (text : String) (use : Value → Eval α) :
    OverLink (Except ExpressionError α) := do
  match Syntax.parse text with
  | .error e => return .error (.reading e)
  | .ok e => return (← Link.outcome (scope.run e >>= use)).mapError .evaluation

namespace Gate

/-- Evaluates a text on the innermost frame of a thread. -/
def evaluateOnTop {α : Type} (settings : EvalSettings) (thread : ThreadId) (text : String)
    (use : Scope → Value → Eval α) : OverLink (Except ExpressionError α) := do
  match ← Link.outcome (Scope.top settings thread) with
  | .error e => return .error (.evaluation e)
  | .ok scope => scope.evaluateText text (use scope)

/-- Whether a condition holds; no condition always does. -/
def holds (settings : EvalSettings) (thread : ThreadId) :
    Option String → OverLink (Except ExpressionError Bool)
  | none => return .ok true
  | some condition => evaluateOnTop settings thread condition fun scope v => do
    return (← scope.unboxed v).isTruthy

def escape : Char → List Char
  | '\\' => ['\\', '\\']
  | '"' => ['\\', '"']
  | '\n' => ['\\', 'n']
  | '\r' => ['\\', 'r']
  | '\t' => ['\\', 't']
  | c => [c]

/-- A log message as the string literal it is the body of. Its `$` stay as they are. -/
def messageLiteral (message : String) : String :=
  String.ofList ('"' :: message.toList.flatMap escape ++ ['"'])

/-- The text of a log message, or of what is wrong with it. There is none where the evaluation of
the message never ends. -/
def renderMessage (settings : EvalSettings) (thread : ThreadId) (message : String) :
    OverLink (Option String) := do
  match ← evaluateOnTop settings thread (messageLiteral message) Scope.textOf with
  | .ok text => return some text
  | .error e => return if e.neverEnds then none else some e.display

/-- What becomes of a hit that has been counted. Where an evaluation never ends, nothing is ever
decided. -/
def decideCounted (settings : EvalSettings) (b : Breakpoint) (thread : ThreadId) :
    OverLink (Option Decision) := do
  unless b.enabled && b.hitCondition.all (·.holds b.hits) do
    return some .goOn
  match ← holds settings thread b.condition with
  | .error e => return if e.neverEnds then none else some (.stop b.id)
  | .ok false => return some .goOn
  | .ok true =>
    match b.logMessage with
    | none => return some (.stop b.id)
    | some message => return (← renderMessage settings thread message).map (.log b.id)

/-- Counts a hit and decides what becomes of it. A request without a breakpoint goes on. -/
def decide (settings : EvalSettings) (r : Registry) (request : RequestId) (thread : ThreadId) :
    OverLink (Option Decision × Registry) := do
  match r.recordHit request with
  | (none, r) => return (some .goOn, r)
  | (some b, r) => return (← decideCounted settings b thread, r)

end Gate

end Debugger
