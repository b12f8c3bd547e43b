import Debugger.Breakpoint.Gate
import Debugger.Breakpoint.LoadWatch
import Debugger.Handles

/-!
A session: breakpoints, evaluation and handles together on one target, as its user sees them.
-/

namespace Debugger

structure Session where
  settings : Settings
  registry : Registry
  watch : LoadWatch
  handles : Handles

/-- How the value of an expression is shown. -/
structure Shown where
  text : String
  type : String
  /-- By which it can be expanded. -/
  handle : Option Handle
deriving DecidableEq, Repr

inductive StopReason where
  | breakpoint (id : BreakpointId)
  | step
  | exception (exception : ObjectId) (caught : Bool)
deriving DecidableEq, Repr

/-- What the user of a session is told. -/
inductive Notice where
  | stopped (thread : ThreadId) (reason : StopReason)
  | output (text : String)
  | terminated
deriving DecidableEq, Repr

namespace Session

def start (settings : Settings) : Session :=
  { settings
    registry := { settings := settings.breakpoints }
    watch := {}
    handles := { limit := settings.evaluation.maxHandles } }

/-! ### Evaluation -/

def topFrame (thread : ThreadId) : OverLink (Except SessionError FrameId) := do
  match ← (Remote.topFrame thread).outcome with
  | .ok (some frame) => return .ok frame
  | .ok none => return .error (.noFrames thread)
  | .error fault => return .error (.remote fault)

/-- The text and the type of a value. -/
def describe (scope : Scope) (v : Value) : Eval (Value × String × String) := do
  let text ← scope.display v
  return (v, text, ← Eval.typeNameOf v)

/-- A failure may tell that an object has been collected. -/
def noteFailure (s : Session) : ExpressionError → Session
  | .evaluation (.remote (.invalidObject id)) => { s with handles := s.handles.markInvalid id }
  | _ => s

/-- Shows a value; arrays and objects get a handle. -/
def present (s : Session) (v : Value) (text type : String) : Shown × Session :=
  match v with
  | .array id | .object id =>
    let (h, handles) := s.handles.track id type
    (⟨text, type, some h⟩, { s with handles })
  | _ => (⟨text, type, none⟩, s)

def tryEvaluate (s : Session) (thread : ThreadId) (frame : FrameId) (text : String) :
    OverLink (Except ExpressionError Shown × Session) := do
  let scope : Scope := { thread, frame, settings := s.settings.evaluation }
  match ← scope.evaluateText text (describe scope) with
  | .error e => return (.error e, s.noteFailure e)
  | .ok (v, text, type) =>
    let (shown, s) := s.present v text type
    return (.ok shown, s)

/-- Evaluates a text; a failure is shown in place of the value. Nothing is shown where the
evaluation never ends. -/
def evaluate (s : Session) (thread : ThreadId) (frame : FrameId) (text : String) :
    OverLink (Option Shown × Session) := do
  match ← s.tryEvaluate thread frame text with
  | (.ok shown, s) => return (some shown, s)
  | (.error e, s) => return (if e.neverEnds then none else some ⟨e.display, "", none⟩, s)

/-- The object of a handle, unless it is known to be collected. -/
def object? (s : Session) (h : Handle) : Option ObjectId :=
  if s.handles.isInvalid h then none else s.handles.object? h

def pin (s : Session) (h : Handle) : Session :=
  { s with handles := s.handles.pin h }

def unpin (s : Session) (h : Handle) : Session :=
  { s with handles := s.handles.unpin h }

/-- Lets a thread run on its user's behalf. Handles that are not pinned are forgotten first. -/
def resume (s : Session) (thread : ThreadId) : OverLink (Except SessionError Unit × Session) := do
  let s := { s with handles := s.handles.clearUnpinned }
  return ((← (Remote.resume thread).outcome).mapError .remote, s)

/-! ### Breakpoints -/

def register (s : Session) (spec : BreakpointSpec) :
    OverLink (Except SessionError Breakpoint × Session) := do
  let (result, registry) ← s.registry.register spec
  return (result, { s with registry })

/-- Registers a breakpoint; from the first one on, the session hears of type loads. -/
def add (s : Session) (spec : BreakpointSpec) :
    OverLink (Except SessionError Breakpoint × Session) := do
  match ← s.watch.subscribe with
  | (.error fault, watch) => return (.error (.remote fault), { s with watch })
  | (.ok _, watch) =>
    let s := { s with watch }
    s.register spec

def remove (s : Session) (id : BreakpointId) : OverLink (Bool × Session) := do
  let (existed, registry) ← s.registry.remove id
  return (existed, { s with registry })

def setEnabled (s : Session) (id : BreakpointId) (enabled : Bool) :
    OverLink (Except SessionError Unit × Session) := do
  let (result, registry) ← s.registry.setEnabled id enabled
  return (result, { s with registry })

def onTypeLoaded (s : Session) (type : TypeId) : OverLink (List BreakpointId × Session) := do
  let (ids, registry) ← s.registry.onTypeLoaded type
  return (ids, { s with registry })

def rescan (s : Session) : OverLink (List BreakpointId × Session) := do
  let (ids, registry) ← s.registry.rescan
  return (ids, { s with registry })

def clear (s : Session) : OverLink Session := do
  return { s with registry := ← s.registry.clear }

def decide (s : Session) (request : RequestId) (thread : ThreadId) :
    OverLink (Option Decision × Session) := do
  let (decision, registry) ← Gate.decide s.settings.evaluation s.registry request thread
  return (decision, { s with registry })

end Session

end Debugger
