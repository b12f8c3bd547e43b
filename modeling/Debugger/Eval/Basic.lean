import Debugger.Eval.Error
import Debugger.Link
import Debugger.Settings.Basic

/-!
Conversations that evaluate: they ask the target, may run code in it, and fail with an evaluation
error. What the target did stays done when they fail.
-/

namespace Debugger

abbrev Eval := EStateM EvalError Link

instance : MonadLift Remote Eval where
  monadLift x := fun l => match x l with
    | .ok a l => .ok a l
    | .error fault l => .error (.ofFault fault) l

/-- The outcome of a conversation, as a value. -/
def Eval.attempt {α : Type} (x : Eval α) : Eval (Except EvalError α) := fun l =>
  match x l with
  | .ok a l => .ok (.ok a) l
  | .error e l => .ok (.error e) l

/-- The result, or nothing where the conversation fails; one that does not end has no outcome. -/
def Eval.attempt? {α : Type} (x : Eval α) : Eval (Option α) := do
  match ← x.attempt with
  | .ok a => return some a
  | .error .endless => throw .endless
  | .error _ => return none

/-- The frame that an expression is evaluated on, and the settings that apply. -/
structure Scope where
  thread : ThreadId
  frame : FrameId
  settings : EvalSettings

namespace Eval

/-- The value of a datum; the text of a string is fetched at once. -/
def ofDatum : Datum → Eval Value
  | .null => return .null
  | .void => return .void
  | .primitive p => return .primitive p
  | .string id => return .text (← Remote.stringValue id) (some id)
  | .array id => return .array id
  | .object id => return .object id

def runtimeType (id : ObjectId) : Remote String := do
  Remote.typeName (← Remote.objectType id)

/-- The type of a heap object; one that cannot be asked counts as an object of no special type. -/
def runtimeTypeName (id : ObjectId) : Eval String := do
  return (← (liftM (runtimeType id) : Eval String).attempt?).getD TypeName.object

/-- The name of a value's type as it is reported. -/
def typeNameOf : Value → Eval String
  | .array id | .object id => runtimeTypeName id
  | v => return v.localTypeName?.getD ""

/-- Fails with the types of two values. -/
def operandMismatch {α : Type} (op : Syntax.BinaryOp) (a b : Value) : Eval α := do
  let left ← typeNameOf a
  let right ← typeNameOf b
  throw (.typeMismatch (.operands op left right))

end Eval

namespace Scope

/-- Code may be run only if the settings allow it and the thread stands still. -/
def ensureInvocable (scope : Scope) : Eval Unit := do
  unless scope.settings.allowInvocation do
    throw (.unsupported .invocationDisabled)
  unless ← Remote.threadSuspended scope.thread do
    throw (.notSuspended scope.thread)

end Scope

end Debugger
