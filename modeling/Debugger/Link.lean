import Debugger.Target.Calls

/-!
The link to a target. Any call over it may be refused: `refuses` says for the n-th call what it
fails with, if it fails.
-/

namespace Debugger

/-- The calls that cross the link. -/
inductive Call where
  | listLoaded | typeName | sourceFile | superclass | interfaces
  | locationsForLine | methodsByName | methodEntry
  | createRequest | setRequestEnabled | deleteRequest | subscribeLoads
  | threadSuspended | resume | frames
  | frameThis | visibleVariables | variableValue | frameType
  | objectType | field | setField | staticField
  | arrayLength | element | setElement | stringValue | wrapString
  | invoke | construct
deriving DecidableEq, Repr

structure Link where
  target : Target
  /-- How many calls were made. -/
  calls : Nat := 0
  refuses : Nat → Call → Option Fault := fun _ _ => none

/-- A conversation with the target. -/
abbrev Remote := EStateM Fault Link

namespace Link

/-- Makes a call: the target does its part unless the call is refused. -/
def call {α : Type} (c : Call) (act : Target → Except Fault α × Target) : Remote α := fun l =>
  let l' := { l with calls := l.calls + 1 }
  match l.refuses l.calls c with
  | some fault => .error fault l'
  | none => match act l.target with
    | (.ok a, t) => .ok a { l' with target := t }
    | (.error fault, t) => .error fault { l' with target := t }

/-- A call that changes nothing. -/
def ask {α : Type} (c : Call) (act : Target → Except Fault α) : Remote α :=
  call c fun t => (act t, t)

/-- A call that changes the target if it succeeds. -/
def order {α : Type} (c : Call) (act : Target → Except Fault (α × Target)) : Remote α :=
  call c fun t => match act t with
    | .ok (a, t') => (.ok a, t')
    | .error fault => (.error fault, t)

def orderOnly (c : Call) (act : Target → Except Fault Target) : Remote Unit :=
  order c fun t => (act t).map ((), ·)

end Link

namespace Remote

def listLoaded (name : Option String) : Remote (List TypeId) :=
  Link.ask .listLoaded (·.listLoaded name)

def typeName (id : TypeId) : Remote String :=
  Link.ask .typeName (·.typeName id)

def sourceFile (id : TypeId) : Remote (Option String) :=
  Link.ask .sourceFile (·.sourceFile id)

def superclass (id : TypeId) : Remote (Option TypeId) :=
  Link.ask .superclass (·.superclass id)

def interfaces (id : TypeId) : Remote (List TypeId) :=
  Link.ask .interfaces (·.interfaces id)

def locationsForLine (id : TypeId) (line : Nat) : Remote (List Location) :=
  Link.ask .locationsForLine (·.locationsForLine id line)

def methodsByName (id : TypeId) (name : String) : Remote (List Method) :=
  Link.ask .methodsByName (·.methodsByName id name)

def methodEntry (id : TypeId) (method : MethodId) : Remote (Option Location) :=
  Link.ask .methodEntry (·.methodEntry id method)

def createRequest (location : Location) : Remote RequestId :=
  Link.order .createRequest (·.createRequest location)

def setRequestEnabled (id : RequestId) (enabled : Bool) : Remote Unit :=
  Link.orderOnly .setRequestEnabled (·.setRequestEnabled id enabled)

def deleteRequest (id : RequestId) : Remote Unit :=
  Link.orderOnly .deleteRequest (·.deleteRequest id)

def subscribeLoads (filter : String) : Remote RequestId :=
  Link.order .subscribeLoads (·.subscribeLoads filter)

def threadSuspended (id : ThreadId) : Remote Bool :=
  Link.ask .threadSuspended (·.threadSuspended id)

def resume (id : ThreadId) : Remote Unit :=
  Link.orderOnly .resume (·.resume id)

def frames (id : ThreadId) : Remote (List FrameInfo) :=
  Link.ask .frames (·.frames id)

def frameThis (thread : ThreadId) (frame : FrameId) : Remote (Option ObjectId) :=
  Link.ask .frameThis (·.frameThis thread frame)

def visibleVariables (thread : ThreadId) (frame : FrameId) : Remote (List Variable) :=
  Link.ask .visibleVariables (·.visibleVariables thread frame)

def variableValue (thread : ThreadId) (frame : FrameId) (name : String) : Remote Datum :=
  Link.ask .variableValue (·.variableValue thread frame name)

def frameType (thread : ThreadId) (frame : FrameId) : Remote TypeId :=
  Link.ask .frameType (·.frameType thread frame)

def objectType (id : ObjectId) : Remote TypeId :=
  Link.order .objectType (·.objectType id)

def field (id : ObjectId) (name : String) : Remote (Option Datum) :=
  Link.ask .field (·.field id name)

def setField (id : ObjectId) (name : String) (value : Datum) : Remote Unit :=
  Link.orderOnly .setField (·.setField id name value)

def staticField (id : TypeId) (name : String) : Remote (Option Datum) :=
  Link.ask .staticField (·.staticField id name)

def arrayLength (id : ObjectId) : Remote Nat :=
  Link.ask .arrayLength (·.arrayLength id)

def element (id : ObjectId) (index : Nat) : Remote Datum :=
  Link.ask .element (·.element id index)

def setElement (id : ObjectId) (index : Nat) (value : Datum) : Remote Unit :=
  Link.orderOnly .setElement (·.setElement id index value)

def stringValue (id : ObjectId) : Remote String :=
  Link.ask .stringValue (·.stringValue id)

def wrapString (text : String) : Remote ObjectId :=
  Link.order .wrapString (·.wrapString text)

def invoke (thread : ThreadId) (receiver : Receiver) (method : MethodId) (args : List Datum) :
    Remote Datum :=
  Link.call .invoke (·.invoke thread receiver method args)

def construct (thread : ThreadId) (type : TypeId) (constructor : MethodId) (args : List Datum) :
    Remote Datum :=
  Link.call .construct (·.construct thread type constructor args)

end Remote

/-! ### Dealing with failures -/

/-- Steps over a link whose failures are dealt with. -/
abbrev OverLink := StateM Link

/-- How a conversation ends, as a value. What the target did stays done. -/
def Link.outcome {ε α : Type} (x : EStateM ε Link α) : OverLink (Except ε α) := fun l =>
  match x l with
  | .ok a l => (.ok a, l)
  | .error e l => (.error e, l)

def Remote.outcome {α : Type} (x : Remote α) : OverLink (Except Fault α) :=
  Link.outcome x

/-- The result of a call, or nothing if it fails. -/
def Remote.result? {α : Type} (x : Remote α) : OverLink (Option α) := do
  match ← x.outcome with
  | .ok a => return some a
  | .error _ => return none

end Debugger
