import Debugger.Primitive

/-!
What a debugger sees of the process it debugs: ids, data, code positions, events, and the reasons
for which a call to it fails. An id can go stale at any moment.
-/

namespace Debugger

abbrev TypeId := Nat
abbrev ObjectId := Nat
abbrev ThreadId := Nat
abbrev FrameId := Nat
abbrev MethodId := Nat

/-- Requests have numbers of 32 bits. Here their counter goes on past those, so each new number is
fresh; of what is said of runs, what rests on that is meant for those in which the counter does not
get that far. -/
abbrev RequestId := Nat

/-- A value on the side of the target. Strings, arrays and objects are names of heap cells. -/
inductive Datum where
  | null
  | void
  | primitive (value : Primitive)
  | string (id : ObjectId)
  | array (id : ObjectId)
  | object (id : ObjectId)
deriving Repr

structure Location where
  type : TypeId
  method : MethodId
  line : Nat
  index : Nat
deriving DecidableEq, Repr

structure Method where
  id : MethodId
  name : String
  /-- Names of the parameter types, in order. -/
  params : List String
  result : String
  isStatic : Bool
deriving DecidableEq, Repr

structure Variable where
  name : String
  type : String
deriving DecidableEq, Repr

structure FrameInfo where
  id : FrameId
  location : Location
deriving DecidableEq, Repr

/-- What a method is invoked on. -/
inductive Receiver where
  | object (id : ObjectId)
  | type (id : TypeId)
deriving DecidableEq, Repr

inductive Event where
  | typeLoaded (type : TypeId)
  | hit (request : RequestId) (thread : ThreadId) (location : Location)
  | step (thread : ThreadId) (location : Location)
  | exception (thread : ThreadId) (exception : ObjectId) (location : Location) (caught : Bool)
  | terminated
deriving DecidableEq, Repr

/-- Why a call to the target failed. -/
inductive Fault where
  | disconnected
  | invalidObject (id : ObjectId)
  | invalidType (id : TypeId)
  | invalidThread (id : ThreadId)
  | invalidFrame (thread : ThreadId) (frame : FrameId)
  | invalidRequest (id : RequestId)
  | invalidMethod (id : MethodId)
  | invalidIndex (index length : Nat)
  | notSuspended (thread : ThreadId)
  | invocationFailed (exception : String)
  | unsupported (what : String)
  | other (what : String)
deriving DecidableEq, Repr

namespace Fault

def message : Fault → String
  | disconnected => "target process is disconnected"
  | invalidObject id => s!"invalid object id {id} (collected?)"
  | invalidType id => s!"invalid type id {id}"
  | invalidThread id => s!"invalid thread id {id}"
  | invalidFrame thread frame => s!"frame {frame} is no longer valid on thread {thread}"
  | invalidRequest id => s!"unknown event request {id}"
  | invalidMethod id => s!"unknown method id {id}"
  | invalidIndex index length => s!"array index {index} out of range for length {length}"
  | notSuspended thread => s!"thread {thread} is not suspended"
  | invocationFailed exception => s!"invocation threw {exception}"
  | unsupported what => s!"operation not supported: {what}"
  | other what => what

/-- Whether an id outlived what it named. -/
def isStale : Fault → Bool
  | invalidObject _ | invalidType _ | invalidThread _ | invalidFrame .. | invalidRequest _ => true
  | _ => false

end Fault

end Debugger
