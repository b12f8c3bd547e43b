import Debugger.Target.State

/-!
The calls that a debugger makes. Each one first checks that the target is connected, then the ids
it is given.
-/

namespace Debugger.Target

def checkConnected (t : Target) : Except Fault Unit :=
  if t.connected then .ok () else .error .disconnected

def checkType (t : Target) (id : TypeId) : Except Fault TypeEntry := do
  t.checkConnected
  match t.type? id with
  | some e => return e
  | none => throw (.invalidType id)

def checkThread (t : Target) (id : ThreadId) : Except Fault Thread := do
  t.checkConnected
  match t.thread? id with
  | some th => return th
  | none => throw (.invalidThread id)

def checkObject (t : Target) (id : ObjectId) : Except Fault HeapCell := do
  t.checkConnected
  match t.object? id with
  | some cell => return cell
  | none => throw (.invalidObject id)

/-! ### Types -/

def listLoaded (t : Target) (name : Option String) : Except Fault (List TypeId) := do
  t.checkConnected
  return (t.types.filter fun e => e.loaded && name.all (e.name = ·)).map (·.id)

def typeName (t : Target) (id : TypeId) : Except Fault String :=
  (·.name) <$> t.checkType id

def sourceFile (t : Target) (id : TypeId) : Except Fault (Option String) :=
  (·.sourceFile) <$> t.checkType id

def superclass (t : Target) (id : TypeId) : Except Fault (Option TypeId) := do
  return (← t.checkType id).superclass.bind t.typeNamed?

def interfaces (t : Target) (id : TypeId) : Except Fault (List TypeId) := do
  return (← t.checkType id).interfaces.filterMap t.typeNamed?

/-- At most one location a line: its code belongs to the type's first method. -/
def locationsForLine (t : Target) (id : TypeId) (line : Nat) : Except Fault (List Location) := do
  let e ← t.checkType id
  if line ∈ e.lines then
    return [⟨id, (e.methods.head?.map (·.1.id)).getD 0, line, line⟩]
  return []

/-- Adds the methods of one more supertype. A declaration with the parameters of one already found
is overridden. -/
def addInherited (name : String) (found : List Method) (e : TypeEntry) : List Method :=
  e.methods.foldl (fun found (m, _) =>
    if m.name = name && !found.any (·.params = m.params) then found ++ [m] else found) found

/-- The methods of a name, the type's own before inherited ones. -/
def methodsByName (t : Target) (id : TypeId) (name : String) : Except Fault (List Method) := do
  let e ← t.checkType id
  let own := (e.methods.map (·.1)).filter (·.name = name)
  return ((t.lineage id).tail.filterMap t.type?).foldl (addInherited name) own

/-- Where a method that the type itself declares begins. -/
def methodEntry (t : Target) (id : TypeId) (method : MethodId) :
    Except Fault (Option Location) := do
  let e ← t.checkType id
  if e.methods.any (·.1.id = method) then
    return some ⟨id, method, e.lines.headD 0, 0⟩
  throw (.invalidMethod method)

/-! ### Requests -/

def createRequest (t : Target) (location : Location) : Except Fault (RequestId × Target) := do
  discard (t.checkType location.type)
  let id := t.lastRequest + 1
  return (id, { t with lastRequest := id, requests := t.requests ++ [⟨id, location, true⟩] })

def setRequestEnabled (t : Target) (id : RequestId) (enabled : Bool) : Except Fault Target := do
  t.checkConnected
  if (t.request? id).isNone then throw (.invalidRequest id)
  return { t with requests := t.requests.map fun r => if r.id = id then { r with enabled } else r }

/-- Deletes a location request or a load subscription. -/
def deleteRequest (t : Target) (id : RequestId) : Except Fault Target := do
  t.checkConnected
  if (t.request? id).isSome then
    return { t with requests := t.requests.filter (·.id ≠ id) }
  if t.subscriptions.any (·.1 = id) then
    return { t with subscriptions := t.subscriptions.filter (·.1 ≠ id) }
  throw (.invalidRequest id)

def subscribeLoads (t : Target) (filter : String) : Except Fault (RequestId × Target) := do
  t.checkConnected
  let id := t.lastRequest + 1
  return (id, { t with lastRequest := id, subscriptions := t.subscriptions ++ [(id, filter)] })

/-! ### Threads and frames -/

def threadSuspended (t : Target) (id : ThreadId) : Except Fault Bool :=
  (·.suspended) <$> t.checkThread id

def resume (t : Target) (id : ThreadId) : Except Fault Target := do
  discard (t.checkThread id)
  return t.updateThread id ({ · with suspended := false })

def frames (t : Target) (id : ThreadId) : Except Fault (List FrameInfo) := do
  let th ← t.checkThread id
  unless th.suspended do throw (.notSuspended id)
  return th.frames.map fun fr => ⟨fr.id, ⟨fr.type, 0, fr.line, fr.line⟩⟩

/-- A frame is there only while its thread is suspended. -/
def checkFrame (t : Target) (thread : ThreadId) (frame : FrameId) : Except Fault Frame := do
  let th ← t.checkThread thread
  unless th.suspended do throw (.invalidFrame thread frame)
  match th.frames.find? (·.id = frame) with
  | some fr => return fr
  | none => throw (.invalidFrame thread frame)

def frameThis (t : Target) (thread : ThreadId) (frame : FrameId) :
    Except Fault (Option ObjectId) :=
  (·.this) <$> t.checkFrame thread frame

def visibleVariables (t : Target) (thread : ThreadId) (frame : FrameId) :
    Except Fault (List Variable) := do
  return (← t.checkFrame thread frame).locals.map fun v => ⟨v.name, v.type⟩

def variableValue (t : Target) (thread : ThreadId) (frame : FrameId) (name : String) :
    Except Fault Datum := do
  match (← t.checkFrame thread frame).locals.find? (·.name = name) with
  | some v => return v.value
  | none => throw (.other ("no local variable `" ++ name ++ "`"))

def frameType (t : Target) (thread : ThreadId) (frame : FrameId) : Except Fault TypeId :=
  (·.type) <$> t.checkFrame thread frame

/-! ### Heap -/

def objectType (t : Target) (id : ObjectId) : Except Fault (TypeId × Target) := do
  match ← t.checkObject id with
  | .instance type _ | .array type _ => return (type, t)
  | .string _ => return t.ensureType TypeName.string

/-- A field that is declared but was never set is null. -/
def field (t : Target) (id : ObjectId) (name : String) : Except Fault (Option Datum) := do
  match ← t.checkObject id with
  | .instance type fields =>
    match fields.lookup name with
    | some value => return some value
    | none =>
      let declared := (t.lineage type).any fun id => (t.type? id).any (name ∈ ·.fields)
      return if declared then some .null else none
  | _ => return none

def setCell (t : Target) (id : ObjectId) (cell : HeapCell) : Target :=
  { t with heap := t.heap.map fun (i, c) => if i = id then (i, cell) else (i, c) }

def setField (t : Target) (id : ObjectId) (name : String) (value : Datum) :
    Except Fault Target := do
  match ← t.checkObject id with
  | .instance type fields =>
    let fields :=
      if (fields.lookup name).isSome then
        updateFirst (·.1 = name) (fun (n, _) => (n, value)) fields
      else fields ++ [(name, value)]
    return t.setCell id (.instance type fields)
  | _ => throw (.unsupported (s!"object {id} has no field `" ++ name ++ "`"))

def staticField (t : Target) (id : TypeId) (name : String) : Except Fault (Option Datum) := do
  return (← t.checkType id).static? name

def checkArray (t : Target) (id : ObjectId) : Except Fault (TypeId × List Datum) := do
  match ← t.checkObject id with
  | .array type elements => return (type, elements)
  | _ => throw (.unsupported s!"object {id} is not an array")

def arrayLength (t : Target) (id : ObjectId) : Except Fault Nat := do
  return (← t.checkArray id).2.length

def element (t : Target) (id : ObjectId) (index : Nat) : Except Fault Datum := do
  let (_, elements) ← t.checkArray id
  match elements[index]? with
  | some value => return value
  | none => throw (.invalidIndex index elements.length)

def setElement (t : Target) (id : ObjectId) (index : Nat) (value : Datum) :
    Except Fault Target := do
  let (type, elements) ← t.checkArray id
  if index < elements.length then
    return t.setCell id (.array type (elements.set index value))
  throw (.invalidIndex index elements.length)

def stringValue (t : Target) (id : ObjectId) : Except Fault String := do
  match ← t.checkObject id with
  | .string text => return text
  | _ => throw (.unsupported s!"object {id} is not a string")

def wrapString (t : Target) (text : String) : Except Fault (ObjectId × Target) := do
  t.checkConnected
  return t.newString text

/-! ### Running code -/

/-- What the behaviour of a method answers to the arguments. -/
def perform (t : Target) (args : List Datum) : Behaviour → Except Fault Datum × Target
  | .returns value => (.ok value, t)
  | .throws exception => (.error (.invocationFailed exception), t)
  | .computes function => (.ok (function args), t)
  | .boxes name =>
    match t.typeNamed? name with
    | none => (.ok .null, t)
    | some type =>
      let (id, t) := t.newObject type [("value", args.headD .null)]
      (.ok (.object id), t)

/-- The method that an invocation runs, if the thread, the receiver and the method are there. -/
def checkInvocation (t : Target) (thread : ThreadId) (receiver : Option Receiver)
    (method : MethodId) : Except Fault (Method × Behaviour) := do
  let th ← t.checkThread thread
  unless th.suspended do throw (.notSuspended thread)
  if let some (.object id) := receiver then
    discard (t.checkObject id)
  match t.method? method with
  | some m => return m
  | none => throw (.invalidMethod method)

/-- Logs an invocation, then runs it. -/
def run (t : Target) (thread : ThreadId) (receiver : Option Receiver) (method : MethodId)
    (args : List Datum) : Except Fault Datum × Target :=
  match t.checkInvocation thread receiver method with
  | .error e => (.error e, t)
  | .ok (m, behaviour) =>
    let record : Invocation := ⟨thread, method, m.name, receiver, args⟩
    { t with invocations := t.invocations ++ [record] }.perform args behaviour

def invoke (t : Target) (thread : ThreadId) (receiver : Receiver) (method : MethodId)
    (args : List Datum) : Except Fault Datum × Target :=
  t.run thread (some receiver) method args

/-- Runs a constructor. One that returns nothing yields a new object. -/
def construct (t : Target) (thread : ThreadId) (type : TypeId) (constructor : MethodId)
    (args : List Datum) : Except Fault Datum × Target :=
  match t.run thread none constructor args with
  | (.ok .void, t) =>
    let (id, t) := t.newObject type []
    (.ok (.object id), t)
  | result => result

end Debugger.Target
