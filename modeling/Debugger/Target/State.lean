import Debugger.TypeName
import Debugger.Target.Basic

/-!
A target process held in memory: types, heap, threads with their frames, requests, a log of
invocations and the events it has sent. Types, objects, threads, frames and methods take their ids
from one counter, requests and load subscriptions from another.
-/

namespace Debugger

/-- What a method does when it is invoked. What it answers depends on its arguments alone; only a
method that makes an object changes the target. -/
inductive Behaviour where
  | returns (value : Datum)
  | throws (exception : String)
  /-- Returns what the function makes of the arguments. -/
  | computes (function : List Datum → Datum)
  /-- Returns a new object of the named type that holds the first argument. -/
  | boxes (type : String)

structure MethodSpec where
  name : String
  params : List String := []
  result : String := "void"
  isStatic : Bool := false
  behaviour : Behaviour := .returns .void

/-- A type as it is described before it has an id. -/
structure TypeSpec where
  name : String
  sourceFile : Option String := none
  superclass : Option String := none
  interfaces : List String := []
  lines : List Nat := []
  methods : List MethodSpec := []
  fields : List String := []
  statics : List (String × Datum) := []

structure TypeEntry where
  id : TypeId
  name : String
  sourceFile : Option String
  superclass : Option String
  interfaces : List String
  lines : List Nat
  methods : List (Method × Behaviour)
  fields : List String
  statics : List (String × Datum)
  loaded : Bool

/-- The value of a name given several times is the last one. -/
def TypeEntry.static? (e : TypeEntry) (name : String) : Option Datum :=
  e.statics.reverse.lookup name

inductive HeapCell where
  | instance (type : TypeId) (fields : List (String × Datum))
  | string (text : String)
  | array (type : TypeId) (elements : List Datum)

structure Local where
  name : String
  type : String
  value : Datum

structure Frame where
  id : FrameId
  type : TypeId
  this : Option ObjectId
  line : Nat
  locals : List Local

structure Thread where
  id : ThreadId
  suspended : Bool
  /-- Innermost first. -/
  frames : List Frame

structure Request where
  id : RequestId
  location : Location
  enabled : Bool
deriving DecidableEq, Repr

structure Invocation where
  thread : ThreadId
  method : MethodId
  name : String
  /-- Nothing for a constructor. -/
  receiver : Option Receiver
  args : List Datum

structure Target where
  connected : Bool := true
  lastId : Nat := 0
  /-- The number of the newest request or subscription, of those that were deleted too. -/
  lastRequest : Nat := 0
  /-- In the order of their ids. -/
  types : List TypeEntry := []
  heap : List (ObjectId × HeapCell) := []
  threads : List Thread := []
  requests : List Request := []
  /-- Load subscriptions with their name filters. -/
  subscriptions : List (RequestId × String) := []
  invocations : List Invocation := []
  /-- All events sent so far, oldest first. -/
  events : List Event := []

namespace Target

/-! ### Look-up -/

def type? (t : Target) (id : TypeId) : Option TypeEntry :=
  t.types.find? (·.id = id)

/-- The oldest type of a name. -/
def typeNamed? (t : Target) (name : String) : Option TypeId :=
  (t.types.find? (·.name = name)).map (·.id)

def object? (t : Target) (id : ObjectId) : Option HeapCell :=
  t.heap.lookup id

def thread? (t : Target) (id : ThreadId) : Option Thread :=
  t.threads.find? (·.id = id)

def request? (t : Target) (id : RequestId) : Option Request :=
  t.requests.find? (·.id = id)

def superclass? (t : Target) (id : TypeId) : Option TypeId :=
  (t.type? id).bind fun e => e.superclass.bind t.typeNamed?

/-- The superclass chain from `id` on, up to the first type already seen. -/
def lineageFrom (t : Target) : Nat → List TypeId → TypeId → List TypeId
  | 0, _, _ => []
  | n + 1, seen, id =>
    if id ∈ seen then []
    else id :: (match t.superclass? id with
      | some parent => t.lineageFrom n (id :: seen) parent
      | none => [])

/-- The type and its superclasses, nearest first, each once. -/
def lineage (t : Target) (id : TypeId) : List TypeId :=
  t.lineageFrom (t.types.length + 1) [] id

def method? (t : Target) (id : MethodId) : Option (Method × Behaviour) :=
  t.types.findSome? fun e => e.methods.find? (·.1.id = id)

/-! ### Building -/

/-- The methods with ids from `next` on. -/
def numberMethods (next : MethodId) : List MethodSpec → List (Method × Behaviour)
  | [] => []
  | m :: rest =>
    (⟨next, m.name, m.params, m.result, m.isStatic⟩, m.behaviour) :: numberMethods (next + 1) rest

/-- Adds a type; its methods take the ids after its own. -/
def define (t : Target) (spec : TypeSpec) (loaded : Bool) : TypeId × Target :=
  let id := t.lastId + 1
  (id, { t with
    lastId := id + spec.methods.length
    types := t.types ++ [{
      id, loaded
      name := spec.name
      sourceFile := spec.sourceFile
      superclass := spec.superclass
      interfaces := spec.interfaces
      lines := spec.lines
      methods := numberMethods (id + 1) spec.methods
      fields := spec.fields
      statics := spec.statics }] })

/-- Every class but the root extends another one. -/
def classSpec (name : String) : TypeSpec :=
  { name, superclass := if name = TypeName.object then none else some TypeName.object }

def ensureType (t : Target) (name : String) : TypeId × Target :=
  match t.typeNamed? name with
  | some id => (id, t)
  | none => t.define (classSpec name) true

/-- Puts a cell on the heap. -/
def allocate (t : Target) (cell : HeapCell) : ObjectId × Target :=
  let id := t.lastId + 1
  (id, { t with lastId := id, heap := (id, cell) :: t.heap })

def newObject (t : Target) (type : TypeId) (fields : List (String × Datum)) : ObjectId × Target :=
  t.allocate (.instance type fields)

def newString (t : Target) (text : String) : ObjectId × Target :=
  t.allocate (.string text)

def newArray (t : Target) (element : String) (elements : List Datum) : ObjectId × Target :=
  let (type, t) := t.ensureType (element ++ "[]")
  t.allocate (.array type elements)

def emit (t : Target) (event : Event) : Target :=
  { t with events := t.events ++ [event] }

/-- `*` alone matches every name, and at the end of a filter every continuation. -/
def filterMatches (filter name : String) : Bool :=
  match filter.toList.reverse with
  | '*' :: start => start.reverse.isPrefixOf name.toList
  | _ => filter = name

/-- Marks a type as loaded and tells the subscribers. -/
def load (t : Target) (id : TypeId) : Target :=
  match t.type? id with
  | none => t
  | some e =>
    let t := { t with
      types := t.types.map fun (e : TypeEntry) =>
        if e.id = id then { e with loaded := true } else e }
    if t.subscriptions.any fun (_, filter) => filterMatches filter e.name then
      t.emit (.typeLoaded id)
    else t

/-- The types every target starts with. -/
def start : Target :=
  let t := (define {} (classSpec TypeName.object) true).2
  let t := (t.define { name := "java.lang.CharSequence" } true).2
  let t := (t.define { name := "java.lang.Comparable" } true).2
  (t.define { classSpec TypeName.string with
    interfaces := ["java.lang.CharSequence", "java.lang.Comparable"] } true).2

def methodId? (t : Target) (type : TypeId) (name : String) (params : List String) :
    Option MethodId := do
  let e ← t.type? type
  let m ← e.methods.find? fun (m, _) => m.name = name && m.params = params
  return m.1.id

def collect (t : Target) (id : ObjectId) : Target :=
  { t with heap := t.heap.filter (·.1 ≠ id) }

def disconnect (t : Target) : Target :=
  { t with connected := false }.emit .terminated

def updateThread (t : Target) (id : ThreadId) (f : Thread → Thread) : Target :=
  { t with threads := t.threads.map fun th => if th.id = id then f th else th }

/-- A new thread is suspended and has no frames. -/
def addThread (t : Target) : ThreadId × Target :=
  let id := t.lastId + 1
  (id, { t with lastId := id, threads := t.threads ++ [⟨id, true, []⟩] })

/-- Puts a frame on top of a stack; an unknown thread only uses up the id. -/
def pushFrame (t : Target) (thread : ThreadId) (type : TypeId) (this : Option ObjectId)
    (line : Nat) (locals : List Local) : FrameId × Target :=
  let id := t.lastId + 1
  (id, { t with lastId := id }.updateThread thread fun th =>
    { th with frames := ⟨id, type, this, line, locals⟩ :: th.frames })

/-- Replaces the first entry that satisfies `p`. -/
def updateFirst {α : Type} (p : α → Bool) (f : α → α) : List α → List α
  | [] => []
  | a :: rest => if p a then f a :: rest else a :: updateFirst p f rest

def setLocal (t : Target) (thread : ThreadId) (frame : FrameId) (name : String) (value : Datum) :
    Target :=
  let setIn (fr : Frame) : Frame :=
    { fr with locals := updateFirst (·.name = name) (fun v => { v with value := value }) fr.locals }
  t.updateThread thread fun th => { th with frames := updateFirst (·.id = frame) setIn th.frames }

def suspend (t : Target) (thread : ThreadId) : Target :=
  t.updateThread thread ({ · with suspended := true })

def isSuspended (t : Target) (thread : ThreadId) : Bool :=
  (t.thread? thread).any (·.suspended)

/-- Stops the thread at a request's location and reports it. -/
def hit (t : Target) (request : RequestId) (thread : ThreadId) : Target :=
  let t := t.suspend thread
  match t.request? request with
  | some r => t.emit (.hit request thread r.location)
  | none => t

end Target

end Debugger
