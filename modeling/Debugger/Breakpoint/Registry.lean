import Debugger.Breakpoint.Basic
import Debugger.Breakpoint.SourcePath

/-!
The registry of breakpoints, kept in step with the types that the target has loaded. A breakpoint
that is not fully attached waits in a list and is tried again on every load: lines by the name of
their file, methods by the name of their type.
-/

namespace Debugger

/-- A line breakpoint that waits for a type from its file. -/
structure PendingLine where
  id : BreakpointId
  file : String
  line : Nat
deriving DecidableEq, Repr

structure Registry where
  settings : BreakpointSettings := {}
  nextId : BreakpointId := 1
  /-- In the order of their ids. -/
  breakpoints : List Breakpoint := []
  pendingLines : List PendingLine := []
  /-- Method breakpoints with the names of the types they wait for. -/
  pendingTypes : List (String × BreakpointId) := []
  /-- Which breakpoint a request belongs to. -/
  owners : List (RequestId × BreakpointId) := []
deriving DecidableEq, Repr

/-- A new request and the type in which it lies. -/
structure Attachment where
  request : RequestId
  type : TypeId
deriving DecidableEq, Repr

/-! ### Attaching -/

namespace Attachment

/-- Creates a request, disabled if the breakpoint is. -/
def create (enabled : Bool) (location : Location) : OverLink (List Attachment) := do
  match ← (Remote.createRequest location).result? with
  | none => return []
  | some request =>
    unless enabled do
      discard (Remote.setRequestEnabled request false).result?
    return [⟨request, location.type⟩]

/-- Attaches to the first location of a line. -/
def toLine (enabled : Bool) (type : TypeId) (line : Nat) : OverLink (List Attachment) := do
  match ← (Remote.locationsForLine type line).result? with
  | some (location :: _) => create enabled location
  | _ => return []

/-- Attaches to the entries of methods. One that the type inherits has no entry there. -/
def toEntries (enabled : Bool) (type : TypeId) : List Method → OverLink (List Attachment)
  | [] => return []
  | m :: rest => do
    let here ← match ← (Remote.methodEntry type m.id).result? with
      | some (some location) => create enabled location
      | _ => pure []
    return here ++ (← toEntries enabled type rest)

def toMethod (enabled : Bool) (type : TypeId) (name : String) (params : Option (List String)) :
    OverLink (List Attachment) := do
  match ← (Remote.methodsByName type name).result? with
  | some methods => toEntries enabled type (methods.filter fun m => params.all (· = m.params))
  | none => return []

end Attachment

/-- Takes over a new request. -/
def Breakpoint.take (b : Breakpoint) (a : Attachment) : Breakpoint :=
  { b with
    requests := b.requests ++ [a.request]
    attached := if a.type ∈ b.attached then b.attached else b.attached ++ [a.type] }

def Breakpoint.attach (b : Breakpoint) (as : List Attachment) : Breakpoint :=
  as.foldl Breakpoint.take b

/-- The source file of a type, if it has one and can be asked. -/
def sourceOf (type : TypeId) : OverLink (Option String) := do
  return (← (Remote.sourceFile type).result?).join

namespace Registry

def find? (r : Registry) (id : BreakpointId) : Option Breakpoint :=
  r.breakpoints.find? (·.id = id)

def owner? (r : Registry) (request : RequestId) : Option BreakpointId :=
  r.owners.lookup request

def update (r : Registry) (id : BreakpointId) (f : Breakpoint → Breakpoint) : Registry :=
  { r with breakpoints := r.breakpoints.map fun b => if b.id = id then f b else b }

/-- Notes whom new requests belong to. -/
def own (r : Registry) (id : BreakpointId) (as : List Attachment) : Registry :=
  let note (owners : List (RequestId × BreakpointId)) (a : Attachment) :=
    owners.filter (·.1 ≠ a.request) ++ [(a.request, id)]
  { r with owners := as.foldl note r.owners }

/-- Hands new requests to a breakpoint. -/
def attach (r : Registry) (id : BreakpointId) (as : List Attachment) : Registry :=
  (r.update id (·.attach as)).own id as

/-- The bucket of a file: the lines that wait for one of the same name. The key that a line is filed
under is the file name of its own path, so it is computed from there and not kept beside it. -/
def pendingFor (r : Registry) (file : String) : List PendingLine :=
  r.pendingLines.filter fun p => SourcePath.fileName p.file = SourcePath.fileName file

/-! ### Registration -/

/-- Attaches a line breakpoint to the types of its file among the given ones. Returns how many of
them match and what was attached. -/
def scanLines (mode : SourceMatch) (enabled : Bool) (file : String) (line : Nat) :
    List TypeId → OverLink (Nat × List Attachment)
  | [] => return (0, [])
  | type :: types => do
    match ← sourceOf type with
    | some source =>
      if SourcePath.sourceMatches mode file source then
        let here ← Attachment.toLine enabled type line
        let (matching, more) ← scanLines mode enabled file line types
        return (matching + 1, here ++ more)
      else scanLines mode enabled file line types
    | none => scanLines mode enabled file line types

def scanMethods (enabled : Bool) (name : String) (params : Option (List String)) :
    List TypeId → OverLink (List Attachment)
  | [] => return []
  | type :: types => do
    let here ← Attachment.toMethod enabled type name params
    return here ++ (← scanMethods enabled name params types)

def lineResolution (attached matching : Nat) : Resolution :=
  if attached = 0 then .pending else if attached < matching then .partly else .resolved

/-- Adds a breakpoint with its first requests; it goes on waiting unless it is resolved. -/
def insert (r : Registry) (b : Breakpoint) (as : List Attachment) : Registry :=
  let r := { r with breakpoints := r.breakpoints ++ [b] }
  let r := r.own b.id as
  match b.site with
  | .line file line =>
    if b.resolution = .resolved then r
    else { r with pendingLines := r.pendingLines ++ [⟨b.id, file, line⟩] }
  | .method type _ _ =>
    if b.resolution = .resolved then r
    else { r with pendingTypes := r.pendingTypes ++ [(type, b.id)] }

/-- Resolves a new breakpoint against the types that are loaded. -/
def resolveNew (r : Registry) (b : Breakpoint) :
    OverLink (Except Fault (Breakpoint × List Attachment)) := do
  match b.site with
  | .line file line =>
    match ← (Remote.listLoaded none).outcome with
    | .error fault => return .error fault
    | .ok types =>
      let (matching, as) ← scanLines r.settings.sourceMatch b.enabled file line types
      let b := b.attach as
      return .ok ({ b with resolution := lineResolution b.attached.length matching }, as)
  | .method type name params =>
    match ← (Remote.listLoaded (some type)).outcome with
    | .error fault => return .error fault
    | .ok types =>
      let as ← scanMethods b.enabled name params types
      let b := b.attach as
      return .ok ({ b with resolution := if b.attached.isEmpty then .pending else .resolved }, as)

/-- The hit condition of a specification, if it has one. -/
def readHitCondition : Option String → Except SessionError (Option HitCondition)
  | none => .ok none
  | some text => match HitCondition.parse? text with
    | some c => .ok (some c)
    | none => .error (.invalidHitCondition text)

def checkSite (settings : BreakpointSettings) : Site → Except SessionError Unit
  | .line _ 0 => .error .invalidLine
  | .method type name none =>
    if settings.overloads = .requireSignature then .error (.missingSignature type name) else .ok ()
  | _ => .ok ()

/-- The breakpoint of a specification that can be registered. -/
def accept (r : Registry) (spec : BreakpointSpec) : Except SessionError Breakpoint := do
  let hitCondition ← readHitCondition spec.hitCondition
  checkSite r.settings spec.site
  return {
    id := r.nextId
    site := spec.site
    enabled := spec.enabled
    condition := spec.condition
    hitCondition
    logMessage := spec.logMessage }

/-- Registers a breakpoint. Its id is used up even if the target cannot be asked for its types. -/
def register (r : Registry) (spec : BreakpointSpec) :
    OverLink (Except SessionError Breakpoint × Registry) := do
  match r.accept spec with
  | .error e => return (.error e, r)
  | .ok b =>
    let r := { r with nextId := r.nextId + 1 }
    match ← r.resolveNew b with
    | .error fault => return (.error (.remote fault), r)
    | .ok (b, as) => return (.ok b, r.insert b as)

/-! ### Loads -/

/-- Tries the method breakpoints that wait for a type. Returns the ids that were attached and
those that go on waiting; an id without a method breakpoint does neither. -/
def loadMethods (type : TypeId) :
    List BreakpointId → Registry → OverLink (List BreakpointId × List BreakpointId × Registry)
  | [], r => return ([], [], r)
  | id :: ids, r => do
    match r.find? id with
    | some { site := .method _ name params, enabled, .. } =>
      match ← Attachment.toMethod enabled type name params with
      | [] =>
        let (done, waiting, r) ← loadMethods type ids r
        return (done, id :: waiting, r)
      | as =>
        let r := (r.attach id as).update id ({ · with resolution := .resolved })
        let (done, waiting, r) ← loadMethods type ids r
        return (id :: done, waiting, r)
    | _ => loadMethods type ids r

/-- Tries one waiting line breakpoint. Returns whether it was attached. -/
def loadLine (type : TypeId) (source : String) (p : PendingLine) (r : Registry) :
    OverLink (Bool × Registry) := do
  if !SourcePath.sourceMatches r.settings.sourceMatch p.file source then return (false, r)
  match r.find? p.id with
  | none => return (false, r)
  | some b =>
    if type ∈ b.attached then return (false, r)
    match ← Attachment.toLine b.enabled type p.line with
    | [] => return (false, r)
    | as => return (true, r.attach p.id as)

/-- Tries waiting line breakpoints. Returns the ids that were attached, and those of them that were
pending: with their first request they are resolved. -/
def loadLines (type : TypeId) (source : String) :
    List PendingLine → Registry → OverLink (List BreakpointId × List BreakpointId × Registry)
  | [], r => return ([], [], r)
  | p :: ps, r => do
    let wasPending := (r.find? p.id).any (·.resolution = .pending)
    match ← loadLine type source p r with
    | (false, r) => loadLines type source ps r
    | (true, r) =>
      let r := if wasPending then r.update p.id ({ · with resolution := .resolved }) else r
      let (done, resolved, r) ← loadLines type source ps r
      return (p.id :: done, if wasPending then p.id :: resolved else resolved, r)

/-- Matches the methods that wait for the name of a loaded type. -/
def loadType (r : Registry) (type : TypeId) (name : String) :
    OverLink (List BreakpointId × Registry) := do
  let ids := (r.pendingTypes.filter (·.1 = name)).map (·.2)
  let (done, waiting, r) ← loadMethods type ids r
  return (done, { r with
    pendingTypes := r.pendingTypes.filter fun (n, id) => n ≠ name || waiting.contains id })

/-- Matches the lines that wait for the file of a loaded type. -/
def loadSource (r : Registry) (type : TypeId) (source : String) :
    OverLink (List BreakpointId × Registry) := do
  let (done, resolved, r) ← loadLines type source (r.pendingFor source) r
  return (done, { r with
    pendingLines := r.pendingLines.filter fun p =>
      !(SourcePath.fileName p.file = SourcePath.fileName source && resolved.contains p.id) })

/-- Tries the waiting breakpoints against a loaded type. Returns the ids that gained requests. -/
def onTypeLoaded (r : Registry) (type : TypeId) : OverLink (List BreakpointId × Registry) := do
  match ← (Remote.typeName type).result? with
  | none => return ([], r)
  | some name =>
    let (methods, r) ← r.loadType type name
    match ← sourceOf type with
    | none => return (methods, r)
    | some source =>
      let (lines, r) ← r.loadSource type source
      return (methods ++ lines, r)

/-- Appends the ids that are not there yet. -/
def addNew (ids more : List BreakpointId) : List BreakpointId :=
  more.foldl (fun ids id => if id ∈ ids then ids else ids ++ [id]) ids

def rescanTypes : List TypeId → List BreakpointId → Registry →
    OverLink (List BreakpointId × Registry)
  | [], changed, r => return (changed, r)
  | type :: types, changed, r => do
    let (ids, r) ← r.onTypeLoaded type
    rescanTypes types (addNew changed ids) r

/-- Tries every loaded type, for when notifications were missed. -/
def rescan (r : Registry) : OverLink (List BreakpointId × Registry) := do
  match ← (Remote.listLoaded none).result? with
  | none => return ([], r)
  | some types => rescanTypes types [] r

/-! ### Changes -/

/-- Deletes requests at the target as far as it lets. -/
def deleteRequests : List RequestId → OverLink Unit
  | [] => return ()
  | request :: rest => do
    discard (Remote.deleteRequest request).result?
    deleteRequests rest

/-- Forgets a breakpoint and all that waits for it. Returns whether there was one. -/
def remove (r : Registry) (id : BreakpointId) : OverLink (Bool × Registry) := do
  let waitless := { r with
    pendingLines := r.pendingLines.filter (·.id ≠ id)
    pendingTypes := r.pendingTypes.filter (·.2 ≠ id) }
  match r.find? id with
  | none => return (false, waitless)
  | some b =>
    deleteRequests b.requests
    return (true, { waitless with
      breakpoints := r.breakpoints.filter (·.id ≠ id)
      owners := r.owners.filter fun (request, _) => !b.requests.contains request })

/-- Switches requests in order. One that is gone already does not matter; any other failure ends
the series. -/
def switchRequests (enabled : Bool) : List RequestId → OverLink (Except Fault Unit)
  | [] => return .ok ()
  | request :: rest => do
    match ← (Remote.setRequestEnabled request enabled).outcome with
    | .ok _ => switchRequests enabled rest
    | .error fault => if fault.isStale then switchRequests enabled rest else return .error fault

def setEnabled (r : Registry) (id : BreakpointId) (enabled : Bool) :
    OverLink (Except SessionError Unit × Registry) := do
  match r.find? id with
  | none => return (.error (.unknownBreakpoint id), r)
  | some b =>
    match ← switchRequests enabled b.requests with
    | .error fault => return (.error (.remote fault), r)
    | .ok _ => return (.ok (), r.update id ({ · with enabled }))

/-- Counts a hit of a request unless its breakpoint is disabled. Returns the breakpoint as it is
then. -/
def recordHit (r : Registry) (request : RequestId) : Option Breakpoint × Registry :=
  match (r.owner? request).bind r.find? with
  | none => (none, r)
  | some b =>
    let b := if b.enabled then { b with hits := b.hits + 1 } else b
    (some b, r.update b.id fun _ => b)

/-- Forgets all breakpoints. Ids are not used again. -/
def clear (r : Registry) : OverLink Registry := do
  deleteRequests (r.owners.map (·.1))
  return { settings := r.settings, nextId := r.nextId }

end Registry

end Debugger
