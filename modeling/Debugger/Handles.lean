import Debugger.Target.Basic

/-!
Handles: short numbers for objects of the target, shown with results that can be expanded. A
handle stays while it is pinned; of the others only a bounded number is kept, the oldest go first.
-/

namespace Debugger

structure Handle where
  number : UInt32
deriving DecidableEq, Repr

structure Tracked where
  handle : Handle
  object : ObjectId
  type : String
  /-- The target has reported the object as collected. -/
  invalid : Bool
deriving DecidableEq, Repr

structure Handles where
  next : UInt32 := 1
  /-- The handle of each object that has one. -/
  byObject : List (ObjectId × Handle) := []
  /-- The live handles. -/
  entries : List Tracked := []
  pinned : List Handle := []
  /-- The live handles that are not pinned, oldest first. -/
  queue : List Handle := []
  /-- Bound on the queue. -/
  limit : Nat := 10000
deriving DecidableEq, Repr

namespace Handle

def text (h : Handle) : String :=
  "@" ++ toString h.number.toNat

/-- The number to try after this one; zero is left out. -/
def after (n : UInt32) : UInt32 :=
  if n + 1 = 0 then 1 else n + 1

end Handle

namespace Handles

def find? (hs : Handles) (h : Handle) : Option Tracked :=
  hs.entries.find? (·.handle = h)

def object? (hs : Handles) (h : Handle) : Option ObjectId :=
  (hs.find? h).map (·.object)

def type? (hs : Handles) (h : Handle) : Option String :=
  (hs.find? h).map (·.type)

def handle? (hs : Handles) (object : ObjectId) : Option Handle :=
  hs.byObject.lookup object

/-- A handle that is not live is invalid too. -/
def isInvalid (hs : Handles) (h : Handle) : Bool :=
  (hs.find? h).all (·.invalid)

def isPinned (hs : Handles) (h : Handle) : Bool :=
  hs.pinned.contains h

def isLive (hs : Handles) (h : Handle) : Bool :=
  (hs.find? h).isSome

/-- The first number from `n` on that is free, and the one after it. Of as many numbers as there
are live handles and one more, one is free. -/
def freeFrom (hs : Handles) : Nat → UInt32 → Handle × UInt32
  | 0, n => (⟨n⟩, Handle.after n)
  | tries + 1, n =>
    if hs.isLive ⟨n⟩ then hs.freeFrom tries (Handle.after n) else (⟨n⟩, Handle.after n)

/-- Changes what is known of a handle. -/
def adjust (hs : Handles) (h : Handle) (f : Tracked → Tracked) : Handles :=
  { hs with entries := hs.entries.map fun e => if e.handle = h then f e else e }

/-- Forgets a handle together with its object. -/
def forget (hs : Handles) (h : Handle) : Handles :=
  match hs.find? h with
  | none => hs
  | some e => { hs with
      entries := hs.entries.filter (·.handle ≠ h)
      byObject := hs.byObject.filter (·.1 ≠ e.object) }

def forgetAll (hs : Handles) (gone : List Handle) : Handles :=
  gone.foldl forget hs

/-- Shortens the queue to its bound from the front. -/
def evict (hs : Handles) : Handles :=
  let excess := hs.queue.length - hs.limit
  { hs.forgetAll ((hs.queue.take excess).filter fun h => !hs.isPinned h) with
    queue := hs.queue.drop excess }

/-- The handle of an object: the one it has, which is valid again, or a new one. -/
def track (hs : Handles) (object : ObjectId) (type : String) : Handle × Handles :=
  match hs.handle? object with
  | some h => (h, hs.adjust h ({ · with type, invalid := false }))
  | none =>
    let (h, next) := hs.freeFrom hs.entries.length hs.next
    let entry : Tracked := ⟨h, object, type, false⟩
    let hs := { hs with
      next
      byObject := hs.byObject ++ [(object, h)]
      entries := hs.entries ++ [entry]
      queue := hs.queue ++ [h] }
    (h, hs.evict)

def markInvalid (hs : Handles) (object : ObjectId) : Handles :=
  match hs.handle? object with
  | some h => hs.adjust h ({ · with invalid := true })
  | none => hs

def pin (hs : Handles) (h : Handle) : Handles :=
  if hs.isLive h && !hs.isPinned h then
    { hs with pinned := hs.pinned ++ [h], queue := hs.queue.filter (· ≠ h) }
  else hs

/-- A handle that is no longer pinned becomes the youngest of the queue. -/
def unpin (hs : Handles) (h : Handle) : Handles :=
  if hs.isPinned h then
    let hs := { hs with pinned := hs.pinned.filter (· ≠ h) }
    if hs.isLive h then { hs with queue := hs.queue ++ [h] }.evict else hs
  else hs

/-- Forgets every handle that is not pinned. -/
def clearUnpinned (hs : Handles) : Handles :=
  { hs.forgetAll hs.queue with queue := [] }

def size (hs : Handles) : Nat :=
  hs.entries.length

end Handles

end Debugger
