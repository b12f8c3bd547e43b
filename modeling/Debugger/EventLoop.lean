import Debugger.Session

/-!
How a session follows its target: it deals with one event after the other and tells its user what
came of it, until the target ends, it is told to stop or its user no longer listens.
-/

namespace Debugger

/-- What a reader of events receives. -/
inductive Delivery where
  | event (event : Event)
  /-- So many events were dropped unread. -/
  | missed (count : Nat)
deriving DecidableEq, Repr

namespace Delivery

/-- What becomes of unread events when only the newest `room` of them are kept. -/
def ofUnread (room : Nat) (events : List Event) : List Delivery :=
  let excess := events.length - room
  if excess = 0 then events.map event
  else missed excess :: (events.drop excess).map event

/-- How many unread events a target keeps for a reader. -/
def targetRoom : Nat := 256

/-- What a reader receives who has read the first `read` events of a target. -/
def ofTarget (t : Target) (read : Nat) : List Delivery :=
  ofUnread targetRoom (t.events.drop read)

/-- What a channel delivers that was made for `capacity` unread events; it has room for the next
power of two. -/
def ofChannel (capacity : Nat) (events : List Event) : List Delivery :=
  ofUnread capacity.nextPowerOfTwo events

end Delivery

namespace Session

/-- Lets a thread run that is not to stop. Handles stay: other threads may be looked at. -/
def resumeQuietly (thread : ThreadId) : OverLink Unit :=
  discard (Remote.resume thread).result?

/-- Deals with an event, and says what is to be told of it. A hit on which nothing is ever decided
is never dealt with to the end, and its thread stays as it is. -/
def handle (s : Session) : Event → OverLink (Option (List Notice) × Session)
  | .typeLoaded type => do
    let (_, s) ← s.onTypeLoaded type
    return (some [], s)
  | .hit request thread _ => do
    match ← s.decide request thread with
    | (none, s) => return (none, s)
    | (some (.stop id), s) => return (some [.stopped thread (.breakpoint id)], s)
    | (some .goOn, s) =>
      resumeQuietly thread
      return (some [], s)
    | (some (.log _ message), s) =>
      resumeQuietly thread
      return (some [.output message], s)
  | .step thread _ => return (some [.stopped thread .step], s)
  | .exception thread exception _ caught =>
    return (some [.stopped thread (.exception exception caught)], s)
  | .terminated => do
    let s ← s.clear
    return (some [.terminated], { s with handles := s.handles.clearUnpinned })

/-- Ends the subscription to type loads. -/
def unsubscribe (s : Session) : OverLink Session := do
  return { s with watch := ← s.watch.unsubscribe }

end Session

/-! ### The loop -/

/-- What the loop waits for: a delivery, the end of the channel, or the order to stop. -/
inductive Arrival where
  | delivery (delivery : Delivery)
  | closed
  | cancelled
deriving DecidableEq, Repr

/-- Why the loop takes in nothing more. -/
inductive LoopEnd where
  /-- The target has reported that it ended. -/
  | terminated
  | closed
  | cancelled
  /-- Nobody was there to take a notice. -/
  | unheard
  /-- It never gets done with an event. -/
  | stuck
deriving DecidableEq, Repr

/-- The loop after what has arrived so far. -/
structure Attendance where
  /-- What was sent. -/
  notices : List Notice
  session : Session
  /-- Nothing while the loop waits for more. -/
  ended : Option LoopEnd

/-- How many notices the user of a session still takes before going away; nothing for one who
stays. -/
abbrev Hearing := Option Nat

namespace Hearing

/-- The notices that are taken. -/
def heard (hearing : Hearing) (notices : List Notice) : List Notice :=
  match hearing with
  | none => notices
  | some n => notices.take n

/-- Whether all of the notices are taken. -/
def hears (hearing : Hearing) (notices : List Notice) : Bool :=
  hearing.all (notices.length ≤ ·)

/-- What is left after some notices. -/
def after (hearing : Hearing) (notices : List Notice) : Hearing :=
  hearing.map (· - notices.length)

end Hearing

/-- Deals with what arrives in order, until the loop is over or nothing more has arrived. When no
more can come the target counts as ended. The loop ends with the first notice that nobody takes. -/
def Session.attend (hearing : Hearing) : List Arrival → Session → OverLink Attendance
  | [], s => return ⟨[], s, none⟩
  | .cancelled :: _, s => return ⟨[], s, some .cancelled⟩
  | .closed :: _, s => return ⟨hearing.heard [.terminated], s, some .closed⟩
  | .delivery (.missed _) :: rest, s => do
    let (_, s) ← s.rescan
    s.attend hearing rest
  | .delivery (.event event) :: rest, s => do
    match ← s.handle event with
    | (none, s) => return ⟨[], s, some .stuck⟩
    | (some notices, s) =>
      if !hearing.hears notices then
        return ⟨hearing.heard notices, s, some .unheard⟩
      if event = .terminated then
        return ⟨notices, ← s.unsubscribe, some .terminated⟩
      let more ← s.attend (hearing.after notices) rest
      return { more with notices := notices ++ more.notices }

end Debugger
