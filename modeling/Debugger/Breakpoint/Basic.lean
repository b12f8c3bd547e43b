import Debugger.Breakpoint.HitCondition
import Debugger.Link
import Debugger.Settings.Basic

/-!
Breakpoints: what a user asks for, and what became of it in the target.
-/

namespace Debugger

abbrev BreakpointId := Nat

inductive Site where
  | line (file : String) (line : Nat)
  /-- Without parameter types, every overload of the name. -/
  | method (type name : String) (params : Option (List String))
deriving DecidableEq, Repr

/-- How far a breakpoint is attached to the types it asks for. -/
inductive Resolution where
  | pending
  /-- To some of the types that match; others may follow. -/
  | partly
  | resolved
deriving DecidableEq, Repr

structure BreakpointSpec where
  site : Site
  condition : Option String := none
  hitCondition : Option String := none
  logMessage : Option String := none
  enabled : Bool := true
deriving DecidableEq, Repr

structure Breakpoint where
  id : BreakpointId
  site : Site
  enabled : Bool
  condition : Option String
  hitCondition : Option HitCondition
  logMessage : Option String
  requests : List RequestId := []
  /-- The types in which its requests lie. -/
  attached : List TypeId := []
  resolution : Resolution := .pending
  hits : Nat := 0
deriving DecidableEq, Repr

/-- A breakpoint that logs lets execution go on. -/
def Breakpoint.isLogpoint (b : Breakpoint) : Bool :=
  b.logMessage.isSome

inductive SessionError where
  | remote (fault : Fault)
  | unknownBreakpoint (id : BreakpointId)
  | invalidHitCondition (text : String)
  | invalidLine
  | missingSignature (type method : String)
  | noFrames (thread : ThreadId)
deriving DecidableEq, Repr

def SessionError.message : SessionError → String
  | remote fault => "remote: " ++ fault.message
  | unknownBreakpoint id => s!"unknown breakpoint {id}"
  | invalidHitCondition text => "invalid hit condition `" ++ text ++ "`"
  | invalidLine => "line breakpoints need a line number of at least 1"
  | missingSignature type method => s!"method breakpoint on {type}.{method} needs parameter types"
  | noFrames thread => s!"thread {thread} has no frames"

end Debugger
