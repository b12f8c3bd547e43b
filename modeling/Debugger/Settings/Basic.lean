/-!
Settings of a debugger, with their defaults and bounds.
-/

namespace Debugger

structure LogSettings where
  /-- A level such as `info`, or a list of filter directives. -/
  level : String := "info"
  json : Bool := false
  stderr : Bool := false
  file : Option String := none
  /-- How many log lines are kept in memory. -/
  bufferLines : Nat := 2000
deriving DecidableEq, Repr

structure EvalSettings where
  /-- Whether evaluation may run code in the target. -/
  allowInvocation : Bool := true
  /-- Longer strings are cut when they are shown. -/
  maxStringDisplay : Nat := 80
  /-- Bound on the handles that are not pinned. -/
  maxHandles : Nat := 10000
deriving DecidableEq, Repr

/-- Which overloads a method breakpoint without a signature attaches to. -/
inductive OverloadPolicy where
  | all
  /-- None: a signature must be given. -/
  | requireSignature
deriving DecidableEq, Repr

/-- When a source path as requested names a file as the target reports it. -/
inductive SourceMatch where
  /-- The same file name is enough. -/
  | tolerant
  | exact
deriving DecidableEq, Repr

structure BreakpointSettings where
  overloads : OverloadPolicy := .all
  sourceMatch : SourceMatch := .tolerant
deriving DecidableEq, Repr

structure Settings where
  logging : LogSettings := {}
  evaluation : EvalSettings := {}
  breakpoints : BreakpointSettings := {}
deriving DecidableEq, Repr

/-- The settings that must not be zero. -/
inductive Bounded where
  | bufferLines | maxStringDisplay | maxHandles
deriving DecidableEq, Repr

namespace Bounded

def key : Bounded → String
  | bufferLines => "logging.buffer_lines"
  | maxStringDisplay => "evaluation.max_string_display"
  | maxHandles => "evaluation.max_object_handles"

def value (s : Settings) : Bounded → Nat
  | bufferLines => s.logging.bufferLines
  | maxStringDisplay => s.evaluation.maxStringDisplay
  | maxHandles => s.evaluation.maxHandles

def message (b : Bounded) : String :=
  "invalid config value for `" ++ b.key ++ "`: must be at least 1"

end Bounded

/-- The first setting that is zero but must not be. -/
def Settings.invalid? (s : Settings) : Option Bounded :=
  [.bufferLines, .maxStringDisplay, .maxHandles].find? fun b => Bounded.value s b = 0

end Debugger
