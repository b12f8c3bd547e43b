import Debugger.Settings.Basic
import Debugger.Text.Alphanumeric
import Debugger.Text.Blank
import Debugger.Text.Digits

/-!
Log filters: how much is logged, in general and for single targets. A filter is written as
directives between commas, such as `info,breakpoints=debug`.
-/

namespace Debugger

open Text

inductive LogLevel where
  | off | error | warn | info | debug | trace
deriving DecidableEq, Repr

namespace LogLevel

/-- Quiet to loud, which is how they are numbered. -/
def all : List LogLevel :=
  [off, error, warn, info, debug, trace]

def name : LogLevel → String
  | off => "off"
  | error => "error"
  | warn => "warn"
  | info => "info"
  | debug => "debug"
  | trace => "trace"

/-- A level by its number or by its name in either case. -/
def parse? (cs : List Char) : Option LogLevel :=
  match readNat? 64 cs with
  | some n => all[n]?
  | none => all.find? fun l => l.name.toList = cs.map Char.toLower

end LogLevel

structure LogDirective where
  /-- Nothing for the level of all other targets. -/
  target : Option String
  level : LogLevel
deriving DecidableEq, Repr

namespace LogDirective

/-- What a target may begin with. -/
def startsTarget (c : Char) : Bool :=
  isAlphanumeric c || ['-', ':', '_'].contains c

/-- `target=level`, a level, or a target of which everything is logged. -/
def parse? (cs : List Char) : Option LogDirective := do
  guard (!cs.contains '[')
  if cs.contains '=' then
    let target := cs.takeWhile (· ≠ '=')
    let level := (cs.dropWhile (· ≠ '=')).tail
    guard (cs.head?.any startsTarget)
    let level ← if level.isEmpty then some .trace else LogLevel.parse? level
    return ⟨some (String.ofList target), level⟩
  else
    guard ((trimBlanks cs).head?.any startsTarget)
    match LogLevel.parse? cs with
    | some level => return ⟨none, level⟩
    | none => return ⟨some (String.ofList cs), .trace⟩

def text (d : LogDirective) : String :=
  match d.target with
  | some target => target ++ "=" ++ d.level.name
  | none => d.level.name

/-- Whether a directive is looked at before another: longer targets are more to the point. -/
def before (a b : LogDirective) : Bool :=
  match a.target, b.target with
  | none, _ => false
  | some _, none => true
  | some s, some t =>
    t.utf8ByteSize < s.utf8ByteSize || (s.utf8ByteSize = t.utf8ByteSize && t < s)

end LogDirective

/-- Directives for different targets, in the order in which they are looked at. -/
abbrev LogFilter := List LogDirective

namespace LogFilter

/-- Puts a directive in its place; one for the same target is replaced. -/
def add (d : LogDirective) : LogFilter → LogFilter
  | [] => [d]
  | e :: rest =>
    if e.target = d.target then d :: rest
    else if d.before e then d :: e :: rest
    else e :: add d rest

def parse? (text : String) : Option LogFilter := do
  let pieces := (text.splitOn ",").filter (· ≠ "")
  let directives ← pieces.mapM fun s => LogDirective.parse? s.toList
  return directives.foldl (fun filter d => filter.add d) []

def text (filter : LogFilter) : String :=
  ",".intercalate (filter.map LogDirective.text)

end LogFilter

namespace LogSettings

/-- The level as directives: `info` if it is blank, level names in one spelling. -/
def directives (s : LogSettings) : String :=
  let level := trim s.level
  let lower := String.ofList (level.toList.map Char.toLower)
  if level = "" then "info"
  else if lower = "warning" then "warn"
  else if ["trace", "debug", "info", "warn", "error"].contains lower then lower
  else level

/-- The filter of the settings alone; one that cannot be read counts as `info`. -/
def ownFilter (s : LogSettings) : LogFilter :=
  (LogFilter.parse? s.directives).getD [⟨none, .info⟩]

/-- The filter of the settings, to which the environment may add directives. If they do not go
together, those of the environment count alone. -/
def filter (s : LogSettings) (environment : Option String) : LogFilter :=
  match (environment.map trim).filter (· ≠ "") with
  | none => s.ownFilter
  | some more =>
    ((LogFilter.parse? (s.directives ++ "," ++ more)).or (LogFilter.parse? more)).getD s.ownFilter

end LogSettings

end Debugger
