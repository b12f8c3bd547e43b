/-!
Integral progressions: what `..`, `until` and `downTo` make.
-/

namespace Debugger

/-- The numbers from `first` towards `last` at distances of `step`, which is not zero. -/
structure Progression where
  first : Int64
  /-- Inclusive, in the direction of the step. -/
  last : Int64
  step : Int64
  long : Bool
deriving DecidableEq, Repr

namespace Progression

/-- The distance from the first number is taken over the unbounded integers. -/
def contains (r : Progression) (v : Int64) : Bool :=
  let inBounds :=
    if 0 < r.step then r.first ≤ v && v ≤ r.last else v ≤ r.first && r.last ≤ v
  inBounds && (v.toInt - r.first.toInt).tmod r.step.toInt = 0

def isEmpty (r : Progression) : Bool :=
  if 0 < r.step then r.last < r.first else r.first < r.last

def typeName (r : Progression) : String :=
  if r.long then "kotlin.ranges.LongProgression" else "kotlin.ranges.IntProgression"

def text (r : Progression) : String :=
  let ends (word : String) := toString r.first.toInt ++ word ++ toString r.last.toInt
  let steps (n : Int64) := if n = 1 then "" else " step " ++ toString n.toInt
  if 0 < r.step then ends ".." ++ steps r.step else ends " downTo " ++ steps (-r.step)

end Progression

end Debugger
