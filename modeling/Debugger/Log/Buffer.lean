/-!
The last lines of a log.
-/

namespace Debugger

structure LogBuffer where
  /-- How many lines are kept; at least one. -/
  capacity : Nat
  capacity_pos : 0 < capacity
  /-- Oldest first. -/
  lines : List String
  length_le : lines.length ≤ capacity

namespace LogBuffer

def empty (capacity : Nat) : LogBuffer where
  capacity := max capacity 1
  capacity_pos := by omega
  lines := []
  length_le := by simp

/-- Adds a line; when the buffer is full, the oldest one goes. -/
def push (b : LogBuffer) (line : String) : LogBuffer :=
  { b with
    lines := b.lines.drop (b.lines.length + 1 - b.capacity) ++ [line]
    length_le := by
      have := b.capacity_pos
      simp only [List.length_append, List.length_drop, List.length_singleton]
      omega }

/-- The youngest `n` lines. -/
def last (b : LogBuffer) (n : Nat) : List String :=
  b.lines.drop (b.lines.length - n)

end LogBuffer

end Debugger
