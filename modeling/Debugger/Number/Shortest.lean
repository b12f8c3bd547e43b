import Debugger.Number.Format

/-!
The shortest decimal that reads back as a given binary number: of all decimals with the fewest
digits that round to it, the one nearest to it, and of two equally near the greater.
-/

namespace Debugger.Number

/-- The number `digits * 10 ^ exponent`. -/
structure Decimal where
  digits : Nat
  exponent : Int
deriving DecidableEq, Repr

namespace Decimal

def text (d : Decimal) : String :=
  Nat.repr d.digits

/-- The exponent of the leading digit. -/
def magnitude (d : Decimal) : Int :=
  d.exponent + d.text.length - 1

/-- Drops zeros at the end, at most as many as given. -/
def dropZeros : Nat → Decimal → Decimal
  | 0, d => d
  | n + 1, d => if d.digits % 10 = 0 then dropZeros n ⟨d.digits / 10, d.exponent + 1⟩ else d

end Decimal

/-- A binary number `value * 2 ^ scale` and the ends of the interval that rounds to it. -/
structure Interval where
  low : Nat
  value : Nat
  high : Nat
  scale : Int
  closed : Bool

/-- The numbers that round to `mantissa * 2 ^ scale`. Below a power of two the grid is twice as
fine, so the gap on that side is half as wide. -/
def Format.interval (f : Format) (mantissa : Nat) (scale : Int) : Interval :=
  let gap := if mantissa = Nat.pow 2 f.fractionBits then 1 else 2
  ⟨4 * mantissa - gap, 4 * mantissa, 4 * mantissa + 2, scale - 2, mantissa % 2 = 0⟩

namespace Interval

/-- The two factors that turn the interval's unit into units of `10 ^ k`. -/
def factors (i : Interval) (k : Int) : Nat × Nat :=
  (Nat.pow 2 i.scale.toNat * Nat.pow 10 (-k).toNat,
    Nat.pow 2 (-i.scale).toNat * Nat.pow 10 k.toNat)

/-- Whether `10 ^ k` is at most the value. -/
def reaches (i : Interval) (k : Int) : Bool :=
  let (up, down) := i.factors k
  down ≤ i.value * up

/-- The exponent of the value's leading decimal digit. -/
def leadingDigit (i : Interval) : Int :=
  let guess := ((i.value.log2 : Int) + i.scale) * 30103 / 100000
  if i.reaches (guess + 1) then guess + 1
  else if i.reaches guess then guess
  else guess - 1

/-- The multiple of `10 ^ k` that lies in the interval, the nearer one if both neighbours of the
value do. -/
def onGrid (i : Interval) (k : Int) : Option Nat :=
  let (up, down) := i.factors k
  let below := i.value * up / down
  let holds (d : Nat) : Bool :=
    if i.closed then i.low * up ≤ d * down && d * down ≤ i.high * up
    else i.low * up < d * down && d * down < i.high * up
  match holds below, holds (below + 1) with
  | true, true => if (2 * below + 1) * down ≤ 2 * i.value * up then some (below + 1) else some below
  | true, false => some below
  | false, true => some (below + 1)
  | false, false => none

/-- Tries grids of one digit, two digits and so on. -/
def firstGrid (i : Interval) (k : Int) : Nat → Decimal
  | 0 => ⟨0, 0⟩
  | n + 1 => match i.onGrid k with
    | some d => Decimal.dropZeros 1 ⟨d, k⟩
    | none => i.firstGrid (k - 1) n

end Interval

/-- The shortest decimal for `mantissa * 2 ^ scale`, not zero. Seventeen digits tell any two
numbers of either format apart. -/
def Format.shortest (f : Format) (mantissa : Nat) (scale : Int) : Decimal :=
  let i := f.interval mantissa scale
  i.firstGrid i.leadingDigit 17

end Debugger.Number
