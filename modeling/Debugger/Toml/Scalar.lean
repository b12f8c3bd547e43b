import Debugger.Number.Format
import Debugger.Text.Digits

/-!
Values that stand without quotes or brackets: numbers, dates and times.
-/

namespace Debugger.Toml

open Text

/-! ### Numbers -/

/-- Digits with single underscores between them. -/
def grouped? (radix : Nat) (cs : List Char) : Option (List Char) := do
  guard (cs.head?.any (isDigitOf radix) && cs.getLast?.any (isDigitOf radix))
  guard (cs.all fun c => isDigitOf radix c || c = '_')
  guard ((cs.zip cs.tail).all (· ≠ ('_', '_')))
  return cs.filter (· ≠ '_')

/-- Decimal digits without a zero in front. -/
def whole? (cs : List Char) : Option (List Char) := do
  guard (cs.length = 1 || cs.head? ≠ some '0')
  grouped? 10 cs

/-- Whether there is a minus, and what is behind the sign. -/
def splitSign : List Char → Bool × List Char
  | '+' :: cs => (false, cs)
  | '-' :: cs => (true, cs)
  | cs => (false, cs)

def withSign (negative : Bool) (n : Nat) : Int :=
  if negative then -Int.ofNat n else Int.ofNat n

def anyInteger? : List Char → Option Int
  | '0' :: 'x' :: cs => (Int.ofNat <| ofDigits 16 ·) <$> grouped? 16 cs
  | '0' :: 'o' :: cs => (Int.ofNat <| ofDigits 8 ·) <$> grouped? 8 cs
  | '0' :: 'b' :: cs => (Int.ofNat <| ofDigits 2 ·) <$> grouped? 2 cs
  | cs =>
    let (negative, digits) := splitSign cs
    (withSign negative <| ofDigits 10 ·) <$> whole? digits

/-- An integer of 64 bits. Only a decimal one has a sign. -/
def integer? (cs : List Char) : Option Int :=
  (anyInteger? cs).filter fun n => -(Nat.pow 2 63 : Int) ≤ n && n < Nat.pow 2 63

/-- The digits of a fraction with the point in front, if there is one. -/
def fraction? : List Char → Option (List Char)
  | [] => some []
  | _ :: cs => grouped? 10 cs

/-- An exponent with the `e` in front, if there is one. -/
def exponent? : List Char → Option Int
  | [] => some 0
  | _ :: cs =>
    let (negative, digits) := splitSign cs
    (withSign negative <| ofDigits 10 ·) <$> grouped? 10 digits

/-- A finite number with a fraction or an exponent. One that is too large is refused, but below
zero it is infinite. -/
def decimal? (cs : List Char) : Option Float := do
  let isMark (c : Char) := c = 'e' || c = 'E'
  let (negative, cs) := splitSign cs
  let mantissa := cs.takeWhile (!isMark ·)
  let tail := cs.dropWhile (!isMark ·)
  let fraction := mantissa.dropWhile (· ≠ '.')
  guard !(fraction.isEmpty && tail.isEmpty)
  let whole ← whole? (mantissa.takeWhile (· ≠ '.'))
  let places ← fraction? fraction
  let exponent ← exponent? tail
  let format := Number.Format.double
  let size := format.ofDecimal (ofDigits 10 (whole ++ places)) (exponent - places.length)
  guard (negative || size ≠ format.infinityBits)
  return Float.ofBits (size + if negative then format.signBit else 0).toUInt64

def float? (cs : List Char) : Option Float :=
  let (negative, name) := splitSign cs
  let one : Float := if negative then -1 else 1
  if name = "inf".toList then some (one / 0)
  else if name = "nan".toList then some (0 / 0)
  else decimal? cs

/-! ### Dates and times -/

def daysIn (year month : Nat) : Nat :=
  if month = 2 then
    if year % 4 = 0 && (year % 100 ≠ 0 || year % 400 = 0) then 29 else 28
  else if [4, 6, 9, 11].contains month then 30
  else 31

/-- Two digits for a number within bounds. -/
def isPart (first last : Nat) (ds : List Char) : Bool :=
  ds.length = 2 && ds.all Char.isDigit && first ≤ ofDigits 10 ds && ofDigits 10 ds ≤ last

/-- `1979-05-27` -/
def isDate : List Char → Bool
  | y1 :: y2 :: y3 :: y4 :: '-' :: m1 :: m2 :: '-' :: day =>
    let year := [y1, y2, y3, y4]
    let month := [m1, m2]
    year.all Char.isDigit && isPart 1 12 month &&
      isPart 1 (daysIn (ofDigits 10 year) (ofDigits 10 month)) day
  | _ => false

/-- `07:32:00`, with a fraction of a second or none. A minute may have a leap second. -/
def isClock : List Char → Bool
  | h1 :: h2 :: ':' :: m1 :: m2 :: ':' :: s1 :: s2 :: rest =>
    isPart 0 23 [h1, h2] && isPart 0 59 [m1, m2] && isPart 0 60 [s1, s2] &&
      match rest with
      | [] => true
      | p :: ds => p = '.' && !ds.isEmpty && ds.all Char.isDigit
  | _ => false

/-- What may follow the time of a date: nothing, `Z` or a difference such as `+01:00`. -/
def isZone : List Char → Bool
  | [] => true
  | [c] => c = 'Z' || c = 'z'
  | sign :: h1 :: h2 :: ':' :: minute =>
    (sign = '+' || sign = '-') && isPart 0 23 [h1, h2] && isPart 0 59 minute
  | _ => false

def isZoned (cs : List Char) : Bool :=
  let inClock (c : Char) := c.isDigit || c = ':' || c = '.'
  isClock (cs.takeWhile inClock) && isZone (cs.dropWhile inClock)

/-- A date, a time of day, or a date and a time with a `T` or a blank between them. -/
def isMoment (cs : List Char) : Bool :=
  isDate cs || isClock cs ||
    (isDate (cs.take 10) && cs[10]?.any (['T', 't', ' '].contains ·) && isZoned (cs.drop 11))

end Debugger.Toml
