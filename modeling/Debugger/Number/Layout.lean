import Debugger.Number.Shortest

/-!
How numbers are written: where positional text gives way to an exponent, whether a whole number
keeps a fraction, and the names of the numbers without digits.
-/

namespace Debugger.Number

structure Layout where
  /-- Whether a number with this exponent of its leading digit is written positionally. -/
  positional : Int → Bool
  /-- Whether `.0` follows a whole number. -/
  keepsFraction : Bool
  infinity : String

namespace Layout

/-- Values: an exponent outside `10 ^ -3` to `10 ^ 7`, and always a fraction. -/
def value : Layout where
  positional e := -3 ≤ e && e < 7
  keepsFraction := true
  infinity := "Infinity"

/-- Tokens: digits only, however many. -/
def token : Layout where
  positional _ := true
  keepsFraction := false
  infinity := "inf"

def zeros (n : Nat) : String :=
  String.ofList (List.replicate n '0')

/-- The text with a point before its last `places` characters. -/
def withPoint (text : String) (places : Nat) : String :=
  let cs := text.toList
  String.ofList (cs.take (cs.length - places)) ++ "." ++
    String.ofList (cs.drop (cs.length - places))

def whole (l : Layout) (text : String) : String :=
  if l.keepsFraction then text ++ ".0" else text

def writePositional (l : Layout) (d : Decimal) : String :=
  let places := (-d.exponent).toNat
  if places = 0 then l.whole (d.text ++ zeros d.exponent.toNat)
  else withPoint (zeros (places + 1 - d.text.length) ++ d.text) places

def writeExponent (l : Layout) (d : Decimal) : String :=
  let digits := d.text
  let mantissa :=
    if digits.length = 1 then l.whole digits else withPoint digits (digits.length - 1)
  s!"{mantissa}E{d.magnitude}"

/-- The text of the number with the given bits. -/
def write (l : Layout) (f : Format) (bits : Nat) : String :=
  match f.decode bits with
  | .nan => "NaN"
  | .infinite negative => if negative then "-" ++ l.infinity else l.infinity
  | .finite negative mantissa scale =>
    let text :=
      if mantissa = 0 then l.whole "0"
      else
        let d := f.shortest mantissa scale
        if l.positional d.magnitude then l.writePositional d else l.writeExponent d
    if negative then "-" ++ text else text

def writeDouble (l : Layout) (x : Float) : String :=
  l.write .double x.toBits.toNat

def writeSingle (l : Layout) (x : Float32) : String :=
  l.write .single x.toBits.toNat

end Layout

/-- The double nearest to `digits * 10 ^ exponent`. -/
def doubleOfDecimal (digits : Nat) (exponent : Int) : Float :=
  Float.ofBits (Format.double.ofDecimal digits exponent).toUInt64

def singleOfDecimal (digits : Nat) (exponent : Int) : Float32 :=
  Float32.ofBits (Format.single.ofDecimal digits exponent).toUInt32

def remainder (a b : Float) : Float :=
  Float.ofBits (Format.double.remainder a.toBits.toNat b.toBits.toNat).toUInt64

def remainder32 (a b : Float32) : Float32 :=
  Float32.ofBits (Format.single.remainder a.toBits.toNat b.toBits.toNat).toUInt32

end Debugger.Number
