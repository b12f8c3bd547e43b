import Debugger.Number.Layout

/-!
Primitive values of the target: their kinds, their boxes, widening and conversion.
-/

namespace Debugger

inductive PrimitiveKind where
  | boolean | byte | short | int | long | float | double | char
deriving DecidableEq, Repr

namespace PrimitiveKind

def all : List PrimitiveKind :=
  [boolean, byte, short, int, long, float, double, char]

def name : PrimitiveKind → String
  | boolean => "boolean"
  | byte => "byte"
  | short => "short"
  | int => "int"
  | long => "long"
  | float => "float"
  | double => "double"
  | char => "char"

/-- The type of the objects that hold a primitive of this kind. -/
def box : PrimitiveKind → String
  | boolean => "java.lang.Boolean"
  | byte => "java.lang.Byte"
  | short => "java.lang.Short"
  | int => "java.lang.Integer"
  | long => "java.lang.Long"
  | float => "java.lang.Float"
  | double => "java.lang.Double"
  | char => "java.lang.Character"

def ofName? (s : String) : Option PrimitiveKind :=
  all.find? (·.name = s)

def ofBox? (s : String) : Option PrimitiveKind :=
  all.find? (·.box = s)

/-- The kinds a value widens to without a cast. -/
def wider : PrimitiveKind → List PrimitiveKind
  | byte => [short, int, long, float, double]
  | short | char => [int, long, float, double]
  | int => [long, float, double]
  | long => [float, double]
  | float => [double]
  | boolean | double => []

def numeric (k : PrimitiveKind) : Bool :=
  k ≠ boolean && k ≠ char

end PrimitiveKind

/-- The width in which an operation is carried out, narrow to wide. -/
inductive Width where
  | int | long | float | double
deriving DecidableEq, Repr

namespace Width

def rank : Width → Nat
  | int => 0
  | long => 1
  | float => 2
  | double => 3

def max (a b : Width) : Width :=
  if a.rank < b.rank then b else a

def integral : Width → Bool
  | int | long => true
  | float | double => false

end Width

inductive Primitive where
  | boolean (value : Bool)
  | byte (value : Int8)
  | short (value : Int16)
  | int (value : Int32)
  | long (value : Int64)
  | float (value : Float32)
  | double (value : Float)
  | char (value : Char)
deriving Repr

namespace Primitive

def kind : Primitive → PrimitiveKind
  | boolean _ => .boolean
  | byte _ => .byte
  | short _ => .short
  | int _ => .int
  | long _ => .long
  | float _ => .float
  | double _ => .double
  | char _ => .char

/-- The width an operand brings to an operation. -/
def width? : Primitive → Option Width
  | byte _ | short _ | int _ | char _ => some .int
  | long _ => some .long
  | float _ => some .float
  | double _ => some .double
  | boolean _ => none

/-- The value of an integral primitive; a character counts as its code. -/
def integer? : Primitive → Option Int64
  | byte v => some v.toInt64
  | short v => some v.toInt64
  | int v => some v.toInt64
  | long v => some v
  | char c => some (Int64.ofNat c.toNat)
  | boolean _ | float _ | double _ => none

def double? : Primitive → Option Float
  | float v => some v.toFloat
  | double v => some v
  | p => p.integer?.map Int64.toFloat

/-- The character with the low 16 bits as its code; half of a surrogate pair has none. -/
def charOfCode (code : Int64) : Char :=
  let n := code.toUInt64.toNat % 65536
  if n < 0xD800 || 0xDFFF < n then Char.ofNat n else '\ufffd'

def ofInteger (v : Int64) : PrimitiveKind → Option Primitive
  | .boolean => none
  | .byte => some (byte v.toInt8)
  | .short => some (short v.toInt16)
  | .int => some (int v.toInt32)
  | .long => some (long v)
  | .float => some (float v.toFloat32)
  | .double => some (double v.toFloat)
  | .char => some (char (charOfCode v))

/-- A fraction is cut off; beyond 32 or 64 bits the nearest integer there is counts. -/
def ofDouble (v : Float) : PrimitiveKind → Option Primitive
  | .boolean => none
  | .byte => some (byte v.toInt32.toInt8)
  | .short => some (short v.toInt32.toInt16)
  | .int => some (int v.toInt32)
  | .long => some (long v.toInt64)
  | .float => some (float v.toFloat32)
  | .double => some (double v)
  | .char => some (char (charOfCode v.toInt64))

/-- Conversion between kinds; a boolean converts to a boolean only. -/
def convert (k : PrimitiveKind) : Primitive → Option Primitive
  | boolean b => if k = .boolean then some (boolean b) else none
  | float v => ofDouble v.toFloat k
  | double v => ofDouble v k
  | p => p.integer?.bind (ofInteger · k)

def text : Primitive → String
  | boolean true => "true"
  | boolean false => "false"
  | byte v => toString v.toInt
  | short v => toString v.toInt
  | int v => toString v.toInt
  | long v => toString v.toInt
  | float v => Number.Layout.value.writeSingle v
  | double v => Number.Layout.value.writeDouble v
  | char c => String.singleton c

end Primitive

end Debugger
