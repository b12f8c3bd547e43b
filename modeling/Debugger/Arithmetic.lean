import Debugger.Syntax.Expr
import Debugger.Value

/-!
Operators on primitives. Integral operands are widened to 32 or 64 bits and wrap around there;
floating ones are computed in the wider of the two formats.
-/

namespace Debugger

open Syntax

inductive OperandFault where
  /-- The operator does not apply to these kinds. -/
  | mismatch
  | divisionByZero
deriving DecidableEq, Repr

namespace Primitive

/-- An integral operand at 64 bits. -/
def asLong (p : Primitive) : Int64 :=
  p.integer?.getD 0

/-- An integral operand at 32 bits. -/
def asInt (p : Primitive) : Int32 :=
  p.asLong.toInt32

def asDouble (p : Primitive) : Float :=
  p.double?.getD 0

def intArithmetic (op : BinaryOp) (a b : Int32) : Except OperandFault Int32 :=
  match op with
  | .add => .ok (a + b)
  | .sub => .ok (a - b)
  | .mul => .ok (a * b)
  | .div => if b = 0 then .error .divisionByZero else .ok (a / b)
  | .rem => if b = 0 then .error .divisionByZero else .ok (a % b)
  | _ => .error .mismatch

def longArithmetic (op : BinaryOp) (a b : Int64) : Except OperandFault Int64 :=
  match op with
  | .add => .ok (a + b)
  | .sub => .ok (a - b)
  | .mul => .ok (a * b)
  | .div => if b = 0 then .error .divisionByZero else .ok (a / b)
  | .rem => if b = 0 then .error .divisionByZero else .ok (a % b)
  | _ => .error .mismatch

def floatArithmetic (op : BinaryOp) (a b : Float32) : Except OperandFault Float32 :=
  match op with
  | .add => .ok (a + b)
  | .sub => .ok (a - b)
  | .mul => .ok (a * b)
  | .div => .ok (a / b)
  | .rem => .ok (Number.remainder32 a b)
  | _ => .error .mismatch

def doubleArithmetic (op : BinaryOp) (a b : Float) : Except OperandFault Float :=
  match op with
  | .add => .ok (a + b)
  | .sub => .ok (a - b)
  | .mul => .ok (a * b)
  | .div => .ok (a / b)
  | .rem => .ok (Number.remainder a b)
  | _ => .error .mismatch

/-- `+ - * / %` at the wider of the two widths. -/
def arithmetic (op : BinaryOp) (a b : Primitive) : Except OperandFault Primitive :=
  match a.width?, b.width? with
  | some v, some w =>
    match v.max w with
    | .int => int <$> intArithmetic op a.asInt b.asInt
    | .long => long <$> longArithmetic op a.asLong b.asLong
    | .float => float <$> floatArithmetic op a.asDouble.toFloat32 b.asDouble.toFloat32
    | .double => double <$> doubleArithmetic op a.asDouble b.asDouble
  | _, _ => .error .mismatch

def bits (op : BinaryOp) (a b : Int64) : Except OperandFault Int64 :=
  match op with
  | .and | .bitAnd => .ok (a &&& b)
  | .or | .bitOr => .ok (a ||| b)
  | .bitXor => .ok (a ^^^ b)
  | _ => .error .mismatch

def logic (op : BinaryOp) (a b : Bool) : Except OperandFault Bool :=
  match op with
  | .and | .bitAnd => .ok (a && b)
  | .or | .bitOr => .ok (a || b)
  | .bitXor => .ok (a ^^ b)
  | _ => .error .mismatch

/-- `and or xor` on two booleans or two integral operands. -/
def bitwise (op : BinaryOp) (a b : Primitive) : Except OperandFault Primitive :=
  match a, b with
  | boolean p, boolean q => boolean <$> logic op p q
  | _, _ =>
    match a.width?, b.width? with
    | some v, some w =>
      match v.max w with
      | .int => (int ·.toInt32) <$> bits op a.asLong b.asLong
      | .long => long <$> bits op a.asLong b.asLong
      | .float | .double => .error .mismatch
    | _, _ => .error .mismatch

def intShift (op : BinaryOp) (a : Int32) (amount : Int32) : Except OperandFault Int32 :=
  match op with
  | .shl => .ok (a <<< amount)
  | .shr => .ok (a >>> amount)
  | .ushr => .ok (a.toUInt32 >>> amount.toUInt32).toInt32
  | _ => .error .mismatch

def longShift (op : BinaryOp) (a : Int64) (amount : Int64) : Except OperandFault Int64 :=
  match op with
  | .shl => .ok (a <<< amount)
  | .shr => .ok (a >>> amount)
  | .ushr => .ok (a.toUInt64 >>> amount.toUInt64).toInt64
  | _ => .error .mismatch

/-- `shl shr ushr`: the left operand gives the width, and only as many bits of the amount count as
that width needs. -/
def shift (op : BinaryOp) (a b : Primitive) : Except OperandFault Primitive :=
  match a.width?, b.integer? with
  | some .int, some amount => int <$> intShift op a.asInt (amount &&& 31).toInt32
  | some .long, some amount => long <$> longShift op a.asLong (amount &&& 63)
  | _, _ => .error .mismatch

/-- The order of two floating numbers; NaN has none. -/
def floatOrder (a b : Float) : Option Ordering :=
  if a < b then some .lt else if a == b then some .eq else if b < a then some .gt else none

def integerOrder (a b : Int64) : Ordering :=
  if a < b then .lt else if a = b then .eq else .gt

/-- The order of two numeric operands, if they have one. -/
def order (a b : Primitive) : Except OperandFault (Option Ordering) :=
  match a.width?, b.width? with
  | some v, some w =>
    if (v.max w).integral then .ok (some (integerOrder a.asLong b.asLong))
    else .ok (floatOrder a.asDouble b.asDouble)
  | _, _ => .error .mismatch

/-- Equality by value, whatever the kinds. -/
def equal (a b : Primitive) : Bool :=
  match a, b with
  | boolean p, boolean q => p = q
  | _, _ =>
    match a.width?, b.width? with
    | some v, some w =>
      if (v.max w).integral then a.asLong = b.asLong else a.asDouble == b.asDouble
    | _, _ => false

/-- Unary operators; characters and narrow integers become `int`. -/
def unary (op : UnaryOp) (p : Primitive) : Except OperandFault Primitive :=
  match op, p with
  | .not, boolean b => .ok (boolean !b)
  | .neg, long v => .ok (long (-v))
  | .neg, float v => .ok (float (-v))
  | .neg, double v => .ok (double (-v))
  | .plus, long _ | .plus, float _ | .plus, double _ => .ok p
  | .bitNot, long v => .ok (long (~~~v))
  | .neg, _ => if p.width? = some .int then .ok (int (-p.asInt)) else .error .mismatch
  | .plus, _ => if p.width? = some .int then .ok (int p.asInt) else .error .mismatch
  | .bitNot, _ => if p.width? = some .int then .ok (int (~~~p.asInt)) else .error .mismatch
  | _, _ => .error .mismatch

end Primitive

/-- Whether an order satisfies a comparison operator. -/
def comparisonHolds (op : BinaryOp) (o : Option Ordering) : Bool :=
  match op, o with
  | .lt, some .lt | .le, some .lt | .le, some .eq => true
  | .gt, some .gt | .ge, some .gt | .ge, some .eq => true
  | _, _ => false

/-- Strings are ordered by code points. -/
def textOrder (a b : String) : Ordering :=
  if a < b then .lt else if a = b then .eq else .gt

end Debugger
