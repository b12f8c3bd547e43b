import Debugger.Progression
import Debugger.Target.Basic
import Debugger.Text.Blank
import Debugger.TypeName

/-!
Values of expressions, and the texts by which they are shown.
-/

namespace Debugger

inductive Value where
  | null
  | void
  | primitive (value : Primitive)
  /-- A string, with its id if it lives in the target. -/
  | text (text : String) (handle : Option ObjectId)
  | array (id : ObjectId)
  | object (id : ObjectId)
  | range (range : Progression)
  /-- Something that can only be shown. -/
  | placeholder (label : String)
deriving Repr

namespace Value

def bool (b : Bool) : Value := primitive (.boolean b)
def int (v : Int32) : Value := primitive (.int v)
def long (v : Int64) : Value := primitive (.long v)

/-- A string that lives in the debugger. -/
def ofString (s : String) : Value := text s none

def isNull : Value → Bool
  | null => true
  | _ => false

/-- As a condition, everything but null and false holds. -/
def isTruthy : Value → Bool
  | null | primitive (.boolean false) => false
  | _ => true

def objectId? : Value → Option ObjectId
  | array id | object id => some id
  | text _ handle => handle
  | _ => none

def kind? : Value → Option PrimitiveKind
  | primitive p => some p.kind
  | _ => none

def width? : Value → Option Width
  | primitive p => p.width?
  | _ => none

def integer? : Value → Option Int64
  | primitive p => p.integer?
  | _ => none

/-- The datum of a value that the target knows already. -/
def datum? : Value → Option Datum
  | null => some .null
  | void => some .void
  | primitive p => some (.primitive p)
  | text _ handle => handle.map .string
  | array id => some (.array id)
  | object id => some (.object id)
  | range _ | placeholder _ => none

/-- The text of a value that can be shown without asking the target. -/
def localText? : Value → Option String
  | null => some "null"
  | void => some "void"
  | primitive p => some p.text
  | text s _ => some s
  | range r => some r.text
  | placeholder label => some label
  | array _ | object _ => none

/-- The name of a type that is known without asking the target. -/
def localTypeName? : Value → Option String
  | null => some "null"
  | void => some "void"
  | primitive p => some p.kind.name
  | text .. => some TypeName.string
  | range r => some r.typeName
  | placeholder _ => some "kotlin.Function"
  | array _ | object _ => none

/-- The first `max` characters, and a mark if there are more. -/
def truncate (max : Nat) (s : String) : String :=
  let cs := s.toList
  if cs.length ≤ max then s else String.ofList (cs.take max) ++ "…"

/-- `int[3]` for an `int[]` of length three. -/
def arrayText (typeName : String) (length : Nat) : String :=
  let name := (TypeName.simple typeName).toList
  let element := if ['[', ']'].isSuffixOf name then name.take (name.length - 2) else name
  String.ofList element ++ "[" ++ toString length ++ "]"

/-- `Point@1f`, for an object that cannot describe itself. -/
def identityText (typeName : String) (id : ObjectId) : String :=
  TypeName.simple typeName ++ "@" ++ String.ofList (Nat.toDigits 16 id)

/-- Length as the target counts it. -/
def stringLength (s : String) : Value :=
  int (Int32.ofNat (Text.units16 s.toList))

end Value

end Debugger
