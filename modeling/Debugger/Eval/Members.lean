import Debugger.Eval.Invoke

/-!
Members of values: names on the frame, properties and methods, those that are answered without the
target before those that take a call to it.
-/

namespace Debugger.Scope

open Syntax

variable (scope : Scope)

/-! ### Names -/

def thisValue : Eval Value := do
  match ← Remote.frameThis scope.thread scope.frame with
  | some id => return .object id
  | none => throw (.nameNotFound "this")

/-- The value of a name in a field of `this`. -/
def fieldOfThis (name : String) : Eval (Option Datum) := do
  match ← Remote.frameThis scope.thread scope.frame with
  | some id => Remote.field id name
  | none => return none

/-- A name is a local variable, a field of `this`, or a static field of the frame's type, in this
order. -/
def resolve (name : String) : Eval Value := do
  if name = "this" then scope.thisValue
  else if (← Remote.visibleVariables scope.thread scope.frame).any (·.name = name) then
    Eval.ofDatum (← Remote.variableValue scope.thread scope.frame name)
  else
    match ← scope.fieldOfThis name with
    | some datum => Eval.ofDatum datum
    | none =>
      match ← Eval.staticField (← Remote.frameType scope.thread scope.frame) name with
      | some datum => Eval.ofDatum datum
      | none => throw (.nameNotFound name)

/-! ### Operators -/

/-- Equality: primitives by value, strings by content, other objects by identity and then by their
own `equals` if code may be run. -/
def equal (a b : Value) : Eval Bool :=
  match a, b with
  | .null, .null => return true
  | .null, _ | _, .null => return false
  | .text s _, .text t _ => return s = t
  | .range r, .range s => return r = s
  | .array i, .array j => return i = j
  | .primitive p, .primitive q => return p.equal q
  | .object i, .object j =>
    if i = j then return true
    else if scope.settings.allowInvocation then do
      match ← scope.invokeOn (.object i) "equals" [.object j] with
      | .primitive (.boolean true) => return true
      | _ => return false
    else return false
  | _, _ => return false

/-- The result of an operator on primitives; other values are of the wrong type. -/
def onPrimitives (op : BinaryOp) (f : Primitive → Primitive → Except OperandFault Value)
    (a b : Value) : Eval Value :=
  match a, b with
  | .primitive p, .primitive q =>
    match f p q with
    | .ok v => return v
    | .error .divisionByZero => throw .divisionByZero
    | .error .mismatch => Eval.operandMismatch op a b
  | _, _ => Eval.operandMismatch op a b

def compare (op : BinaryOp) (a b : Value) : Eval Value :=
  match a, b with
  | .text s _, .text t _ => return .bool (comparisonHolds op (some (textOrder s t)))
  | _, _ => onPrimitives op (fun p q => (.bool <| comparisonHolds op ·) <$> p.order q) a b

/-- An operator on two values that are not boxes. -/
def binaryOnUnboxed (op : BinaryOp) (a b : Value) : Eval Value :=
  match op with
  | .add =>
    match a, b with
    | .text .., _ | _, .text .. => do
      let left ← scope.textOf a
      let right ← scope.textOf b
      return .ofString (left ++ right)
    | _, _ => onPrimitives op (fun p q => .primitive <$> p.arithmetic op q) a b
  | .sub | .mul | .div | .rem => onPrimitives op (fun p q => .primitive <$> p.arithmetic op q) a b
  | .eq => .bool <$> scope.equal a b
  | .ne => (.bool !·) <$> scope.equal a b
  | .lt | .le | .gt | .ge => compare op a b
  | .and | .or | .bitAnd | .bitOr | .bitXor =>
    onPrimitives op (fun p q => .primitive <$> p.bitwise op q) a b
  | .shl | .shr | .ushr => onPrimitives op (fun p q => .primitive <$> p.shift op q) a b

def binary (op : BinaryOp) (a b : Value) : Eval Value := do
  let left ← scope.unboxed a
  let right ← scope.unboxed b
  scope.binaryOnUnboxed op left right

def unary (op : UnaryOp) (v : Value) : Eval Value := do
  match ← scope.unboxed v with
  | .primitive p =>
    match p.unary op with
    | .ok q => return .primitive q
    | .error _ => throw (.typeMismatch (.operand (some p.kind)))
  | _ => throw (.typeMismatch (.operand none))

/-- A condition of the construct named by `context`. -/
def condition (context : String) (v : Value) : Eval Bool := do
  match ← scope.unboxed v with
  | .primitive (.boolean b) => return b
  | other => throw (.typeMismatch (.condition context (← Eval.typeNameOf other)))

/-! ### Membership -/

/-- Whether the text has the other one somewhere inside. -/
def occursIn (needle : List Char) : List Char → Bool
  | [] => needle.isEmpty
  | c :: cs => needle.isPrefixOf (c :: cs) || occursIn needle cs

/-- Looks for a value among `count` elements from `index` on. -/
def searchArray (id : ObjectId) (v : Value) : Nat → Nat → Eval Bool
  | 0, _ => return false
  | count + 1, index => do
    let item ← Eval.ofDatum (← Remote.element id index)
    if ← scope.equal item v then return true
    searchArray id v count (index + 1)

def contains (collection v : Value) : Eval Bool :=
  match collection with
  | .range r => do return (← scope.unboxed v).integer?.any r.contains
  | .text s _ =>
    match v with
    | .text t _ => return occursIn t.toList s.toList
    | .primitive (.char c) => return s.toList.contains c
    | other => do throw (.typeMismatch (.needle (← Eval.typeNameOf other)))
  | .array id => do scope.searchArray id v (← Remote.arrayLength id) 0
  | .object id => do
    match ← scope.invokeOn (.object id) "contains" [v] with
    | .primitive (.boolean true) => return true
    | _ => return false
  | .null => throw (.nullReceiver "contains")
  | other => do throw (.typeMismatch (.collection (← Eval.typeNameOf other)))

/-! ### Properties -/

/-- The getter of a property among methods that may be called so, in the order of preference. -/
def findGetter (type : TypeId) : List String → Eval (Option Method)
  | [] => return none
  | name :: names => do
    match (← Remote.methodsByName type name).find? fun m => m.params.isEmpty && !m.isStatic with
    | some m => return some m
    | none => findGetter type names

def getterNames (property : String) : List String :=
  let capital := Text.capitalize property
  ["get" ++ capital, "is" ++ capital, property]

/-- A property read through its getter. -/
def getProperty (v : Value) (name : String) : Eval Value := do
  let (id, type) ← invocationTarget v
  match ← findGetter type (getterNames name) with
  | some m => scope.invokeGetter (.object id) m
  | none => throw (.nameNotFound name)

def boundOf (r : Progression) (v : Int64) : Value :=
  if r.long then .long v else .int v.toInt32

/-- The parts of a progression that have names. -/
def rangeMember? (r : Progression) : String → Option Value
  | "first" => some (boundOf r r.first)
  | "last" => some (boundOf r r.last)
  | "step" => some (boundOf r r.step)
  | _ => none

def noMember (v : Value) (name : String) : Eval Value := do
  throw (.typeMismatch (.member (← Eval.typeNameOf v) name))

def member (v : Value) (name : String) : Eval Value :=
  match v with
  | .text s _ => if name = "length" then return .stringLength s else scope.getProperty v name
  | .array id =>
    if name = "length" || name = "size" then do
      return .int (Int32.ofNat (← Remote.arrayLength id))
    else noMember v name
  | .range r =>
    match rangeMember? r name with
    | some bound => return bound
    | none => noMember v name
  | .object id => do
    match ← Remote.field id name with
    | some datum => Eval.ofDatum datum
    | none => scope.getProperty v name
  | .placeholder _ => throw (.unsupported (.lambdaMember name))
  | _ => noMember v name

/-! ### Indexing -/

def indexOf (v : Value) : Eval Int64 :=
  match v.integer? with
  | some i => return i
  | none => throw (.typeMismatch (.index v.kind?))

def index (target i : Value) : Eval Value := do
  let i ← scope.unboxed i
  match target with
  | .null => throw (.nullReceiver "[]")
  | .array id =>
    let n := (← indexOf i).toInt
    let length ← Remote.arrayLength id
    if n < 0 || length ≤ n then throw (.indexOutOfBounds n length)
    Eval.ofDatum (← Remote.element id n.toNat)
  | .text s _ =>
    let n := (← indexOf i).toInt
    let cs := s.toList
    match if n < 0 then none else cs[n.toNat]? with
    | some c => return .primitive (.char c)
    | none => throw (.indexOutOfBounds n cs.length)
  | .object id => scope.invokeOn (.object id) "get" [i]
  | other => throw (.typeMismatch (.indexing (← Eval.typeNameOf other)))

/-! ### Methods -/

/-- The kind that a conversion method such as `toInt` converts to. -/
def conversionKind? (method : String) : Option PrimitiveKind :=
  [("toInt", PrimitiveKind.int), ("toLong", .long), ("toShort", .short), ("toByte", .byte),
    ("toFloat", .float), ("toDouble", .double), ("toChar", .char)].lookup method

def primitiveMethod (p : Primitive) (name : String) (args : List Value) : Eval Value :=
  match conversionKind? name, args with
  | some kind, [] =>
    match p.convert kind with
    | some q => return .primitive q
    | none => throw (.typeMismatch (.booleanConversion name))
  | _, _ =>
    match name, args with
    | "toString", [] => return .ofString p.text
    | "equals", [other] => .bool <$> scope.equal (.primitive p) other
    | _, _ => throw (.methodNotFound (p.kind.name ++ "." ++ name))

def rangeMethod (r : Progression) (name : String) (args : List Value) : Eval Value :=
  match name, args with
  | "isEmpty", [] => return .bool r.isEmpty
  | "contains", [v] => .bool <$> scope.contains (.range r) v
  | "toString", [] => return .ofString r.text
  | "equals", [other] => .bool <$> scope.equal (.range r) other
  | _, _ => throw (.methodNotFound (r.typeName ++ "." ++ name))

/-- A method call on a value. Strings answer a few methods themselves, primitives and progressions
all they have. -/
def callOn (v : Value) (name : String) (args : List Value) : Eval Value :=
  match v with
  | .primitive p => scope.primitiveMethod p name args
  | .range r => scope.rangeMethod r name args
  | .placeholder _ => throw (.unsupported .lambdaCall)
  | .text s handle =>
    match name, args with
    | "toString", [] => return .text s handle
    | "length", [] => return .stringLength s
    | "isEmpty", [] => return .bool s.isEmpty
    | "equals", [other] => .bool <$> scope.equal v other
    | _, _ => scope.invokeOn v name args
  | _ => scope.invokeOn v name args

def callStatic (type : TypeId) (name : String) (args : List Value) : Eval Value := do
  let statics := (← Remote.methodsByName type name).filter (·.isStatic)
  match ← Eval.selectOverload statics args with
  | some m => scope.invoke (.type type) m args
  | none => throw (.methodNotFound name)

/-- The method of `this` that a call without a receiver takes, with its receiver. -/
def methodOfThis (name : String) (args : List Value) : Eval (Option (Receiver × Method)) := do
  match ← Remote.frameThis scope.thread scope.frame with
  | none => return none
  | some this =>
    let type ← Remote.objectType this
    match ← Eval.selectOverload (← Remote.methodsByName type name) args with
    | some m => return some (if m.isStatic then .type type else .object this, m)
    | none => return none

/-- A call without a receiver: a method of `this`, else a static one of the frame's type. -/
def callUnqualified (name : String) (args : List Value) : Eval Value := do
  match ← scope.methodOfThis name args with
  | some (receiver, m) => scope.invoke receiver m args
  | none => scope.callStatic (← Remote.frameType scope.thread scope.frame) name args

def constructObject (type : TypeId) (written : String) (args : List Value) : Eval Value := do
  match ← Eval.selectOverload (← Remote.methodsByName type "<init>") args with
  | none => throw (.methodNotFound (written ++ ".<init>"))
  | some m =>
    scope.ensureInvocable
    let data ← scope.passArguments (args.zip m.params)
    Eval.ofDatum (← Remote.construct scope.thread type m.id data)

/-! ### Casts and ranges -/

/-- A number or character converts to a primitive type; anything else must be an instance. -/
def convertTo? (v : Value) (type : TypeRef) : Option Value :=
  match v, PrimitiveKind.ofName? (TypeName.canonical type.name) with
  | .primitive p, some kind => if p.kind = .boolean then none else .primitive <$> p.convert kind
  | _, _ => none

def castTo (v : Value) (type : TypeRef) (safe : Bool) : Eval Value :=
  if v.isNull then
    if type.nullable || safe then return .null
    else throw (.typeMismatch (.nullCast type.name))
  else match convertTo? v type with
    | some converted => return converted
    | none => do
      if ← Eval.isInstance type v then return v
      if safe then return .null
      throw (.typeMismatch (.cast (← Eval.typeNameOf v) type.name))

/-- The bounds of a range, and whether it is one of longs. -/
def rangeBounds (first last : Value) : Eval (Int64 × Int64 × Bool) := do
  match first.integer?, last.integer? with
  | some a, some b => return (a, b, first.kind? = some .long || last.kind? = some .long)
  | _, _ =>
    let left ← Eval.typeNameOf first
    let right ← Eval.typeNameOf last
    throw (.typeMismatch (.rangeBounds left right))

def rangeStep (v : Value) : Eval Int64 := do
  match v.integer? with
  | some n => return n
  | none => throw (.typeMismatch (.rangeStep (← Eval.typeNameOf v)))

/-- `until` leaves out its end; the smallest long has nothing before it. -/
def before (v : Int64) : Int64 :=
  if v = Int64.minValue then v else v - 1

def makeRange (kind : RangeKind) (first last step : Int64) (long : Bool) : Eval Value := do
  if step ≤ 0 then throw (.typeMismatch (.stepNotPositive step.toInt))
  return .range (match kind with
    | .closed => ⟨first, last, step, long⟩
    | .until => ⟨first, before last, step, long⟩
    | .downTo => ⟨first, last, -step, long⟩)

end Debugger.Scope
