import Debugger.Eval.Overload

/-!
Running methods of the target: unboxing, passing arguments, invoking, and the texts of objects,
which may take a `toString` in the target.
-/

namespace Debugger

/-- More steps than a chain of boxes can take without meeting one of them again: each holder is on
the heap or made anew for one of the types. -/
def Target.chainBound (t : Target) : Nat :=
  t.heap.length + t.types.length + 2

namespace Scope

variable (scope : Scope)

/-- Invokes a method without parameters. -/
def invokeGetter (receiver : Receiver) (m : Method) : Eval Value := do
  scope.ensureInvocable
  Eval.ofDatum (← Remote.invoke scope.thread receiver m.id [])

/-- What the accessor `intValue` and its like return for a box of that kind. -/
def unboxByAccessor (id : ObjectId) (type : TypeId) (kind : PrimitiveKind) : Eval Value := do
  let accessor := kind.name ++ "Value"
  match (← Remote.methodsByName type accessor).find? fun m => m.params.isEmpty && !m.isStatic with
  | some m => scope.invokeGetter (.object id) m
  | none => throw (.methodNotFound accessor)

/-- What a box holds: its field `value` if that is of the box's kind, else what its accessor
returns. Nothing for values that are not boxes. -/
def unbox? : Value → Eval (Option Value)
  | .object id => do
    let type ← Remote.objectType id
    match PrimitiveKind.ofBox? (← Remote.typeName type) with
    | none => return none
    | some kind =>
      if let some datum ← Remote.field id "value" then
        let inner ← Eval.ofDatum datum
        if inner.kind? = some kind then return some inner
      some <$> scope.unboxByAccessor id type kind
  | _ => return none

/-- The value, or what it holds if it is a box. -/
def unboxed (v : Value) : Eval Value := do
  return (← scope.unbox? v).getD v

/-! ### Arguments -/

/-- The id of a string in the target, which is put there if need be. -/
def remoteString (text : String) : Option ObjectId → Eval ObjectId
  | some id => return id
  | none => Remote.wrapString text

/-- Boxes a primitive by the static `valueOf` of its box type. -/
def boxed (p : Primitive) : Eval Datum := do
  let box := p.kind.box
  match (← Remote.listLoaded (some box)).head? with
  | none => throw (.unsupported (.boxNotLoaded p.kind))
  | some type =>
    let fits (m : Method) : Bool := m.isStatic && m.params = [p.kind.name]
    match (← Remote.methodsByName type "valueOf").find? fits with
    | none => throw (.methodNotFound (box ++ ".valueOf"))
    | some m => Remote.invoke scope.thread (.type type) m.id [.primitive p]

/-- Passes a primitive as a parameter of the named type. -/
def passPrimitive (p : Primitive) (param : String) : Eval Datum :=
  match PrimitiveKind.ofName? param with
  | none => scope.boxed p
  | some kind =>
    match p.convert kind with
    | some q => return .primitive q
    | none => throw (.typeMismatch (.argument p.kind.name param))

/-- Passes a value as a parameter of the named type. A box is unboxed for a primitive parameter,
and what it holds is passed in its place. -/
def passArgument (param : String) : Nat → Value → Eval Datum
  | _, .text s handle => return .string (← remoteString s handle)
  | _, .primitive p => scope.passPrimitive p param
  | _, .null => return .null
  | _, .array id => return .array id
  | n, .object id =>
    if (PrimitiveKind.ofName? param).isNone then return .object id
    else match n with
      | 0 => throw .endless
      | n + 1 => do
        match ← scope.unbox? (.object id) with
        | some inner => passArgument param n inner
        | none => throw (.typeMismatch (.argument (← Eval.typeNameOf (.object id)) param))
  | _, v => throw (.unsupported (.notPassable (v.localText?.getD "")))

/-- Passes values as the parameters of a method. -/
def passArguments : List (Value × String) → Eval (List Datum)
  | [] => return []
  | (v, param) :: rest => do
    let datum ← scope.passArgument param (← get).target.chainBound v
    return datum :: (← passArguments rest)

/-! ### Invocation -/

def invoke (receiver : Receiver) (m : Method) (args : List Value) : Eval Value := do
  scope.ensureInvocable
  let data ← scope.passArguments (args.zip m.params)
  Eval.ofDatum (← Remote.invoke scope.thread receiver m.id data)

/-- The id and the type of a value that methods can be invoked on. -/
def invocationTarget : Value → Eval (ObjectId × TypeId)
  | .text s handle => do
    let id ← remoteString s handle
    return (id, ← Remote.objectType id)
  | .array id | .object id => return (id, ← Remote.objectType id)
  | v => do throw (.typeMismatch (.remoteMethods (← Eval.typeNameOf v)))

/-- Invokes the best overload of a name on a value. -/
def invokeOn (v : Value) (name : String) (args : List Value) : Eval Value := do
  let (id, type) ← invocationTarget v
  match ← Eval.selectOverload (← Remote.methodsByName type name) args with
  | none => throw (.methodNotFound name)
  | some m => scope.invoke (if m.isStatic then .type type else .object id) m args

/-! ### Texts -/

/-- The text of an object: of what it holds if it is a box, else its own `toString`, else its
identity. -/
def objectText : Nat → ObjectId → Eval String
  | 0, _ => throw .endless
  | n + 1, id => do
    match ← (scope.unbox? (.object id)).attempt? with
    | some (some (.object inner)) => objectText n inner
    | some (some v) => valueText v
    | _ =>
      if scope.settings.allowInvocation then
        if let some (.text s _) ← (scope.invokeOn (.object id) "toString" []).attempt? then
          return s
      return Value.identityText (← Eval.runtimeTypeName id) id
where
  /-- The text of a value that is not an object. -/
  valueText : Value → Eval String
    | .array id => do
      let type ← Eval.runtimeTypeName id
      match ← (liftM (Remote.arrayLength id) : Eval Nat).attempt? with
      | some length => return Value.arrayText type length
      | none => return Value.identityText type id
    | v => return v.localText?.getD ""

/-- The text of a value inside other text. -/
def textOf : Value → Eval String
  | .object id => do scope.objectText (← get).target.chainBound id
  | v => objectText.valueText v

/-- The text that is shown for a result; long strings are cut. -/
def display : Value → Eval String
  | .text s _ => return Value.truncate scope.settings.maxStringDisplay s
  | v => scope.textOf v

end Scope

end Debugger
