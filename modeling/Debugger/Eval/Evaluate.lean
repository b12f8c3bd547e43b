import Debugger.Eval.Members
import Debugger.Syntax.Parser

/-!
Evaluation of expression trees. A tree is evaluated by recursion on it, given what the holes of
its templates evaluate to. A hole is read again as an expression, whose own holes are shorter by
at least the quotes and braces around them: five characters a level.
-/

namespace Debugger

open Syntax

def Literal.value : Literal → Value
  | .int v => .int v
  | .long v => .long v
  | .float v => .primitive (.float v)
  | .double v => .primitive (.double v)
  | .char c => .primitive (.char c)
  | .bool b => .bool b
  | .string s => .ofString s
  | .null => .null

namespace Scope

variable (scope : Scope) (hole : String → Eval Value)

/-- What a member or a call is taken from. -/
inductive Owner where
  | value (v : Value)
  | type (id : TypeId)

/-- The value of a receiver or, if a name in it is not found and it spells a type, that type. -/
def ownerOf (e : Expr) (evaluated : Eval Value) : Eval Owner := do
  match ← evaluated.attempt with
  | .ok v => return .value v
  | .error (.nameNotFound missing) =>
    match e.qualifiedName?.filter TypeName.looksLikeType with
    | none => throw (.nameNotFound missing)
    | some name =>
      match ← Eval.findType name with
      | some type => return .type type
      | none => throw (.nameNotFound missing)
  | .error other => throw other

def staticMember (type : TypeId) (name : String) : Eval Value := do
  match ← Eval.staticField type name with
  | some datum => Eval.ofDatum datum
  | none => throw (.nameNotFound ((← Remote.typeName type) ++ "." ++ name))

def memberOf (owner : Owner) (name : String) (safe : Bool) : Eval Value :=
  match owner with
  | .type type => staticMember type name
  | .value .null => if safe then return .null else throw (.nullReceiver name)
  | .value v => scope.member v name

/-- An argument that is spread must be an array, which is passed as it is. -/
def spreadArray : Value → Eval Value
  | .array id => return .array id
  | other => do throw (.typeMismatch (.spread (← Eval.typeNameOf other)))

/-- The text of a template, part by part. -/
def templateText : List TemplatePart → Eval String
  | [] => return ""
  | .text s :: rest => return s ++ (← templateText rest)
  | .name n :: rest => do
    let s ← scope.textOf (← scope.resolve n)
    return s ++ (← templateText rest)
  | .hole source :: rest => do
    let s ← scope.textOf (← hole source)
    return s ++ (← templateText rest)

mutual

def evaluate : Expr → Eval Value
  | .literal l => return Literal.value l
  | .name n => scope.resolve n
  | .this => scope.thisValue
  | .unary op e => do scope.unary op (← evaluate e)
  | .binary .and l r => do
    if ← scope.condition "&&" (← evaluate l) then
      return .bool (← scope.condition "&&" (← evaluate r))
    else return .bool false
  | .binary .or l r => do
    if ← scope.condition "||" (← evaluate l) then return .bool true
    else return .bool (← scope.condition "||" (← evaluate r))
  | .binary op l r => do
    let left ← evaluate l
    let right ← evaluate r
    scope.binary op left right
  | .member target name safe => do
    scope.memberOf (← ownerOf target (evaluate target)) name safe
  | .index target i => do
    let v ← evaluate target
    scope.index v (← evaluate i)
  | .call none name args _ => do scope.callUnqualified name (← evaluateArgs args)
  | .call (some receiver) name args safe => do
    match ← ownerOf receiver (evaluate receiver) with
    | .value .null => if safe then return .null else throw (.nullReceiver name)
    | .type type => scope.callStatic type name (← evaluateArgs args)
    | .value v => scope.callOn v name (← evaluateArgs args)
  | .typeCheck e type negated => do
    return .bool ((← Eval.isInstance type (← evaluate e)) != negated)
  | .cast e type safe => do castTo (← evaluate e) type safe
  | .conditional c yes no => do
    if ← scope.condition "if" (← evaluate c) then evaluate yes else evaluate no
  | .construct type args => do
    match ← Eval.findType type.name with
    | none => throw (.nameNotFound type.name)
    | some id => scope.constructObject id type.name (← evaluateArgs args)
  | .elvis l r => do
    let left ← evaluate l
    if left.isNull then evaluate r else return left
  | .template parts => .ofString <$> scope.templateText hole parts
  | .range kind a b step => do
    let first ← scope.unboxed (← evaluate a)
    let last ← scope.unboxed (← evaluate b)
    let (first, last, long) ← rangeBounds first last
    match step with
    | none => makeRange kind first last 1 long
    | some s => makeRange kind first last (← rangeStep (← scope.unboxed (← evaluate s))) long
  | .contains e collection negated => do
    let v ← evaluate e
    return .bool ((← scope.contains (← evaluate collection) v) != negated)
  | .lambda .. => return .placeholder "<lambda>"
  | .spread _ => throw (.unsupported .strayingSpread)

def evaluateArgs : List Expr → Eval (List Value)
  | [] => return []
  | .spread e :: rest => do
    let v ← spreadArray (← evaluate e)
    return v :: (← evaluateArgs rest)
  | e :: rest => do
    let v ← evaluate e
    return v :: (← evaluateArgs rest)

end

/-- Reads and evaluates the source of a hole, down to the given depth of holes in holes. -/
def evaluateHole : Nat → String → Eval Value
  | 0, _ => throw .endless
  | depth + 1, source =>
    match parse source with
    | .error e => throw (.template e)
    | .ok e => scope.evaluate (evaluateHole depth) e

/-- The value of an expression. Holes nest at most one level for five bytes of source. -/
def run (e : Expr) : Eval Value :=
  scope.evaluate (fun source => scope.evaluateHole (source.utf8ByteSize / 5 + 1) source) e

end Scope

end Debugger
