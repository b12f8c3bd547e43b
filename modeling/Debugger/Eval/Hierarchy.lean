import Debugger.Eval.Basic

/-!
Questions about types: a type's supertypes, the type that a name as written refers to, and type
checks.
-/

namespace Debugger.Eval

open Syntax

/-- How many entries a walk over all supertypes can ever put into its queue. -/
def hierarchyBound (t : Target) : Nat :=
  t.types.length + (t.types.flatMap (·.interfaces)).length + 1

/-- Breadth-first: the front of the queue is named unless it was seen, and its direct supertypes
go to the end. -/
def walkHierarchy : Nat → List TypeId → List (TypeId × Nat) → Eval (List (String × Nat))
  | _, _, [] => return []
  | 0, _, _ :: _ => throw .endless
  | n + 1, seen, (type, depth) :: queue =>
    if type ∈ seen then walkHierarchy n seen queue
    else do
      let name ← Remote.typeName type
      let parent ← Remote.superclass type
      let parents := parent.toList ++ (← Remote.interfaces type)
      let rest ← walkHierarchy n (type :: seen) (queue ++ parents.map (·, depth + 1))
      return (name, depth) :: rest

/-- A type and all its supertypes with their distances, the type itself first. -/
def hierarchy (type : TypeId) : Eval (List (String × Nat)) := do
  walkHierarchy (hierarchyBound (← get).target) [] [(type, 0)]

/-- The first loaded type with one of the names. -/
def firstLoaded : List String → Eval (Option TypeId)
  | [] => return none
  | name :: names => do
    match (← Remote.listLoaded (some name)).head? with
    | some id => return some id
    | none => firstLoaded names

/-- The types of a simple name among the given ones; a type that cannot be asked is passed over. -/
def withSimpleName (name : String) : List TypeId → Eval (List (TypeId × String))
  | [] => return []
  | id :: ids => do
    let full ← (liftM (Remote.typeName id) : Eval String).attempt?
    let rest ← withSimpleName name ids
    match full with
    | some full => return if TypeName.simple full = name then (id, full) :: rest else rest
    | none => return rest

/-- The loaded type that a name as written refers to. -/
def findType (written : String) : Eval (Option TypeId) := do
  let name := TypeName.canonical written
  if (PrimitiveKind.ofName? name).isSome then return none
  match ← firstLoaded (TypeName.lookups name) with
  | some id => return some id
  | none =>
    if TypeName.isQualified name then return none
    match ← withSimpleName name (← Remote.listLoaded none) with
    | [] => return none
    | [(id, _)] => return some id
    | found => throw (.ambiguousType written (found.map (·.2)))

/-- Whether a value is an instance of a type as written. -/
def isInstance (type : TypeRef) : Value → Eval Bool
  | .null => return type.nullable
  | .text .. =>
    return (TypeName.string :: TypeName.stringSupertypes).any (TypeName.refersTo type.name)
  | .array id | .object id => do
    let types ← hierarchy (← Remote.objectType id)
    return types.any fun (name, _) => TypeName.refersTo type.name name
  | .range r => return TypeName.refersTo type.name r.typeName
  | .placeholder _ | .void => return false
  | .primitive p =>
    return TypeName.canonical type.name = p.kind.name ||
      (TypeName.boxTargets p.kind).any fun (box, _) => TypeName.refersTo type.name box

/-- The value of a static field, declared by the type or the nearest superclass that has it. The
walk follows the superclasses without looking back. -/
def staticFieldFrom (name : String) : Nat → TypeId → Eval (Option Datum)
  | 0, _ => throw .endless
  | n + 1, type => do
    match ← Remote.staticField type name with
    | some value => return some value
    | none =>
      match ← Remote.superclass type with
      | some parent => staticFieldFrom name n parent
      | none => return none

/-- A walk over more types than there are has met one of them twice and would never end. -/
def staticField (type : TypeId) (name : String) : Eval (Option Datum) := do
  staticFieldFrom name ((← get).target.types.length + 1) type

end Debugger.Eval
