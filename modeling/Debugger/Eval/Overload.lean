import Debugger.Eval.Hierarchy

/-!
Which overload a call takes: the one whose arguments convert at the lowest total cost, and of
several the first.
-/

namespace Debugger

/-- The cost of converting arguments. The rank decides; the distance tells supertypes apart. -/
structure Cost where
  /-- 0 exact, 1 supertype, 2 widening, 3 boxing or unboxing, 4 unboxing and widening. -/
  rank : Nat
  distance : Nat
deriving DecidableEq, Repr

namespace Cost

def exact : Cost := ⟨0, 0⟩

def supertype (name : String) (depth : Nat) : Cost :=
  ⟨1, TypeName.supertypeDistance name depth⟩

def add (a b : Cost) : Cost :=
  ⟨a.rank + b.rank, a.distance + b.distance⟩

def less (a b : Cost) : Bool :=
  a.rank < b.rank || (a.rank = b.rank && a.distance < b.distance)

/-- Passing a primitive where a type of the given name is expected. -/
def ofPrimitive (k : PrimitiveKind) (param : String) : Option Cost :=
  if k.name = param then some exact
  else if k.wider.any (·.name = param) then some ⟨2, 0⟩
  else ((TypeName.boxTargets k).lookup param).map (⟨3, ·⟩)

/-- Passing an object of the hierarchy where a type of the given name is expected. -/
def ofHierarchy (types : List (String × Nat)) (param : String) : Option Cost :=
  match types.lookup param with
  | some 0 => some exact
  | some depth => some (supertype param depth)
  | none => do
    let (name, _) ← types.head?
    let k ← PrimitiveKind.ofBox? name
    if k.name = param then some ⟨3, 0⟩
    else if k.wider.any (·.name = param) then some ⟨4, 0⟩
    else none

end Cost

namespace Eval

/-- The cost of passing a value as a parameter, or nothing if it does not convert. -/
def conversionCost (param : String) : Value → Eval (Option Cost)
  | .null =>
    return if (PrimitiveKind.ofName? param).isSome then none else some ⟨1, 0⟩
  | .text .. =>
    return if param = TypeName.string then some .exact
      else if param ∈ TypeName.stringSupertypes then some (.supertype param 1)
      else none
  | .array id | .object id => do
    return Cost.ofHierarchy (← hierarchy (← Remote.objectType id)) param
  | .range _ | .placeholder _ | .void => return none
  | .primitive p => return Cost.ofPrimitive p.kind param

/-- The cost of passing values as parameters; the first that does not convert ends the sum. -/
def totalCost (total : Cost) : List (Value × String) → Eval (Option Cost)
  | [] => return some total
  | (arg, param) :: rest => do
    match ← conversionCost param arg with
    | some cost => totalCost (total.add cost) rest
    | none => return none

/-- The cheapest of the methods, given the best one before them. -/
def cheapest (args : List Value) (best : Option (Cost × Method)) :
    List Method → Eval (Option Method)
  | [] => return best.map (·.2)
  | m :: rest => do
    match ← totalCost .exact (args.zip m.params) with
    | some cost =>
      if best.all fun (least, _) => cost.less least then cheapest args (some (cost, m)) rest
      else cheapest args best rest
    | none => cheapest args best rest

def selectOverload (methods : List Method) (args : List Value) : Eval (Option Method) :=
  cheapest args none (methods.filter (·.params.length = args.length))

end Eval

end Debugger
