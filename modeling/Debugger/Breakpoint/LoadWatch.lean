import Debugger.Breakpoint.Registry

/-!
The subscription to type loads. One that matches every type is enough: the registry knows which
of them it waits for.
-/

namespace Debugger

structure LoadWatch where
  subscription : Option RequestId := none
deriving DecidableEq, Repr

namespace LoadWatch

def isSubscribed (w : LoadWatch) : Bool :=
  w.subscription.isSome

/-- Subscribes unless that has been done. It comes before the first registration, so that no load
falls between the registry's look at the loaded types and the subscription. -/
def subscribe (w : LoadWatch) : OverLink (Except Fault RequestId × LoadWatch) := do
  match w.subscription with
  | some request => return (.ok request, w)
  | none =>
    match ← (Remote.subscribeLoads "*").outcome with
    | .ok request => return (.ok request, ⟨some request⟩)
    | .error fault => return (.error fault, w)

/-- Ends the subscription, whether or not the target can be told. -/
def unsubscribe (w : LoadWatch) : OverLink LoadWatch := do
  if let some request := w.subscription then
    discard (Remote.deleteRequest request).result?
  return {}

end LoadWatch

end Debugger
