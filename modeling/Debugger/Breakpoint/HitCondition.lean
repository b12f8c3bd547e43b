import Debugger.Text.Blank
import Debugger.Text.Digits

/-!
Hit conditions: `5` or `== 5`, `>= 3`, `> 3`, `% 2`.
-/

namespace Debugger

/-- How many hits a breakpoint takes before it counts. -/
inductive HitCondition where
  | equal (n : Nat)
  | atLeast (n : Nat)
  | greaterThan (n : Nat)
  | multiple (n : Nat)
deriving DecidableEq, Repr

namespace HitCondition

/-- Whether the hit with this number, counted from one, takes effect. -/
def holds (count : Nat) : HitCondition → Bool
  | equal n => count = n
  | atLeast n => n ≤ count
  | greaterThan n => n < count
  | multiple n => count % n = 0

def text : HitCondition → String
  | equal n => s!"== {n}"
  | atLeast n => s!">= {n}"
  | greaterThan n => s!"> {n}"
  | multiple n => s!"% {n}"

/-- The operator at the front, `==` if there is none, and what is behind it. -/
def splitOperator : List Char → (Nat → HitCondition) × List Char
  | '=' :: '=' :: rest => (equal, rest)
  | '>' :: '=' :: rest => (atLeast, rest)
  | '>' :: rest => (greaterThan, rest)
  | '%' :: rest => (multiple, rest)
  | cs => (equal, cs)

/-- Reads an operator and a 64-bit number. No hit is a multiple of zero. -/
def parse? (text : String) : Option HitCondition :=
  let (make, rest) := splitOperator (Text.trimBlanks text.toList)
  match Text.readNat? 64 (Text.trimBlanks rest) with
  | none => none
  | some n => if make n = multiple 0 then none else some (make n)

end HitCondition

end Debugger
