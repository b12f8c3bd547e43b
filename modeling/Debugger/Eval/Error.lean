import Debugger.Arithmetic
import Debugger.Syntax.Error
import Debugger.Target.Basic

/-!
Why an evaluation fails.
-/

namespace Debugger

open Syntax

/-- Values of the wrong type; the types are given by name. -/
inductive Mismatch where
  | condition (context found : String)
  | operands (op : BinaryOp) (left right : String)
  | operand (found : Option PrimitiveKind)
  | member (type name : String)
  | indexing (type : String)
  | index (found : Option PrimitiveKind)
  | spread (type : String)
  | booleanConversion (method : String)
  | remoteMethods (type : String)
  | argument (type param : String)
  | nullCast (type : String)
  | cast (type wanted : String)
  | rangeBounds (first last : String)
  | rangeStep (type : String)
  | stepNotPositive (step : Int)
  | needle (type : String)
  | collection (type : String)
deriving DecidableEq, Repr

def Mismatch.message : Mismatch → String
  | condition context found => "`" ++ context ++ "` expects a boolean, found " ++ found
  | operands op left right => "cannot apply `" ++ op.symbol ++ s!"` to {left} and {right}"
  | operand found => "cannot apply unary operator to " ++
      (found.map (·.name)).getD "a non-primitive value"
  | member type name => type ++ " has no member `" ++ name ++ "`"
  | indexing type => s!"cannot index into {type}"
  | index found => "array index must be integral, found " ++
      (found.map (·.name)).getD "a reference"
  | spread type => s!"spread operator expects an array, found {type}"
  | booleanConversion method => "cannot convert boolean with `" ++ method ++ "`"
  | remoteMethods type => s!"{type} has no remote methods"
  | argument type param => s!"cannot pass {type} as {param}"
  | nullCast type => s!"null cannot be cast to non-null type {type}"
  | cast type wanted => s!"{type} cannot be cast to {wanted}"
  | rangeBounds first last => s!"range bounds must be integral, found {first} and {last}"
  | rangeStep type => s!"range step must be integral, found {type}"
  | stepNotPositive step => s!"range step must be positive, was {step}"
  | needle type => s!"cannot search a string for {type}"
  | collection type => "`in` is not supported on " ++ type

/-- What evaluation does not offer. -/
inductive Unsupported where
  | strayingSpread
  | lambdaMember (name : String)
  | lambdaCall
  | invocationDisabled
  | notPassable (text : String)
  | boxNotLoaded (kind : PrimitiveKind)
  | noFrames (thread : ThreadId)
deriving DecidableEq, Repr

def Unsupported.message : Unsupported → String
  | strayingSpread => "spread operator outside of call arguments"
  | lambdaMember name => "`" ++ name ++ "` on a lambda"
  | lambdaCall => "lambdas cannot be invoked"
  | invocationDisabled => "method invocation is disabled"
  | notPassable text => s!"cannot pass {text} to remote code"
  | boxNotLoaded kind => "cannot box " ++ kind.name ++ ": " ++ kind.box ++ " is not loaded"
  | noFrames thread => s!"thread {thread} has no frames"

inductive EvalError where
  | nameNotFound (name : String)
  | typeMismatch (cause : Mismatch)
  | divisionByZero
  | indexOutOfBounds (index : Int) (length : Nat)
  | methodNotFound (name : String)
  | ambiguousType (name : String) (candidates : List String)
  | nullReceiver (name : String)
  | invocationThrew (exception : String)
  | notSuspended (thread : ThreadId)
  | template (error : SyntaxError)
  | unsupported (cause : Unsupported)
  | remote (fault : Fault)
  /-- The evaluation never ends, as the target leads in a circle: a type is its own superclass, or
  a box holds itself. It stands for an answer that never comes, so nothing may answer to it. -/
  | endless

namespace EvalError

def message : EvalError → String
  | nameNotFound name => "cannot find `" ++ name ++ "` in this frame"
  | typeMismatch cause => "type mismatch: " ++ cause.message
  | divisionByZero => "division by zero"
  | indexOutOfBounds index length => s!"index {index} out of bounds for length {length}"
  | methodNotFound name => "no applicable method `" ++ name ++ "`"
  | ambiguousType name candidates =>
    "type name `" ++ name ++ "` is ambiguous: " ++ ", ".intercalate candidates
  | nullReceiver name => "cannot access `" ++ name ++ "` on null"
  | invocationThrew exception => s!"remote invocation threw {exception}"
  | notSuspended thread => s!"thread {thread} is not suspended"
  | template error => "invalid template expression: " ++ error.text
  | unsupported cause => "unsupported: " ++ cause.message
  | remote fault => fault.message
  | endless => "evaluation does not end"

/-- A thrown exception and a running thread are failures of the evaluation itself. -/
def ofFault : Fault → EvalError
  | .invocationFailed exception => .invocationThrew exception
  | .notSuspended thread => .notSuspended thread
  | fault => .remote fault

end EvalError

/-- What can go wrong between a text and its value. -/
inductive ExpressionError where
  | reading (error : SyntaxError)
  | evaluation (error : EvalError)

namespace ExpressionError

/-- Whether this is no failure, but an evaluation without an end. -/
def neverEnds : ExpressionError → Bool
  | evaluation .endless => true
  | _ => false

def message : ExpressionError → String
  | reading error => error.text
  | evaluation error => error.message

/-- The text shown in place of a value. -/
def display (e : ExpressionError) : String :=
  "Error: " ++ e.message

end ExpressionError

end Debugger
