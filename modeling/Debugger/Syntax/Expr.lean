import Debugger.Syntax.Lexeme

/-!
Expression trees.
-/

namespace Debugger.Syntax

inductive UnaryOp where
  | neg | plus | not | bitNot
deriving DecidableEq, Repr

inductive BinaryOp where
  | add | sub | mul | div | rem | eq | ne | lt | le | gt | ge | and | or
  | bitAnd | bitOr | bitXor | shl | shr | ushr
deriving DecidableEq, Repr

inductive RangeKind where
  /-- `a..b` -/
  | closed
  /-- `a until b` -/
  | until
  /-- `a downTo b` -/
  | downTo
deriving DecidableEq, Repr

/-- A type as written after `is`, `as` or in a constructor call: a dotted name with array
suffixes; generic arguments are dropped. -/
structure TypeRef where
  name : String
  nullable : Bool := false
deriving DecidableEq, Repr

inductive Expr where
  | literal (value : Literal)
  | name (name : String)
  | this
  | unary (op : UnaryOp) (operand : Expr)
  | binary (op : BinaryOp) (left right : Expr)
  | member (target : Expr) (name : String) (safe : Bool)
  | index (target index : Expr)
  | call (receiver : Option Expr) (name : String) (args : List Expr) (safe : Bool)
  | typeCheck (value : Expr) (type : TypeRef) (negated : Bool)
  | cast (value : Expr) (type : TypeRef) (safe : Bool)
  | conditional (condition yes no : Expr)
  | construct (type : TypeRef) (args : List Expr)
  | elvis (left right : Expr)
  | template (parts : List TemplatePart)
  | range (kind : RangeKind) (first last : Expr) (step : Option Expr)
  | contains (element collection : Expr) (negated : Bool)
  /-- Never run: a lambda stands for itself. -/
  | lambda (params : List String) (body : Expr)
  /-- `*array` as an argument. -/
  | spread (value : Expr)

def UnaryOp.symbol : UnaryOp → String
  | neg => "-"
  | plus => "+"
  | not => "!"
  | bitNot => "~"

def BinaryOp.symbol : BinaryOp → String
  | add => "+"
  | sub => "-"
  | mul => "*"
  | div => "/"
  | rem => "%"
  | eq => "=="
  | ne => "!="
  | lt => "<"
  | le => "<="
  | gt => ">"
  | ge => ">="
  | and => "&&"
  | or => "||"
  | bitAnd => "and"
  | bitOr => "or"
  | bitXor => "xor"
  | shl => "shl"
  | shr => "shr"
  | ushr => "ushr"

/-- The dotted name that an expression of names and plain dots spells. -/
def Expr.qualifiedName? : Expr → Option String
  | name n => some n
  | member target n false => target.qualifiedName?.map (· ++ "." ++ n)
  | _ => none

end Debugger.Syntax
