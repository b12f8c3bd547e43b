import Debugger.Text.Uppercase
import Debugger.Syntax.Expr
import Debugger.Text.Identifier

/-!
Spelling trees: tokens with single spaces between them, and parentheses only where precedence asks
for them. The looser an operator binds, the higher is the rank of its trees:

| rank  | trees                                            |
|-------|--------------------------------------------------|
| 0     | literals, names, `this`, calls without receiver  |
| 1     | members, calls and indices behind an expression  |
| 2     | unary operators                                  |
| 3–5   | products, sums, shifts                           |
| 6, 7  | ranges, membership                               |
| 8, 9  | comparison, equality                             |
| 10–12 | `and`, `xor`, `or` on bits                       |
| 13–15 | `&&`, `\|\|`, `?:`                               |
| 16    | the ternary conditional                          |
-/

namespace Debugger.Syntax

/-! ### Precedence -/

def BinaryOp.rank : BinaryOp → Nat
  | mul | div | rem => 3
  | add | sub => 4
  | shl | shr | ushr => 5
  | lt | le | gt | ge => 8
  | eq | ne => 9
  | bitAnd => 10
  | bitXor => 11
  | bitOr => 12
  | and => 13
  | or => 14

def Expr.rank : Expr → Nat
  | member .. | index .. | call (some _) .. => 1
  | unary .. => 2
  | binary op .. => op.rank
  | range .. => 6
  | contains .. => 7
  | elvis .. => 15
  | conditional .. => 16
  | _ => 0

/-! ### Lexemes -/

def UnaryOp.lexeme : UnaryOp → Lexeme
  | neg => .symbol .minus
  | plus => .symbol .plus
  | not => .symbol .bang
  | bitNot => .symbol .tilde

/-- An operator on bits is spelt as a word or as a symbol. -/
def BinaryOp.lexeme (words : Bool) : BinaryOp → Lexeme
  | mul => .symbol .star
  | div => .symbol .slash
  | rem => .symbol .percent
  | add => .symbol .plus
  | sub => .symbol .minus
  | shl => .ident "shl"
  | shr => .ident "shr"
  | ushr => .ident "ushr"
  | lt => .symbol .lt
  | le => .symbol .le
  | gt => .symbol .gt
  | ge => .symbol .ge
  | eq => .symbol .eqEq
  | ne => .symbol .bangEq
  | bitAnd => if words then .ident "and" else .symbol .amp
  | bitXor => if words then .ident "xor" else .symbol .caret
  | bitOr => if words then .ident "or" else .symbol .pipe
  | and => .symbol .ampAmp
  | or => .symbol .pipePipe

def RangeKind.lexeme : RangeKind → Lexeme
  | closed => .symbol .dotDot
  | .until => .ident "until"
  | downTo => .ident "downTo"

def memberMark (safe : Bool) : Lexeme :=
  .symbol (if safe then .safeDot else .dot)

/-- The lexemes of a tree where no rank above `limit` may stand. -/
def within (limit rank : Nat) (ls : List Lexeme) : List Lexeme :=
  if rank ≤ limit then ls else .symbol .lparen :: (ls ++ [.symbol .rparen])

mutual

/-- The lexemes that spell a tree; none for trees that are not plain. -/
def Expr.lexemes (words : Bool) : Expr → List Lexeme
  | .literal v => [.literal v]
  | .name n => [.ident n]
  | .this => [.keyword .this]
  | .unary op e => op.lexeme :: within 2 e.rank (e.lexemes words)
  | .binary op l r =>
    within op.rank l.rank (l.lexemes words) ++
      op.lexeme words :: within (op.rank - 1) r.rank (r.lexemes words)
  | .member e n safe => within 1 e.rank (e.lexemes words) ++ [memberMark safe, .ident n]
  | .index e i =>
    within 1 e.rank (e.lexemes words) ++
      .symbol .lbracket :: (i.lexemes words ++ [.symbol .rbracket])
  | .call none n args _ =>
    .ident n :: .symbol .lparen :: (argumentLexemes words args ++ [.symbol .rparen])
  | .call (some e) n args safe =>
    within 1 e.rank (e.lexemes words) ++
      memberMark safe :: .ident n ::
        .symbol .lparen :: (argumentLexemes words args ++ [.symbol .rparen])
  | .conditional c yes no =>
    within 15 c.rank (c.lexemes words) ++
      .symbol .question :: (yes.lexemes words ++ .symbol .colon :: no.lexemes words)
  | .elvis l r =>
    within 14 l.rank (l.lexemes words) ++
      .symbol .elvis :: within 15 r.rank (r.lexemes words)
  | .range kind a b none =>
    within 5 a.rank (a.lexemes words) ++ kind.lexeme :: within 5 b.rank (b.lexemes words)
  | .range kind a b (some s) =>
    within 5 a.rank (a.lexemes words) ++
      kind.lexeme :: (within 5 b.rank (b.lexemes words) ++
        .ident "step" :: within 5 s.rank (s.lexemes words))
  | .contains e collection negated =>
    within 7 e.rank (e.lexemes words) ++
      .keyword (if negated then .notInside else .inside) ::
        within 6 collection.rank (collection.lexemes words)
  | _ => []

/-- Arguments with commas between them. -/
def argumentLexemes (words : Bool) : List Expr → List Lexeme
  | [] => []
  | [e] => e.lexemes words
  | e :: rest => e.lexemes words ++ .symbol .comma :: argumentLexemes words rest

end

theorem argumentLexemes_cons (words : Bool) (a b : Expr) (more : List Expr) :
    argumentLexemes words (a :: b :: more) =
      a.lexemes words ++ .symbol .comma :: argumentLexemes words (b :: more) := rfl

/-! ### Text -/

/-- How a lexeme is written: as messages name it, but a name without quotes. -/
def Lexeme.written : Lexeme → String
  | .ident n => n
  | l => l.describe

/-- The text of a tree. -/
def Expr.print (words : Bool) (e : Expr) : String :=
  " ".intercalate ((e.lexemes words).map Lexeme.written)

/-- A word of letters, digits and underscores, as identifiers and keywords are. -/
def isWord (w : String) : Bool :=
  w.toList.head?.any Text.isIdentifierStart && w.toList.all Text.isIdentifierContinue

/-- A word that is no keyword. -/
def isName (w : String) : Bool :=
  isWord w && (Lexeme.reserved.lookup w).isNone

/-- Trees without strings, characters, fractions, types and lambdas. Integers are not negative, for
a sign is an operator; a call without receiver has no `?.`; a call of a name in upper case would be
a construction. -/
inductive Expr.Plain : Expr → Prop
  | int {v : Int32} (nonneg : 0 ≤ v.toInt) : Plain (.literal (.int v))
  | long {v : Int64} (nonneg : 0 ≤ v.toInt) : Plain (.literal (.long v))
  | bool (b : Bool) : Plain (.literal (.bool b))
  | null : Plain (.literal .null)
  | this : Plain .this
  | name {n : String} (named : isName n) : Plain (.name n)
  | unary (op : UnaryOp) {e : Expr} (operand : Plain e) : Plain (.unary op e)
  | binary (op : BinaryOp) {l r : Expr} (left : Plain l) (right : Plain r) :
    Plain (.binary op l r)
  | elvis {l r : Expr} (left : Plain l) (right : Plain r) : Plain (.elvis l r)
  | conditional {c yes no : Expr} (condition : Plain c) (first : Plain yes) (second : Plain no) :
    Plain (.conditional c yes no)
  | contains {e collection : Expr} (negated : Bool) (element : Plain e)
      (whole : Plain collection) : Plain (.contains e collection negated)
  | range (kind : RangeKind) {a b : Expr} (first : Plain a) (last : Plain b) :
    Plain (.range kind a b none)
  | stepped (kind : RangeKind) {a b s : Expr} (first : Plain a) (last : Plain b)
      (step : Plain s) : Plain (.range kind a b (some s))
  | index {e i : Expr} (target : Plain e) (place : Plain i) : Plain (.index e i)
  | member {e : Expr} {n : String} (safe : Bool) (target : Plain e) (named : isName n) :
    Plain (.member e n safe)
  | call {n : String} {args : List Expr} (named : isName n)
      (lower : Text.startsUppercase n = false) (passed : ∀ a ∈ args, Plain a) :
    Plain (.call none n args false)
  | callOn {e : Expr} {n : String} {args : List Expr} (safe : Bool) (receiver : Plain e)
      (named : isName n) (lower : Text.startsUppercase n = false)
      (passed : ∀ a ∈ args, Plain a) : Plain (.call (some e) n args safe)

end Debugger.Syntax
