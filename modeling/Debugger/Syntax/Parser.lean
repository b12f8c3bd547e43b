import Debugger.Text.Uppercase
import Debugger.Syntax.Expr
import Debugger.Syntax.Lexer

/-!
Reading a tree from tokens. Each level of precedence is a parser built from the next tighter
level, and the parts that hold whole expressions (parentheses, arguments, branches) are built from
a parser `inner` for those. The levels, loosest first: `?` `:`, `?:`, `||`, `&&`, `or`, `xor`,
`and`, equality, comparison and type checks, membership, ranges, shifts, sums, products, unary
operators, suffixes.

`bound` is a count of tokens that is not exceeded: every expression inside another and every
further operator of a chain takes at least one token.
-/

namespace Debugger.Syntax

abbrev Parser := StateT (List Token) (Except SyntaxError)

namespace Parser

/-- The lexeme at the front; behind the last token there is only the end. -/
def current : List Token → Lexeme
  | [] => .eof
  | t :: _ => t.lexeme

def peek : Parser Lexeme := do
  return current (← get)

/-- Passes one token, but never the end. -/
def advance : Parser Unit :=
  modify fun
    | [] => []
    | t :: rest => match t.lexeme with
      | .eof => t :: rest
      | _ => rest

/-- Fails at the current token. An assignment operator is refused as such wherever it stands. -/
def unexpected {α : Type} (expected : Expected) : Parser α := do
  match ← get with
  | [] => throw (.unexpected expected .eof 0)
  | t :: _ => match t.lexeme with
    | .assign _ => throw (.assignment t.offset)
    | found => throw (.unexpected expected found t.offset)

/-- Passes the symbol if it is the current one. -/
def takeSymbol (s : Symbol) : Parser Bool := do
  match ← peek with
  | .symbol found => if found = s then advance; return true else return false
  | _ => return false

/-- Passes the word if it is the current identifier. -/
def takeWord (word : String) : Parser Bool := do
  match ← peek with
  | .ident found => if found = word then advance; return true else return false
  | _ => return false

def expect (s : Symbol) : Parser Unit := do
  unless ← takeSymbol s do
    unexpected (.symbol s)

def ident (expected : Expected) : Parser String := do
  match ← peek with
  | .ident name => advance; return name
  | _ => unexpected expected

/-- Extends an expression by one operator after another. -/
def chain (extend : Expr → Parser (Option Expr)) : Nat → Expr → Parser Expr
  | 0, left => return left
  | bound + 1, left => do
    match ← extend left with
    | some longer => chain extend bound longer
    | none => return left

/-! ### Types -/

/-- Further segments of a dotted name. -/
def dottedTail (name : String) : List Token → String × List Token
  | d :: i :: rest => match d.lexeme, i.lexeme with
    | .symbol .dot, .ident segment => dottedTail (name ++ "." ++ segment) rest
    | _, _ => (name, d :: i :: rest)
  | ts => (name, ts)

def arraySuffixes (name : String) : List Token → String × List Token
  | l :: r :: rest => match l.lexeme, r.lexeme with
    | .symbol .lbracket, .symbol .rbracket => arraySuffixes (name ++ "[]") rest
    | _, _ => (name, l :: r :: rest)
  | ts => (name, ts)

/-- Passes generic arguments, whatever they are, up to the bracket that closes the first one. -/
def skipArguments (depth : Nat) : List Token → Except SyntaxError (List Token)
  | [] => .error (.unexpected .typeArgumentsEnd .eof 0)
  | t :: rest => match t.lexeme with
    | .symbol .lt => skipArguments (depth + 1) rest
    | .symbol .gt => if depth ≤ 1 then .ok rest else skipArguments (depth - 1) rest
    | .eof => .error (.unexpected .typeArgumentsEnd .eof t.offset)
    | _ => skipArguments depth rest

def typeRef : Parser TypeRef := do
  let first ← ident .typeName
  let name ← modifyGet (dottedTail first)
  if let .symbol .lt ← peek then
    set (← skipArguments 0 (← get))
  let name ← modifyGet (arraySuffixes name)
  return ⟨name, ← takeSymbol .question⟩

/-! ### Primary expressions and suffixes -/

/-- The parameters of a lambda and what is behind its arrow, if it names parameters. -/
def lambdaParams : List Token → Option (List String × List Token)
  | i :: s :: rest => match i.lexeme, s.lexeme with
    | .ident name, .symbol .arrow => some ([name], rest)
    | .ident name, .symbol .comma =>
      (lambdaParams rest).map fun (names, after) => (name :: names, after)
    | _, _ => none
  | _ => none

def lambda (inner : Parser Expr) : Parser Expr := do
  expect .lbrace
  let params ← match lambdaParams (← get) with
    | some (names, rest) => set rest; pure names
    | none => discard (takeSymbol .arrow); pure []
  let body ← inner
  expect .rbrace
  return .lambda params body

/-- Arguments up to the closing parenthesis. -/
def arguments (inner : Parser Expr) : Nat → Parser (List Expr)
  | 0 => unexpected .expression
  | bound + 1 => do
    let arg ← if ← takeSymbol .star then .spread <$> inner else inner
    if ← takeSymbol .comma then
      return arg :: (← arguments inner bound)
    expect .rparen
    return [arg]

/-- `(a, *b)`, a lambda behind it, or a lambda alone. -/
def callArguments (inner : Parser Expr) (bound : Nat) : Parser (List Expr) := do
  let args ←
    if ← takeSymbol .lparen then
      if ← takeSymbol .rparen then pure [] else arguments inner bound
    else pure []
  if let .symbol .lbrace ← peek then
    return args ++ [← lambda inner]
  return args

def conditional (inner : Parser Expr) : Parser Expr := do
  expect .lparen
  let condition ← inner
  expect .rparen
  let yes ← inner
  match ← peek with
  | .keyword .elseWord => advance
  | _ => unexpected .elseBranch
  return .conditional condition yes (← inner)

/-- A name that starts upper-case and has arguments constructs an object. -/
def named (inner : Parser Expr) (bound : Nat) (name : String) : Parser Expr := do
  match ← peek with
  | .symbol .lparen =>
    let args ← callArguments inner bound
    return if Text.startsUppercase name then .construct ⟨name, false⟩ args
      else .call none name args false
  | _ => return .name name

def primary (inner : Parser Expr) (bound : Nat) : Parser Expr := do
  match ← peek with
  | .literal value => advance; return .literal value
  | .template parts => advance; return .template parts
  | .keyword .this => advance; return .this
  | .keyword .ifWord => advance; conditional inner
  | .ident name => advance; named inner bound name
  | .symbol .lparen =>
    advance
    let e ← inner
    expect .rparen
    return e
  | .symbol .lbrace => lambda inner
  | _ => unexpected .expression

/-- What `target.name` with arguments means: behind a dotted name, an upper-case name is a type. -/
def methodCall (target : Expr) (name : String) (args : List Expr) (safe : Bool) : Expr :=
  if !safe && Text.startsUppercase name then
    match target.qualifiedName? with
    | some package => .construct ⟨package ++ "." ++ name, false⟩ args
    | none => .call (some target) name args safe
  else .call (some target) name args safe

def memberOrCall (inner : Parser Expr) (bound : Nat) (target : Expr) (safe : Bool) :
    Parser Expr := do
  let name ← ident .memberName
  match ← peek with
  | .symbol .lparen | .symbol .lbrace =>
    return methodCall target name (← callArguments inner bound) safe
  | _ => return .member target name safe

/-- One suffix: a member or call, an index, or a cast. -/
def suffix (inner : Parser Expr) (bound : Nat) (e : Expr) : Parser (Option Expr) := do
  match ← peek with
  | .symbol .dot => advance; some <$> memberOrCall inner bound e false
  | .symbol .safeDot => advance; some <$> memberOrCall inner bound e true
  | .symbol .lbracket =>
    advance
    let i ← inner
    expect .rbracket
    return some (.index e i)
  | .keyword .asType =>
    advance
    let safe ← takeSymbol .question
    return some (.cast e (← typeRef) safe)
  | _ => return none

def suffixed (inner : Parser Expr) (bound : Nat) : Parser Expr := do
  chain (suffix inner bound) bound (← primary inner bound)

/-! ### Operators -/

def unaryOp : Lexeme → Option UnaryOp
  | .symbol .minus => some .neg
  | .symbol .plus => some .plus
  | .symbol .bang => some .not
  | .symbol .tilde => some .bitNot
  | _ => none

def unary (operand : Parser Expr) : Nat → Parser Expr
  | 0 => operand
  | bound + 1 => do
    match unaryOp (← peek) with
    | some op => advance; .unary op <$> unary operand bound
    | none => operand

/-- The operators of one level. -/
abbrev Level := Lexeme → Option BinaryOp

/-- A level whose operators group to the left. -/
def binary (level : Level) (bound : Nat) (next : Parser Expr) : Parser Expr := do
  let extend (left : Expr) : Parser (Option Expr) := do
    match level (← peek) with
    | some op => advance; return some (.binary op left (← next))
    | none => return none
  chain extend bound (← next)

def products : Level
  | .symbol .star => some .mul
  | .symbol .slash => some .div
  | .symbol .percent => some .rem
  | _ => none

def sums : Level
  | .symbol .plus => some .add
  | .symbol .minus => some .sub
  | _ => none

def shifts : Level
  | .ident "shl" => some .shl
  | .ident "shr" => some .shr
  | .ident "ushr" => some .ushr
  | _ => none

def comparisons : Level
  | .symbol .lt => some .lt
  | .symbol .le => some .le
  | .symbol .gt => some .gt
  | .symbol .ge => some .ge
  | _ => none

def equalities : Level
  | .symbol .eqEq => some .eq
  | .symbol .bangEq => some .ne
  | _ => none

def bitAnds : Level
  | .symbol .amp => some .bitAnd
  | .ident "and" => some .bitAnd
  | _ => none

def bitXors : Level
  | .symbol .caret => some .bitXor
  | .ident "xor" => some .bitXor
  | _ => none

def bitOrs : Level
  | .symbol .pipe => some .bitOr
  | .ident "or" => some .bitOr
  | _ => none

def ands : Level
  | .symbol .ampAmp => some .and
  | _ => none

def ors : Level
  | .symbol .pipePipe => some .or
  | _ => none

def rangeKind : Parser (Option RangeKind) := do
  if ← takeSymbol .dotDot then return some .closed
  if ← takeWord "until" then return some .until
  if ← takeWord "downTo" then return some .downTo
  return none

def range (next : Parser Expr) : Parser Expr := do
  let first ← next
  match ← rangeKind with
  | none => return first
  | some kind =>
    let last ← next
    if ← takeWord "step" then
      return .range kind first last (some (← next))
    return .range kind first last none

def membership (bound : Nat) (next : Parser Expr) : Parser Expr := do
  let extend (left : Expr) : Parser (Option Expr) := do
    match ← peek with
    | .keyword .inside => advance; return some (.contains left (← next) false)
    | .keyword .notInside => advance; return some (.contains left (← next) true)
    | _ => return none
  chain extend bound (← next)

def comparison (bound : Nat) (next : Parser Expr) : Parser Expr := do
  let extend (left : Expr) : Parser (Option Expr) := do
    match ← peek with
    | .keyword .isType => advance; return some (.typeCheck left (← typeRef) false)
    | .keyword .notIsType => advance; return some (.typeCheck left (← typeRef) true)
    | found => match comparisons found with
      | some op => advance; return some (.binary op left (← next))
      | none => return none
  chain extend bound (← next)

/-- `?:` groups to the right. -/
def elvis (next : Parser Expr) : Nat → Parser Expr
  | 0 => next
  | bound + 1 => do
    let left ← next
    if ← takeSymbol .elvis then
      return .elvis left (← elvis next bound)
    return left

/-- All levels above the ternary one. -/
def operators (inner : Parser Expr) (bound : Nat) : Parser Expr :=
  let tight := binary shifts bound <| binary sums bound <| binary products bound <|
    unary (suffixed inner bound) bound
  let compared := comparison bound <| membership bound <| range tight
  let logical := binary ors bound <| binary ands bound <| binary bitOrs bound <|
    binary bitXors bound <| binary bitAnds bound <| binary equalities bound compared
  elvis logical bound

/-- `condition ? yes : no` around the other operators. -/
def ternary (inner : Parser Expr) (bound : Nat) : Parser Expr := do
  let condition ← operators inner bound
  if ← takeSymbol .question then
    let yes ← inner
    expect .colon
    return .conditional condition yes (← inner)
  return condition

/-- An expression of at most `bound` tokens. -/
def expression : Nat → Parser Expr
  | 0 => unexpected .expression
  | bound + 1 => ternary (expression bound) bound

/-- One expression and nothing behind it. -/
def whole (bound : Nat) : Parser Expr := do
  let e ← expression bound
  match ← peek with
  | .eof => return e
  | _ => unexpected .endOfText

end Parser

def parseTokens (tokens : List Token) : Except SyntaxError Expr :=
  (Parser.whole tokens.length).run' tokens

/-- The expression that a text spells. -/
def parse (text : String) : Except SyntaxError Expr := do
  parseTokens (← tokenize text)

end Debugger.Syntax
