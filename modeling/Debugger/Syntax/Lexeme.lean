import Debugger.Number.Layout

/-!
The words of the expression language and how a message names them.
-/

namespace Debugger.Syntax

/-- One piece of an interpolated string. -/
inductive TemplatePart where
  | text (text : String)
  /-- `$name` -/
  | name (name : String)
  /-- `${...}`, kept as source text and read again when evaluated. -/
  | hole (source : String)
deriving DecidableEq, Repr

inductive Literal where
  | int (value : Int32)
  | long (value : Int64)
  | float (value : Float32)
  | double (value : Float)
  | char (value : Char)
  | bool (value : Bool)
  | string (value : String)
  | null
deriving Repr

inductive Keyword where
  | this | isType | notIsType | inside | notInside | asType | ifWord | elseWord
deriving DecidableEq, Repr

inductive Symbol where
  | plus | minus | star | slash | percent | bang | tilde | amp | pipe | caret | ampAmp | pipePipe
  | eqEq | bangEq | lt | le | gt | ge | elvis | safeDot | dot | dotDot | arrow | question | colon
  | lparen | rparen | lbracket | rbracket | lbrace | rbrace | comma
deriving DecidableEq, Repr

/-- `=` and the compound assignments, which are read only to be refused. -/
inductive Assignment where
  | set | add | sub | mul | div | rem | and | or
deriving DecidableEq, Repr

inductive Lexeme where
  | literal (value : Literal)
  | template (parts : List TemplatePart)
  | ident (name : String)
  | keyword (word : Keyword)
  | symbol (symbol : Symbol)
  | assign (op : Assignment)
  | eof
deriving Repr

/-- A lexeme and the byte offset of its first character. -/
structure Token where
  lexeme : Lexeme
  offset : Nat
deriving Repr

def Keyword.text : Keyword → String
  | this => "this"
  | isType => "is"
  | notIsType => "!is"
  | inside => "in"
  | notInside => "!in"
  | asType => "as"
  | ifWord => "if"
  | elseWord => "else"

def Symbol.text : Symbol → String
  | plus => "+"
  | minus => "-"
  | star => "*"
  | slash => "/"
  | percent => "%"
  | bang => "!"
  | tilde => "~"
  | amp => "&"
  | pipe => "|"
  | caret => "^"
  | ampAmp => "&&"
  | pipePipe => "||"
  | eqEq => "=="
  | bangEq => "!="
  | lt => "<"
  | le => "<="
  | gt => ">"
  | ge => ">="
  | elvis => "?:"
  | safeDot => "?."
  | dot => "."
  | dotDot => ".."
  | arrow => "->"
  | question => "?"
  | colon => ":"
  | lparen => "("
  | rparen => ")"
  | lbracket => "["
  | rbracket => "]"
  | lbrace => "\x7b"
  | rbrace => "\x7d"
  | comma => ","

def Assignment.text : Assignment → String
  | set => "="
  | add => "+="
  | sub => "-="
  | mul => "*="
  | div => "/="
  | rem => "%="
  | and => "&="
  | or => "|="

def Literal.describe : Literal → String
  | int v => toString v.toInt
  | long v => toString v.toInt ++ "L"
  | float v => Number.Layout.token.writeSingle v ++ "f"
  | double v => Number.Layout.token.writeDouble v
  | char c => "'" ++ String.singleton c ++ "'"
  | bool true => "true"
  | bool false => "false"
  | string _ => "string literal"
  | null => "null"

/-- The name of a lexeme in messages. -/
def Lexeme.describe : Lexeme → String
  | literal l => l.describe
  | template _ => "string literal"
  | ident name => "`" ++ name ++ "`"
  | keyword w => w.text
  | symbol s => s.text
  | assign op => op.text
  | eof => "end of expression"

/-- Words that are not identifiers. -/
def Lexeme.reserved : List (String × Lexeme) :=
  [("true", .literal (.bool true)), ("false", .literal (.bool false)), ("null", .literal .null),
    ("this", .keyword .this), ("is", .keyword .isType), ("in", .keyword .inside),
    ("as", .keyword .asType), ("if", .keyword .ifWord), ("else", .keyword .elseWord)]

def Lexeme.ofWord (word : String) : Lexeme :=
  (reserved.lookup word).getD (.ident word)

end Debugger.Syntax
