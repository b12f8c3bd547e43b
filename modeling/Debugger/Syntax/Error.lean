import Debugger.Syntax.Lexeme

/-!
Why a text is not an expression, and where.
-/

namespace Debugger.Syntax

inductive LexCause where
  | missingDigits
  | integerTooLarge
  | longTooLarge
  | unterminatedString
  | unterminatedTemplate
  | invalidEscape (c : Char)
  | invalidUnicodeEscape
  | unterminatedChar
  | emptyChar
  | unexpected (c : Char)
deriving DecidableEq, Repr

def LexCause.message : LexCause → String
  | missingDigits => "missing digits after radix prefix"
  | integerTooLarge => "integer literal is too large"
  | longTooLarge => "long literal is too large"
  | unterminatedString => "unterminated string literal"
  | unterminatedTemplate => "unterminated template expression"
  | invalidEscape c => "invalid escape sequence `\\" ++ String.singleton c ++ "`"
  | invalidUnicodeEscape => "invalid unicode escape"
  | unterminatedChar => "unterminated character literal"
  | emptyChar => "empty character literal"
  | unexpected c => "unexpected character `" ++ String.singleton c ++ "`"

/-- What the grammar asks for at a place. -/
inductive Expected where
  | expression
  | memberName
  | lambdaParameter
  | typeName
  | typeArgumentsEnd
  | elseBranch
  | endOfText
  | symbol (s : Symbol)
deriving DecidableEq, Repr

def Expected.message : Expected → String
  | expression => "expected expression"
  | memberName => "expected member name"
  | lambdaParameter => "expected lambda parameter"
  | typeName => "expected type name"
  | typeArgumentsEnd => "unterminated type arguments"
  | elseBranch => "`if` expression requires an `else` branch"
  | endOfText => "unexpected token after expression"
  | symbol s => "expected `" ++ s.text ++ "`"

end Debugger.Syntax

namespace Debugger

open Syntax in
/-- A failure to read an expression, at a byte offset. -/
inductive SyntaxError where
  | lexical (cause : LexCause) (offset : Nat)
  | unexpected (expected : Expected) (found : Lexeme) (offset : Nat)
  /-- An assignment operator stands where the expression should go on or end. -/
  | assignment (offset : Nat)

namespace SyntaxError

def message : SyntaxError → String
  | lexical cause _ => cause.message
  | unexpected expected found _ => expected.message ++ ", found " ++ found.describe
  | assignment _ => "assignment is not supported"

def offset : SyntaxError → Nat
  | lexical _ n | unexpected _ _ n | assignment n => n

def text (e : SyntaxError) : String :=
  e.message ++ " at offset " ++ toString e.offset

end SyntaxError

end Debugger
