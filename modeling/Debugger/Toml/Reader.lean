import Debugger.Text.Digits
import Debugger.Toml.Item
import Debugger.Toml.Scalar

/-!
Reading TOML. A reader takes what it reads off the front of a text; what repeats is bounded by the
length of the text, of which each round takes at least a character.
-/

namespace Debugger.Toml

open Text

abbrev Reader := StateT (List Char) Option

namespace Reader

def peek? : Reader (Option Char) :=
  return (← get).head?

def next : Reader Char := do
  match ← get with
  | [] => failure
  | c :: cs =>
    set cs
    return c

/-- Takes the given text if it is next. -/
def skip (text : String) : Reader Bool := do
  let cs ← get
  if text.toList.isPrefixOf cs then
    set (cs.drop text.length)
    return true
  return false

def expect (text : String) : Reader Unit := do
  guard (← skip text)

def takeWhile (p : Char → Bool) : Reader (List Char) := do
  let cs ← get
  set (cs.dropWhile p)
  return cs.takeWhile p

/-- Reads with a bound on repetition that the rest of the text cannot exceed. -/
def bounded {α : Type} (r : Nat → Reader α) : Reader α := do
  r ((← get).length + 1)

/-! ### Gaps -/

def isSpace (c : Char) : Bool :=
  c = ' ' || c = '\t'

/-- What may stand in comments and strings. -/
def isPlain (c : Char) : Bool :=
  c = '\t' || (' ' ≤ c && c ≠ '\x7f')

def spaces : Reader Unit := do
  discard (takeWhile isSpace)

/-- Spaces and a comment, up to the end of the line. -/
def lineRest : Reader Unit := do
  spaces
  if ← skip "#" then
    discard (takeWhile isPlain)

def lineBreak : Reader Bool := do
  if ← skip "\n" then return true
  skip "\r\n"

/-- The end of a line, which may be that of the text. -/
def lineEnd : Reader Unit := do
  lineRest
  unless ← lineBreak do
    guard (← get).isEmpty

/-- Any number of spaces, comments and line breaks. -/
def gap : Reader Unit :=
  bounded loop
where
  loop : Nat → Reader Unit
    | 0 => return ()
    | n + 1 => do
      lineRest
      if ← lineBreak then loop n

/-! ### Strings -/

/-- The character with the code of so many hexadecimal digits. -/
def codePoint (count : Nat) : Reader Char := do
  let cs ← get
  let digits := cs.take count
  let code := ofDigits 16 digits
  guard (digits.length = count && digits.all (isDigitOf 16))
  guard (code < 0xD800 || (0xDFFF < code && code < 0x110000))
  set (cs.drop count)
  return Char.ofNat code

/-- What follows the backslash of an escape. -/
def escape : Reader Char := do
  match ← next with
  | 'b' => return '\x08'
  | 't' => return '\t'
  | 'n' => return '\n'
  | 'f' => return '\x0c'
  | 'r' => return '\r'
  | '"' => return '"'
  | '\\' => return '\\'
  | 'u' => codePoint 4
  | 'U' => codePoint 8
  | _ => failure

/-- The rest of a string on one line. Only double quotes have escapes. -/
def lineString (quote : Char) : Nat → Reader (List Char)
  | 0 => failure
  | n + 1 => do
    let c ← next
    if c = quote then return []
    if c = '\\' && quote = '"' then
      let c ← escape
      return c :: (← lineString quote n)
    guard (isPlain c)
    return c :: (← lineString quote n)

def dropBreaks : List Char → List Char
  | ' ' :: rest | '\t' :: rest | '\n' :: rest | '\r' :: '\n' :: rest => dropBreaks rest
  | cs => cs

/-- After a backslash at the end of a line, the text goes on with the next visible character. -/
def continuation : Reader Bool := do
  let cs ← get
  let rest := cs.dropWhile isSpace
  if ['\n'].isPrefixOf rest || ['\r', '\n'].isPrefixOf rest then
    set (dropBreaks rest)
    return true
  return false

/-- The rest of a string over several lines. Before the three quotes that close it, it may end in
one or two more. -/
def blockString (quote : Char) : Nat → Reader (List Char)
  | 0 => failure
  | n + 1 => do
    let cs ← get
    let quotes := (cs.takeWhile (· = quote)).length
    if 3 ≤ quotes then
      let kept := min (quotes - 3) 2
      set (cs.drop (kept + 3))
      return List.replicate kept quote
    if ← lineBreak then return '\n' :: (← blockString quote n)
    let c ← next
    if c = '\\' && quote = '"' then
      if ← continuation then blockString quote n
      else
        let c ← escape
        return c :: (← blockString quote n)
    else
      guard (isPlain c)
      return c :: (← blockString quote n)

/-! ### Keys -/

def isBare (c : Char) : Bool :=
  c.isAlphanum || c = '-' || c = '_'

def simpleKey : Reader String := do
  match ← peek? with
  | some '"' | some '\'' => String.ofList <$> bounded (lineString (← next))
  | _ =>
    let cs ← takeWhile isBare
    guard (!cs.isEmpty)
    return String.ofList cs

/-- Keys between dots, and brackets within brackets, are fewer than this. -/
def maxDepth : Nat :=
  80

/-- Keys between dots. -/
def path : Reader (List String) := do
  let keys ← bounded loop
  guard (keys.length < maxDepth)
  return keys
where
  loop : Nat → Reader (List String)
    | 0 => failure
    | n + 1 => do
      spaces
      let key ← simpleKey
      spaces
      if ← skip "." then return key :: (← loop n)
      return [key]

/-! ### Values -/

/-- A character of a number, a date or a time. -/
def isScalar (c : Char) : Bool :=
  isBare c || c = '+' || c = '.' || c = ':'

/-- The time after a date and a blank, if one follows. -/
def timeAfter (date : List Char) : Reader (List Char) := do
  match ← get with
  | ' ' :: rest =>
    let both := date ++ ' ' :: rest.takeWhile isScalar
    if isMoment both then
      set (rest.dropWhile isScalar)
      return both
    return date
  | _ => return date

/-- A value without quotes or brackets. -/
def scalar : Reader Item := do
  let cs ← takeWhile isScalar
  if cs = "true".toList then return .boolean true
  if cs = "false".toList then return .boolean false
  if isDate cs then return .moment (String.ofList (← timeAfter cs))
  if isMoment cs then return .moment (String.ofList cs)
  match integer? cs with
  | some n => return .integer n
  | none => match float? cs with
    | some x => return .float x
    | none => failure

/-- A string of either kind on one line or several. -/
def quoted (quote : Char) : Reader Item := do
  let triple := String.ofList [quote, quote, quote]
  if ← skip triple then
    discard lineBreak
    return .string (String.ofList (← bounded (blockString quote)))
  discard next
  return .string (String.ofList (← bounded (lineString quote)))

mutual

/-- A value within so many brackets. Each level of them takes two steps of the bound. -/
def value (depth : Nat) : Nat → Reader Item
  | 0 => failure
  | n + 1 => do
    match ← peek? with
    | some '"' => quoted '"'
    | some '\'' => quoted '\''
    | some '[' => do
      discard next
      guard (depth + 1 < maxDepth)
      return .array (← elements (depth + 1) n)
    | some '\x7b' => do
      discard next
      guard (depth + 1 < maxDepth)
      spaces
      if ← skip "\x7d" then return .table .braces []
      return .table .braces (← pairs (depth + 1) n [])
    | _ => scalar

/-- The rest of an array, over any number of lines. -/
def elements (depth : Nat) : Nat → Reader (List Item)
  | 0 => failure
  | n + 1 => do
    gap
    if ← skip "]" then return []
    let item ← value depth n
    gap
    if ← skip "," then return item :: (← elements depth n)
    expect "]"
    return [item]

/-- The rest of a table in braces, on one line. -/
def pairs (depth : Nat) : Nat → Entries → Reader Entries
  | 0, _ => failure
  | n + 1, es => do
    let keys ← path
    expect "="
    spaces
    let item ← value depth n
    spaces
    match es.add? keys item with
    | none => failure
    | some es =>
      if ← skip "," then pairs depth n es
      else
        expect "\x7d"
        return es

end

/-! ### Documents -/

def statement : Reader Statement := do
  if ← skip "[[" then
    let keys ← path
    expect "]]"
    return .nextOf keys
  if ← skip "[" then
    let keys ← path
    expect "]"
    return .header keys
  let keys ← path
  expect "="
  spaces
  return .entry keys (← bounded fun n => value 0 (2 * n))

def document : Reader (List Statement) := do
  discard (skip "\ufeff")
  bounded loop
where
  loop : Nat → Reader (List Statement)
    | 0 => failure
    | n + 1 => do
      lineRest
      if ← lineBreak then loop n
      else if (← get).isEmpty then return []
      else
        let s ← statement
        lineEnd
        return s :: (← loop n)

end Reader

/-- The entries of a document. -/
def read? (text : String) : Option Entries := do
  let (statements, _) ← Reader.document.run text.toList
  Entries.run statements [] []

end Debugger.Toml
