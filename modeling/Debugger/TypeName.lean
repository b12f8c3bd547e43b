import Debugger.Text.Uppercase
import Debugger.Primitive

/-!
Names of types: aliases that people write, simple names, and the supertypes of strings and boxes
that are known without asking the target.
-/

namespace Debugger.TypeName

def object : String := "java.lang.Object"

def string : String := "java.lang.String"

/-- What a string is besides a string. -/
def stringSupertypes : List String :=
  [object, "java.lang.CharSequence", "java.lang.Comparable", "java.io.Serializable"]

def aliases : List (String × String) :=
  [("Any", object), ("kotlin.Any", object), ("String", string), ("kotlin.String", string),
    ("CharSequence", "java.lang.CharSequence"), ("kotlin.CharSequence", "java.lang.CharSequence"),
    ("Number", "java.lang.Number"), ("kotlin.Number", "java.lang.Number"),
    ("Comparable", "java.lang.Comparable"), ("kotlin.Comparable", "java.lang.Comparable"),
    ("Boolean", "boolean"), ("kotlin.Boolean", "boolean"), ("Byte", "byte"),
    ("kotlin.Byte", "byte"), ("Short", "short"), ("kotlin.Short", "short"), ("Int", "int"),
    ("kotlin.Int", "int"), ("Long", "long"), ("kotlin.Long", "long"), ("Float", "float"),
    ("kotlin.Float", "float"), ("Double", "double"), ("kotlin.Double", "double"), ("Char", "char"),
    ("kotlin.Char", "char"), ("List", "java.util.List"),
    ("kotlin.collections.List", "java.util.List"), ("MutableList", "java.util.List"),
    ("Map", "java.util.Map"), ("kotlin.collections.Map", "java.util.Map"),
    ("Set", "java.util.Set"), ("kotlin.collections.Set", "java.util.Set"),
    ("Collection", "java.util.Collection")]

/-- The name the target uses for a name as written. -/
def canonical (name : String) : String :=
  (aliases.lookup name).getD name

/-- The characters behind the last separator, or all of them. -/
def lastSegment (isSeparator : Char → Bool) (cs : List Char) : List Char :=
  (cs.reverse.takeWhile fun c => !isSeparator c).reverse

/-- The name without packages and enclosing types. -/
def simple (name : String) : String :=
  String.ofList (lastSegment (· = '$') (lastSegment (· = '.') name.toList))

def isQualified (name : String) : Bool :=
  name.toList.contains '.'

/-- Whether a name as written refers to the type with the given full name. A simple name is
enough, and a dot may stand for the `$` before a nested type. -/
def refersTo (written full : String) : Bool :=
  let wanted := canonical written
  if full = wanted then true
  else if isQualified wanted then
    full.toList.map (fun c => if c = '$' then '.' else c) = wanted.toList
  else simple full = wanted

/-- `Outer$Inner` for `Outer.Inner`: the last dot becomes a `$`. -/
def nested (name : String) : String :=
  let cs := name.toList
  let inner := lastSegment (· = '.') cs
  String.ofList (cs.take (cs.length - inner.length - 1) ++ '$' :: inner)

/-- The full names to look up for a name as written, most likely first. -/
def lookups (name : String) : List String :=
  if isQualified name then [name, nested name] else [name, "java.lang." ++ name]

/-- How far a supertype is from the type itself when overloads compete. `Object` is the least
specific of all. -/
def supertypeDistance (name : String) (depth : Nat) : Nat :=
  if name = object then 64 else depth

/-- The reference types that take a primitive, with their distance from its box. -/
def boxTargets (k : PrimitiveKind) : List (String × Nat) :=
  (k.box, 0) :: (if k.numeric then [("java.lang.Number", 1)] else []) ++
    [("java.lang.Comparable", 1), ("java.io.Serializable", 1), (object, supertypeDistance object 1)]

/-- Whether the last segment of a dotted name starts as names of types do. -/
def looksLikeType (name : String) : Bool :=
  Text.startsUppercase (String.ofList (lastSegment (· = '.') name.toList))

end Debugger.TypeName
