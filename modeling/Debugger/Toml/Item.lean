/-!
The contents of a TOML document: items, and tables that headers and dotted keys build up. A table
is given in one place only, so each one remembers what gave it.
-/

namespace Debugger.Toml

/-- What gave a table. -/
inductive Origin where
  /-- A header of its own. -/
  | header
  /-- The header of a table inside it; its own may follow. -/
  | inner
  /-- A dotted key; others of its kind may follow. -/
  | dotted
  /-- Braces, which hold all of it. -/
  | braces
deriving DecidableEq, Repr

inductive Item where
  | string (value : String)
  | integer (value : Int)
  | float (value : Float)
  | boolean (value : Bool)
  /-- A date, a time or both, as written. -/
  | moment (text : String)
  | array (items : List Item)
  | table (origin : Origin) (entries : List (String × Item))
  /-- The tables under headers in double brackets. -/
  | tables (all : List (List (String × Item)))
deriving Repr

/-- Entries in the order in which their keys first came. -/
abbrev Entries := List (String × Item)

/-- Gives a key a new item. -/
def Entries.set (key : String) (item : Item) (es : Entries) : Entries :=
  if (es.lookup key).isSome then es.map fun e => if e.1 = key then (key, item) else e
  else es ++ [(key, item)]

/-- A key has one item. -/
def Entries.insert? (key : String) (item : Item) (es : Entries) : Option Entries :=
  if (es.lookup key).isSome then none else some (es ++ [(key, item)])

/-- Whether a dotted key may lead through a table. -/
def Origin.extendable : Origin → Bool
  | inner | dotted => true
  | header | braces => false

/-- Changes the table at a path; tables that are missing on the way come into being with the given
origin. Under double brackets the way leads into the last table. -/
def Entries.change (origin : Origin) (f : Origin → Entries → Option Entries) :
    List String → Origin → Entries → Option Entries
  | [], here, es => f here es
  | key :: path, _, es =>
    match es.lookup key with
    | none => do
      let inner ← change origin f path origin []
      return Entries.set key (.table origin inner) es
    | some (.table o inner) => do
      if o = .braces || (origin = .dotted && !o.extendable) then none
      let inner ← change origin f path o inner
      return Entries.set key (.table o inner) es
    | some (.tables all) => do
      let last ← change origin f path .header (all.getLastD [])
      return Entries.set key (.tables (all.dropLast ++ [last])) es
    | some _ => none

/-- Adds an item under a dotted key. The table that a longer key ends in must be one that dotted
keys gave. -/
def Entries.add? (path : List String) (item : Item) (es : Entries) : Option Entries := do
  let key ← path.getLast?
  let isShort := path.length = 1
  let add (here : Origin) (inner : Entries) : Option Entries :=
    if isShort || here = .dotted then inner.insert? key item else none
  es.change .dotted add path.dropLast .header

/-- What a line of a document says. -/
inductive Statement where
  | header (path : List String)
  | nextOf (path : List String)
  | entry (path : List String) (item : Item)

/-- Opens the table of a header: a new one, or one that so far was only named by others. -/
def openTable (key : String) (es : Entries) : Option Entries :=
  match es.lookup key with
  | none => some (es ++ [(key, .table .header [])])
  | some (.table .inner inner) => some (Entries.set key (.table .header inner) es)
  | some _ => none

/-- Opens one more table of a header in double brackets. -/
def openNext (key : String) (es : Entries) : Option Entries :=
  match es.lookup key with
  | none => some (es ++ [(key, .tables [[]])])
  | some (.tables all) => some (Entries.set key (.tables (all ++ [[]])) es)
  | some _ => none

/-- Changes the table that a header at this path names. -/
def Entries.openAt (path : List String) (f : String → Entries → Option Entries) (es : Entries) :
    Option Entries := do
  let key ← path.getLast?
  es.change .inner (fun _ inner => f key inner) path.dropLast .header

/-- Carries out statements, with the path of the table that entries go to. -/
def Entries.run : List Statement → List String → Entries → Option Entries
  | [], _, es => some es
  | .header path :: rest, _, es => do run rest path (← es.openAt path openTable)
  | .nextOf path :: rest, _, es => do run rest path (← es.openAt path openNext)
  | .entry path item :: rest, here, es => do
    run rest here (← es.change .inner (fun _ inner => inner.add? path item) here .header)

end Debugger.Toml
