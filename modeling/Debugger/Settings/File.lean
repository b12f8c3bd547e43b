import Debugger.Settings.Basic
import Debugger.Toml.Reader

/-!
Settings files: a TOML document with a section each for logging, evaluation and breakpoints. All
of it may be left out, but nothing may be added. In place of a section an array may give its
values in order.
-/

namespace Debugger

open Toml

/-- Why a settings file is of no use. -/
inductive SettingsError where
  | unreadable
  /-- Not the form of a settings file. -/
  | malformed
  | invalid (setting : Bounded)
deriving DecidableEq, Repr

namespace Settings

/-- What is given for a setting, or its default. -/
def orDefault {α : Type} (default : α) (read : Item → Option α) : Option Item → Option α
  | none => some default
  | some item => read item

def text? : Item → Option String
  | .string s => some s
  | _ => none

def flag? : Item → Option Bool
  | .boolean b => some b
  | _ => none

def count? : Item → Option Nat
  | .integer n => if 0 ≤ n then some n.toNat else none
  | _ => none

def isEmpty : Item → Bool
  | .array items => items.isEmpty
  | .table _ entries => entries.isEmpty
  | _ => false

/-- A choice is named by a string, or by the only key of a table with nothing behind it. -/
def choice? {α : Type} (names : List (String × α)) : Item → Option α
  | .string s => names.lookup s
  | .table _ [(key, item)] => if isEmpty item then names.lookup key else none
  | _ => none

/-- The items given for some keys: those of a table by key, if it has no other keys, and those of
an array in order. -/
def itemsFor? (keys : List String) : Item → Option (List (Option Item))
  | .table _ es =>
    if es.all fun (key, _) => keys.contains key then some (keys.map fun key => es.lookup key)
    else none
  | .array items => some ((List.range keys.length).map fun i => items[i]?)
  | .tables all => some ((List.range keys.length).map fun i => all[i]?.map (.table .header))
  | _ => none

def logging? (item : Item) : Option LogSettings := do
  let base : LogSettings := {}
  match ← itemsFor? ["level", "json", "stderr", "file", "buffer_lines"] item with
  | [level, json, stderr, file, bufferLines] =>
    return {
      level := ← orDefault base.level text? level
      json := ← orDefault base.json flag? json
      stderr := ← orDefault base.stderr flag? stderr
      file := ← orDefault base.file (some <$> text? ·) file
      bufferLines := ← orDefault base.bufferLines count? bufferLines }
  | _ => none

def evaluation? (item : Item) : Option EvalSettings := do
  let base : EvalSettings := {}
  let keys := ["allow_method_invocation", "max_string_display", "max_object_handles"]
  match ← itemsFor? keys item with
  | [allowInvocation, maxStringDisplay, maxHandles] =>
    return {
      allowInvocation := ← orDefault base.allowInvocation flag? allowInvocation
      maxStringDisplay := ← orDefault base.maxStringDisplay count? maxStringDisplay
      maxHandles := ← orDefault base.maxHandles count? maxHandles }
  | _ => none

def overloads? : Item → Option OverloadPolicy :=
  choice? [("all", .all), ("require-signature", .requireSignature)]

def sourceMatch? : Item → Option SourceMatch :=
  choice? [("tolerant", .tolerant), ("exact", .exact)]

def breakpoints? (item : Item) : Option BreakpointSettings := do
  let base : BreakpointSettings := {}
  match ← itemsFor? ["method_overloads", "source_match"] item with
  | [overloads, sourceMatch] =>
    return {
      overloads := ← orDefault base.overloads overloads? overloads
      sourceMatch := ← orDefault base.sourceMatch sourceMatch? sourceMatch }
  | _ => none

def ofItem? (item : Item) : Option Settings := do
  match ← itemsFor? ["logging", "evaluation", "breakpoints"] item with
  | [logging, evaluation, breakpoints] =>
    return {
      logging := ← orDefault {} logging? logging
      evaluation := ← orDefault {} evaluation? evaluation
      breakpoints := ← orDefault {} breakpoints? breakpoints }
  | _ => none

/-- The settings that a text gives. -/
def parse (text : String) : Except SettingsError Settings :=
  match (Toml.read? text).bind fun es => ofItem? (.table .header es) with
  | none => .error .malformed
  | some s => match s.invalid? with
    | some setting => .error (.invalid setting)
    | none => .ok s

/-- The settings in a file, whose contents are missing if it cannot be read. -/
def ofFile (contents : Option String) : Except SettingsError Settings :=
  match contents with
  | none => .error .unreadable
  | some text => parse text

end Settings

end Debugger
