import CdkStacks.Failure
import CdkStacks.Toml.Read

/-!
# Reading settings

Settings are written in TOML: a table `output` with the indentation and a table `libraries` with the
modules. Either may also be an array with the values in their order; what is left out keeps its
standard value.

* `Settings.ofEntries?` reads the tables of a document;
* `Settings.ofText` reads a text and refuses settings that cannot be used.
-/

namespace CdkStacks

open CdkStacks.Toml (Entries Item)

namespace Settings

/-- A number that is not negative. -/
def count? : Item → Option Nat
  | .scalar (.integer n) => if 0 ≤ n then some n.toNat else none
  | _ => none

/-- A text. -/
def text? : Item → Option String
  | .scalar (.text text) => some text
  | _ => none

/-- The items of the named fields: by their keys in a table that has no other keys, by their order
in an array. -/
def fields? (names : List String) : Item → Option (List (Option Item))
  | .table _ entries =>
    if entries.all fun e => names.contains e.1 then some (names.map (Toml.find? entries)) else none
  | .array items => some ((List.range names.length).map fun i => items[i]?)
  | .rows tables => some ((List.range names.length).map fun i => (tables[i]?).map (.table .header))
  | .scalar _ => none

/-- Read a field; a field that is left out has its standard value. -/
def orStandard? {α : Type} (read? : Item → Option α) (standard : α) : Option Item → Option α
  | some item => read? item
  | none => some standard

/-- The fields of a section; a section that is left out has none of them. -/
def section? (root : Entries) (name : String) (names : List String) :
    Option (List (Option Item)) :=
  match Toml.find? root name with
  | some item => fields? names item
  | none => some (names.map fun _ => none)

/-- The indentation. -/
def indent? (root : Entries) : Option Nat := do
  match ← section? root "output" ["indent"] with
  | [indent] => orStandard? count? standard.indent indent
  | _ => none

/-- The modules. -/
def libraries? (root : Entries) : Option Libraries := do
  let names := Libraries.standard.named.map Prod.fst
  match ← section? root "libraries" names with
  | [core, assert, guardian, service] =>
    let cdkCore ← orStandard? text? Libraries.standard.cdkCore core
    let cdkAssert ← orStandard? text? Libraries.standard.cdkAssert assert
    let guardianCore ← orStandard? text? Libraries.standard.guardianCore guardian
    let awsModulePrefix ← orStandard? text? Libraries.standard.awsModulePrefix service
    return { cdkCore, cdkAssert, guardianCore, awsModulePrefix }
  | _ => none

/-- The settings in the tables of a document. -/
def ofEntries? (root : Entries) : Option Settings := do
  if !root.all fun e => ["output", "libraries"].contains e.1 then none
  return { indent := ← indent? root, libraries := ← libraries? root }

/-- Read settings, and refuse those that cannot be used. -/
def ofText (text : String) : Except Failure Settings :=
  match (Toml.read? text).bind ofEntries? with
  | none => .error .settingsText
  | some settings =>
    match settings.problem? with
    | some problem => .error (.settings problem)
    | none => .ok settings

end Settings

end CdkStacks
