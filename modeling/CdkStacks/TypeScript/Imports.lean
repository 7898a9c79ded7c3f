import CdkStacks.TypeScript.Layout
import CdkStacks.TypeScript.Table

/-!
# Imports

The import declarations of a generated file. What is imported is a set: adding something twice
changes nothing, and the declarations stand in the order of the modules and names.

* `ModuleImports` is what is imported from one module, `Imports` from all modules;
* `Imports.add`, `addTypes`, `addAlias`, `addEffect` add to it, `Imports.merge` joins two;
* `Imports.binds` says whether a module binds a name;
* `Imports.lines` are the declarations.
-/

namespace CdkStacks.TypeScript

/-- What is imported from one module. -/
structure ModuleImports where
  /-- Imported for what it does when it is loaded. -/
  effect : Bool
  /-- Names imported as types only. -/
  types : Names
  values : Names
  /-- The exported name of each local name. -/
  aliases : Table String
  deriving DecidableEq

namespace ModuleImports

/-- Nothing imported. -/
def none : ModuleImports :=
  { effect := false, types := .empty, values := .empty, aliases := .empty }

/-- Join two imports of one module; the second one wins a local name that both give. -/
def union (a b : ModuleImports) : ModuleImports where
  effect := a.effect || b.effect
  types := a.types.merge (fun _ _ => ()) b.types
  values := a.values.merge (fun _ _ => ()) b.values
  aliases := a.aliases.merge (fun _ new => new) b.aliases

/-- Whether a local name is bound. -/
def binds (imports : ModuleImports) (name : String) : Bool :=
  imports.values.contains name || imports.types.contains name || imports.aliases.contains name

/-- What stands between the braces for values: `A`, or `A as B` for an alias, in order. -/
def specifiers (imports : ModuleImports) : List String :=
  (imports.values.add
    (imports.aliases.entries.map fun (localName, name) => name ++ " as " ++ localName)).keys

/-- The declarations for one module. -/
def lines (module : String) (imports : ModuleImports) : List String :=
  let source := "\"" ++ module ++ "\";"
  let braces (names : List String) := "\x7b " ++ ", ".intercalate names ++ " \x7d from " ++ source
  (if imports.effect then ["import " ++ source] else []) ++
    (if imports.types.isEmpty then [] else ["import type " ++ braces imports.types.keys]) ++
    (if imports.specifiers.isEmpty then [] else ["import " ++ braces imports.specifiers])

end ModuleImports

/-- What a file imports, by module. -/
structure Imports where
  modules : Table ModuleImports
  deriving DecidableEq

namespace Imports

/-- No imports. -/
def empty : Imports := ⟨.empty⟩

/-- Whether no module is imported. -/
def isEmpty (imports : Imports) : Bool :=
  imports.modules.isEmpty

/-- Change what is imported from a module. -/
def update (imports : Imports) (module : String) (change : ModuleImports → ModuleImports) :
    Imports :=
  ⟨imports.modules.alter module fun old => change (old.getD .none)⟩

/-- Import values. -/
def add (imports : Imports) (module : String) (names : List String) : Imports :=
  imports.update module fun m => { m with values := m.values.add names }

/-- Import types. -/
def addTypes (imports : Imports) (module : String) (names : List String) : Imports :=
  imports.update module fun m => { m with types := m.types.add names }

/-- Import a value under a local name. -/
def addAlias (imports : Imports) (module name localName : String) : Imports :=
  imports.update module fun m => { m with aliases := m.aliases.insert localName name }

/-- Import a module for its effect. -/
def addEffect (imports : Imports) (module : String) : Imports :=
  imports.update module fun m => { m with effect := true }

/-- Import what either side imports; the second one wins a local name that both give. -/
def merge (imports other : Imports) : Imports :=
  ⟨imports.modules.merge ModuleImports.union other.modules⟩

/-- Whether the import of a module binds a local name. -/
def binds (imports : Imports) (module name : String) : Bool :=
  match imports.modules.get? module with
  | some m => m.binds name
  | none => false

/-- The import declarations, module by module, and an empty line behind them; nothing when no
module is imported. -/
def lines (imports : Imports) : List String :=
  if imports.isEmpty then []
  else (imports.modules.entries.flatMap fun (module, m) => m.lines module) ++ [""]

/-- The steps that write the import declarations. -/
def steps (imports : Imports) : List Step :=
  imports.lines.map .line

end Imports

end CdkStacks.TypeScript
