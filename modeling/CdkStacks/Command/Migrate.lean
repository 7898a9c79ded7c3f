import CdkStacks.Files.Store
import CdkStacks.Scaffold.Generate
import CdkStacks.Scaffold.Save
import CdkStacks.Settings.Read
import CdkStacks.Template.Read

/-!
# Migrating a template

* `loadSettings` reads the settings that a command works with;
* `checkTargets` makes sure that the generated files can be written and replace nothing;
* `migrate` turns a template file into a stack.
-/

namespace CdkStacks.Command

open CdkStacks.Construct (Warning)
open CdkStacks.Files CdkStacks.Scaffold

variable {m : Type → Type} [Monad m]

/-- The settings file that is read when it is there. -/
def settingsFile : FilePath := ⟨"cdkgen.toml"⟩

/-- Read a settings file. -/
def readSettings (store : Store m) (path : FilePath) : ExceptT Failure m Settings := do
  let text ← ExceptT.mk (store.read path)
  ExceptT.mk (pure (Settings.ofText text))

/-- The settings of a command: those of the given file, which has to be there, or of the file with
the usual name, if it is there. -/
def loadSettings (store : Store m) (given : Option FilePath) : ExceptT Failure m Settings := do
  match given with
  | some path =>
    if ← store.holds path then readSettings store path else throw (.absent path)
  | none =>
    if ← store.holds settingsFile then readSettings store settingsFile else return .standard

/-- Fail with the first path below a directory that names something. -/
def checkFree (store : Store m) (directory : FilePath) : List FilePath → ExceptT Failure m Unit
  | [] => return ()
  | path :: rest => do
    let target := directory.join path
    if ← store.holds target then throw (.present target)
    checkFree store directory rest

/-- The directory has to exist, and none of the files below it may. -/
def checkTargets (store : Store m) (directory : FilePath) (paths : Paths) :
    ExceptT Failure m Unit := do
  if !(← store.isDirectory directory) then throw (.absent directory)
  checkFree store directory paths.all

/-- What is to be migrated. -/
structure MigrateOptions where
  template : FilePath
  /-- The directory of the project. -/
  output : FilePath
  /-- The name of the stack; the name of the template file without it. -/
  stack : Option String
  /-- The name of the app; the class of the stack without it. -/
  app : Option String
  multiApp : Bool
  deriving DecidableEq, Repr

/-- What came of a migration. -/
structure Migrated where
  stackName : String
  appName : String
  written : List FilePath
  warnings : List Warning

/-- The name of the stack to migrate to. -/
def MigrateOptions.stackName (options : MigrateOptions) : Except Failure String :=
  match options.stack with
  | some stack => .ok stack
  | none =>
    match options.template.stem? with
    | some stem => .ok stem
    | none => .error (.noStackName options.template)

/-- Turn a template file into a stack. -/
def migrate (store : Store m) (settings : Settings) (options : MigrateOptions) :
    ExceptT Failure m Migrated := do
  if !(← store.holds options.template) then throw (.absent options.template)
  let stackName ← ExceptT.mk (pure (options.stackName.bind classNameOf))
  let appName := options.app.getD stackName
  checkTargets store options.output (Paths.of appName stackName options.multiApp)
  let text ← ExceptT.mk (store.read options.template)
  let template ← ExceptT.mk (pure (Template.ofText (.ofPath options.template) text))
  let scaffold : Scaffold :=
    { stackName, appName, template
      provenance := .migrated (options.template.fileName?.getD options.template.text)
      multiApp := options.multiApp }
  let generated ← ExceptT.mk (pure (scaffold.generate settings))
  let written ← saveFiles store options.output generated.files
  return { stackName, appName, written, warnings := generated.warnings }

end CdkStacks.Command
