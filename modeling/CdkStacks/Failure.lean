import CdkStacks.Files.Fault
import CdkStacks.Files.Path
import CdkStacks.Settings.Basic
import CdkStacks.Template.Malformed
import CdkStacks.TypeScript.Layout

/-!
# Failures

Why a command fails.

* `Failure` lists the causes;
* `Failure.message` is what the user is told.
-/

namespace CdkStacks

open CdkStacks.Files (Fault FilePath)

/-- Why a generated file was not written. -/
inductive WriteProblem where
  /-- There is a file of that name. -/
  | taken
  | fault (fault : Fault)
  deriving DecidableEq, Repr

/-- Why a command fails. -/
inductive Failure where
  /-- A file cannot be read. -/
  | read (fault : Fault)
  /-- The name of the stack gives no class name. -/
  | stackName (given className : String)
  /-- The template file has no name to call the stack by. -/
  | noStackName (path : FilePath)
  /-- A setting cannot be used. -/
  | settings (problem : SettingsProblem)
  /-- The settings file cannot be read as settings. -/
  | settingsText
  /-- The document is no template; `context` is the entry or section at fault. -/
  | malformed (context : String) (cause : Template.Malformed)
  /-- `owner` reads a name that is not declared. -/
  | unresolved (owner target : String)
  /-- Resources read each other in a circle; the first one stands at the end again. -/
  | cycle (names : List String)
  /-- A generated file was not written. -/
  | write (path : FilePath) (problem : WriteProblem)
  /-- A file stands where one is to be written. -/
  | present (path : FilePath)
  /-- There is nothing at a path. -/
  | absent (path : FilePath)
  /-- A question could not be asked. -/
  | prompt (reason : String)
  /-- The source could not be laid out. -/
  | layout (misuse : TypeScript.Misuse)
  deriving DecidableEq, Repr

/-- The wording of a write problem. -/
def WriteProblem.message : WriteProblem → String
  | taken => "file already exists"
  | fault f => f.message

/-- What the user is told. -/
def Failure.message : Failure → String
  | read fault => fault.message
  | stackName given className =>
    "Stack name '" ++ given ++ "' does not give a valid class name (got '" ++ className ++ "')"
  | noStackName path => "Cannot derive a stack name from " ++ path.text
  | settings problem => problem.message
  | settingsText => "TOML parse error: not a settings file"
  | malformed context cause => "Malformed template (" ++ context ++ "): " ++ cause.reason
  | unresolved owner target =>
    "'" ++ owner ++ "' references '" ++ target ++
      "', which is not a declared parameter or resource"
  | cycle names => "Circular reference between resources: " ++ " -> ".intercalate names
  | write path problem => "Failed to write " ++ path.text ++ ": " ++ problem.message
  | present path => path.text ++ " already exists"
  | absent path => path.text ++ " does not exist"
  | prompt reason => "Prompt failed: " ++ reason
  | layout misuse => misuse.message

end CdkStacks
