import CdkStacks.Scaffold.Paths
import CdkStacks.Scaffold.Source

/-!
# Generating a stack

* `Provenance` says where a stack comes from, which the comments of its files tell;
* `Scaffold` is what a stack is generated from;
* `Scaffold.generate` gives the three files and the warnings.
-/

namespace CdkStacks.Scaffold

/-- Where a stack comes from. -/
inductive Provenance where
  /-- A template file of that name. -/
  | migrated (template : String)
  | new
  deriving DecidableEq, Repr

/-- What the comments call the program. -/
def toolName : String := "cdkgen"

/-- The advice in the comments. -/
def advice : String :=
  "// It is a starting point for migration to CDK *only*. Please check the output carefully " ++
    "before deploying"

/-- The comment at the head of the stack and the test. -/
def Provenance.comment : Provenance → List String
  | migrated template =>
    ["// This file was autogenerated from " ++ template ++ " using " ++ toolName, advice]
  | new => ["// This file was autogenerated using " ++ toolName]

/-- The comment at the head of the app. -/
def Provenance.appComment (paths : Paths) : Provenance → List String
  | migrated template => (migrated template).comment
  | new =>
    ["// This file was autogenerated when creating " ++ paths.stack.fileName?.getD "" ++
      " using " ++ toolName, advice]

end CdkStacks.Scaffold

namespace CdkStacks

open CdkStacks.Construct CdkStacks.Scaffold CdkStacks.TypeScript

/-- What a stack is generated from. -/
structure Scaffold where
  /-- The class of the stack. -/
  stackName : String
  appName : String
  template : Template
  provenance : Provenance
  /-- Whether the project holds several apps. -/
  multiApp : Bool

/-- The files of a stack, and what got lost. -/
structure Generated where
  files : List File
  warnings : List Warning

namespace Scaffold

/-- The paths of the files. -/
def paths (scaffold : Scaffold) : Paths :=
  Paths.of scaffold.appName scaffold.stackName scaffold.multiApp

/-- Write one file. -/
def fileSteps (path : Files.FilePath) (body : List Step) : List Step :=
  .openFile path :: body ++ [.closeFile path]

/-- The steps that write the three files. -/
def steps (scaffold : Scaffold) (libraries : Libraries) (code : StackCode) : List Step :=
  let paths := scaffold.paths
  let comment := scaffold.provenance.comment
  fileSteps paths.app
      (appSteps scaffold.appName [scaffold.stackName]
        (appImports libraries scaffold.stackName
          (stackModule scaffold.appName scaffold.stackName scaffold.multiApp))
        (scaffold.provenance.appComment paths)) ++
    fileSteps paths.stack (stackSteps scaffold.stackName code comment) ++
    fileSteps paths.test
      (testSteps scaffold.stackName scaffold.appName
        (testImports libraries scaffold.stackName (testModule scaffold.stackName)) comment)

/-- Map the template and lay out the three files: the app, the stack and the test. -/
def generate (scaffold : Scaffold) (settings : Settings) : Except Failure Generated := do
  let libraries := settings.libraries
  let code ← StackCode.ofTemplate scaffold.template (stackImports libraries) libraries
  match layOut settings.indent (scaffold.steps libraries code) with
  | .ok files => return { files, warnings := code.warnings }
  | .error misuse => throw (.layout misuse)

end Scaffold

end CdkStacks
