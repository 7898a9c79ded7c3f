import CdkStacks.Failure
import CdkStacks.TypeScript.Name

/-!
# Places of the generated files

A stack comes as three files: the app, the stack and its snapshot test.

* `classNameOf` is the class of a stack, which has to be a name for a class;
* `Paths.of` are the paths of the files, relative to the directory of the project;
* `stackModule` and `testModule` are how the app and the test import the stack.
-/

namespace CdkStacks.Scaffold

open CdkStacks.Files (FilePath)
open CdkStacks.TypeScript

/-- The class of a stack. -/
def classNameOf (stack : String) : Except Failure String :=
  let name := className stack
  if isIdentifier name && !isReserved name then .ok name else .error (.stackName stack name)

/-- The paths of the generated files. -/
structure Paths where
  app : FilePath
  stack : FilePath
  test : FilePath
  deriving DecidableEq, Repr

namespace Paths

/-- The paths of a stack: `bin/<app>.ts`, `lib/<stack>.ts` and `lib/<stack>.test.ts`. With several
apps in one project, the stack and its test have a directory for the app. -/
def of (app stack : String) (multiApp : Bool) : Paths :=
  let library : FilePath := if multiApp then FilePath.join ⟨"lib"⟩ ⟨fileName app⟩ else ⟨"lib"⟩
  { app := FilePath.join ⟨"bin"⟩ ⟨fileName app ++ ".ts"⟩
    stack := library.join ⟨fileName stack ++ ".ts"⟩
    test := library.join ⟨fileName stack ++ ".test.ts"⟩ }

/-- The paths in the order in which the files are written. -/
def all (paths : Paths) : List FilePath :=
  [paths.app, paths.stack, paths.test]

end Paths

/-- How the app imports the stack. -/
def stackModule (app stack : String) (multiApp : Bool) : String :=
  if multiApp then "../lib/" ++ fileName app ++ "/" ++ fileName stack
  else "../lib/" ++ fileName stack

/-- How the test imports the stack. -/
def testModule (stack : String) : String :=
  "./" ++ fileName stack

end CdkStacks.Scaffold
