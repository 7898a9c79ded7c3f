import CdkStacks.Command.Environment
import CdkStacks.Command.Migrate

/-!
# Starting a stack

* `newStack` asks for the parameters of a stack and generates it.
-/

namespace CdkStacks.Command

open CdkStacks.Files CdkStacks.Scaffold

variable {m : Type → Type} [Monad m]

/-- What is to be started. -/
structure NewOptions where
  /-- The directory of the project. -/
  output : FilePath
  app : String
  stack : String
  multiApp : Bool
  deriving DecidableEq, Repr

/-- What came of it. -/
structure Created where
  stackName : String
  /-- The names of the parameters. -/
  parameters : List String
  written : List FilePath

/-- Ask for the parameters of a stack and generate it. -/
def newStack (environment : Environment m) (settings : Settings) (options : NewOptions) :
    ExceptT Failure m Created := do
  let stackName ← ExceptT.mk (pure (classNameOf options.stack))
  checkTargets environment.store options.output
    (Paths.of options.app stackName options.multiApp)
  let confirmed ← ExceptT.mk environment.interview
  let scaffold : Scaffold :=
    { stackName
      appName := options.app
      template := Template.ofParameters (confirmed.map fun (name, type) => .plain name type)
      provenance := .new
      multiApp := options.multiApp }
  let generated ← ExceptT.mk (pure (scaffold.generate settings))
  let written ← saveFiles environment.store options.output generated.files
  return { stackName, parameters := confirmed.map Prod.fst, written }

end CdkStacks.Command
