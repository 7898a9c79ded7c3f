import CdkStacks.Command.Arguments

/-!
# Running the program

* `Report` is what a run tells: what it prints and how it ends;
* `run` does what the arguments ask for.
-/

namespace CdkStacks.Command

open CdkStacks.Files

variable {m : Type → Type} [Monad m]

/-- How a run ends. -/
inductive Outcome where
  | success
  | failure (failure : Failure)
  /-- The arguments are wrong. -/
  | usage
  deriving DecidableEq, Repr

/-- What a run tells. -/
structure Report where
  /-- The lines that it prints. -/
  lines : List String
  outcome : Outcome
  deriving DecidableEq, Repr

/-- The exit code of a run. -/
def Outcome.exitCode : Outcome → Nat
  | success => 0
  | failure _ => 1
  | usage => 2

/-- The name and version of the program. -/
def version : String := "cdkgen 0.1.0"

/-- How the program is used. -/
def usageLines : List String :=
  ["Usage: cdkgen [OPTIONS] <COMMAND>",
    "",
    "Commands:",
    "  migrate, m  <TEMPLATE> <OUTPUT> [STACK] [--app <APP>] [--multi-app] [--config <CONFIG>]",
    "  new, n      <OUTPUT> <APP> <STACK> [--multi-app] [--config <CONFIG>]",
    "",
    "Options:",
    "  -v, --verbose",
    "  -h, --help",
    "  -V, --version"]

/-- The lines about the files that were written. -/
def writtenLines (paths : List FilePath) : List String :=
  paths.map fun path => "   " ++ path.text

/-- The lines about a migration. -/
def migratedLines (template : FilePath) (migrated : Migrated) : List String :=
  (migrated.warnings.map fun warning => "⚠️  " ++ warning.message) ++
    ["✅ Migrated " ++ template.text ++ " to stack " ++ migrated.stackName ++ " (app " ++
      migrated.appName ++ ")"] ++
    writtenLines migrated.written

/-- The lines about a new stack. -/
def createdLines (created : Created) : List String :=
  let parameters :=
    if created.parameters.isEmpty then ""
    else " with parameters: " ++ ", ".intercalate created.parameters
  ("✅ Created stack " ++ created.stackName ++ parameters) :: writtenLines created.written

/-- Do what an invocation asks for; the answer is what to print. -/
def Invocation.perform (environment : Environment m) : Invocation → ExceptT Failure m (List String)
  | .migrate options settings => do
    let settings ← loadSettings environment.store settings
    return migratedLines options.template (← Command.migrate environment.store settings options)
  | .new options settings => do
    let settings ← loadSettings environment.store settings
    return createdLines (← newStack environment settings options)

/-- Do what the arguments ask for. -/
def run (environment : Environment m) (arguments : List String) : m Report :=
  match Invocation.ofArguments arguments with
  | .ok invocation => do
    match ← (invocation.perform environment).run with
    | .ok lines => return ⟨lines, .success⟩
    | .error failure => return ⟨[], .failure failure⟩
  | .error .help => pure ⟨usageLines, .success⟩
  | .error .version => pure ⟨[version], .success⟩
  | .error .usage => pure ⟨[], .usage⟩

end CdkStacks.Command
