import CdkStacks.Text.Blank

/-!
# Settings

What a user may choose about the generated code.

* `Settings` holds the indentation and the modules to import from;
* `Settings.problem?` finds the first setting that cannot be used.
-/

namespace CdkStacks

/-- The modules that generated code imports from. -/
structure Libraries where
  /-- The core of the framework: apps, functions, deferred values, outputs. -/
  cdkCore : String
  /-- The assertions of the snapshot test. -/
  cdkAssert : String
  /-- The base class of stacks, and the parameters. -/
  guardianCore : String
  /-- What the module of a service starts with. -/
  awsModulePrefix : String
  deriving DecidableEq, Repr

namespace Libraries

/-- The modules that are used unless the settings name others. -/
def standard : Libraries where
  cdkCore := "@aws-cdk/core"
  cdkAssert := "@aws-cdk/assert"
  guardianCore := "@guardian/cdk/lib/constructs/core"
  awsModulePrefix := "@aws-cdk/aws-"

/-- The module of a service. -/
def service (libraries : Libraries) (name : String) : String :=
  libraries.awsModulePrefix ++ name

/-- The modules by the names that the settings give them. -/
def named (libraries : Libraries) : List (String × String) :=
  [("cdk_core", libraries.cdkCore), ("cdk_assert", libraries.cdkAssert),
    ("guardian_core", libraries.guardianCore), ("aws_module_prefix", libraries.awsModulePrefix)]

end Libraries

/-- What a user may choose about the generated code. -/
structure Settings where
  /-- The number of blanks per level of indentation. -/
  indent : Nat
  libraries : Libraries
  deriving DecidableEq, Repr

/-- The settings of a user who chooses nothing. -/
def Settings.standard : Settings :=
  { indent := 2, libraries := .standard }

/-- Why settings cannot be used. -/
inductive SettingsProblem where
  /-- The indentation is out of range. -/
  | indent (value : Nat)
  /-- The named module is blank. -/
  | blank (library : String)
  deriving DecidableEq, Repr

/-- The wording of a problem. -/
def SettingsProblem.message : SettingsProblem → String
  | indent value => "output.indent must be between 1 and 8, got " ++ toString value
  | blank library => "libraries." ++ library ++ " must not be empty"

/-- The first setting that cannot be used: the indentation is from one to eight blanks, and no
module is blank. -/
def Settings.problem? (settings : Settings) : Option SettingsProblem :=
  if settings.indent < 1 || 8 < settings.indent then some (.indent settings.indent)
  else
    (settings.libraries.named.find? fun (_, module) => (Text.trim module).isEmpty).map
      fun (name, _) => .blank name

end CdkStacks
