import CdkStacks.Construct.Scope
import CdkStacks.Settings.Basic
import CdkStacks.TypeScript.Imports

/-!
# Names to import

* `Use` is one name to import, `Use.addTo` imports it;
* `parameterUse`, `Kind.use`, `outputUse` are the classes of parameters, resources and outputs;
* `functionUse`, `lazyUse` are what calls of functions and deferred values need.
-/

namespace CdkStacks.Construct

open CdkStacks.Template CdkStacks.TypeScript

/-- A name to import. -/
structure Use where
  module : String
  name : String
  /-- The local name, when it differs. -/
  localName? : Option String
  deriving DecidableEq, Repr

/-- Import a name. -/
def Use.addTo (imports : Imports) (use : Use) : Imports :=
  match use.localName? with
  | some localName => imports.addAlias use.module use.name localName
  | none => imports.add use.module [use.name]

/-- Whether a parameter holds a string. -/
def holdsText (parameter : Parameter) : Bool :=
  parameter.type.toLower = "string"

/-- The class of a parameter: parameters that hold a string have a class of their own. -/
def parameterClass (parameter : Parameter) : String :=
  if holdsText parameter then "GuStringParameter" else "GuParameter"

/-- The class of a parameter, as a name to import. -/
def parameterUse (libraries : Libraries) (parameter : Parameter) : Use :=
  ⟨libraries.guardianCore, parameterClass parameter, none⟩

/-- The class of the resources of a kind, as a name to import. -/
def Kind.use (libraries : Libraries) (kind : Kind) : Use :=
  ⟨libraries.service kind.service, kind.className, kind.localName?⟩

/-- The class of outputs. -/
def outputUse (libraries : Libraries) : Use :=
  ⟨libraries.cdkCore, "CfnOutput", none⟩

/-- What has the intrinsic functions. -/
def functionUse (libraries : Libraries) : Use :=
  ⟨libraries.cdkCore, "Fn", none⟩

/-- What defers values. -/
def lazyUse (libraries : Libraries) : Use :=
  ⟨libraries.cdkCore, "Lazy", none⟩

end CdkStacks.Construct
