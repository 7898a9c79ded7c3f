import CdkStacks.Construct.Resolve
import CdkStacks.Construct.Statement
import CdkStacks.Template.Cycle

/-!
# Stacks of templates

A template becomes the statements of a constructor, with the imports they need and warnings about
what got lost.

* `mapParameter`, `mapResource`, `mapDependency`, `mapOutput` turn one declaration into a statement;
* `StackCode` is the code of a stack;
* `mapTemplate` maps all declarations in one pass, which passes the ledger along;
* `StackCode.ofTemplate` maps a whole template. It fails when resources read each other in a circle.
-/

namespace CdkStacks.Construct

open CdkStacks.Template CdkStacks.TypeScript

/-- The entry of an object for a text that may be missing. -/
def textEntry (key : String) (text? : Option String) : List (String × Expr) :=
  match text? with
  | some text => [(key, .string text)]
  | none => []

/-- The entry of an object for a value that may be missing. -/
def mapEntry (resolver : Resolver) (key : String) (value? : Option Value) :
    Mapping (List (String × Expr)) :=
  match value? with
  | some value => do return [(key, ← resolver.resolve .property value)]
  | none => pure []

/-- The entry of an object for the allowed values of a parameter. -/
def mapAllowed (resolver : Resolver) (allowed? : Option (List Value)) :
    Mapping (List (String × Expr)) :=
  match allowed? with
  | some values => do
    return [("allowedValues", .array (← resolver.resolveItems .property values))]
  | none => pure []

/-- The statement for a parameter, which is declared before all resources. -/
def mapParameter (libraries : Libraries) (scope : Scope) (parameter : Parameter) :
    Mapping Statement := do
  Mapping.need (parameterUse libraries parameter)
  let resolver : Resolver := { scope, owner := parameter.name, place := 0, libraries }
  let type := if holdsText parameter then none else some parameter.type
  let default ← mapEntry resolver "default" parameter.default
  let allowed ← mapAllowed resolver parameter.allowed
  let constraints ← doEntries (resolver.resolveEntries .property parameter.constraints)
  return .parameter parameter.name (parameterClass parameter) (.object
    (textEntry "type" type ++ textEntry "description" parameter.description ++ default ++ allowed ++
      constraints.map fun (name, value) => (propertyName name, value)))

/-- Warn of a condition, which is lost. -/
def mapCondition (owner : String) (condition? : Option String) : Mapping Unit :=
  match condition? with
  | some condition => Mapping.warn (.conditionDropped owner condition)
  | none => pure ()

/-- The kind of a resource and the local that holds it; none when its type has no construct. -/
def supported? (scope : Scope) (resource : Resource) : Option (Kind × String) :=
  match lookup resource.type, scope.identifier? resource.name with
  | some kind, some identifier => some (kind, identifier)
  | _, _ => none

/-- The statement for the resource at a place. -/
def mapResource (libraries : Libraries) (scope : Scope) (place : Nat) (resource : Resource) :
    Mapping Statement := do
  mapCondition resource.name resource.condition
  match supported? scope resource with
  | some (kind, identifier) => do
    Mapping.need (kind.use libraries)
    let resolver : Resolver := { scope, owner := resource.name, place, libraries }
    return .resource resource.name identifier kind.construct
      (← resolver.properties kind.verbatim resource.properties)
  | none => do
    Mapping.warn (.unsupportedType resource.name resource.type)
    return .placeholder resource.name resource.type

/-- The statements for resources from a place on. -/
def mapResources (libraries : Libraries) (scope : Scope) (place : Nat) :
    List Resource → Mapping (List Statement)
  | [] => pure []
  | resource :: rest => do
    let first ← mapResource libraries scope place resource
    return first :: (← mapResources libraries scope (place + 1) rest)

/-- The statement for a dependency; none when one of the two has no construct. -/
def mapDependency (scope : Scope) (resource dependency : String) : Mapping (Option Statement) :=
  match scope.identifier? resource, scope.identifier? dependency with
  | some identifier, some other => pure (some (.dependency identifier other))
  | _, _ => do
    Mapping.warn (.dependencySkipped resource dependency)
    return none

/-- The statements for the dependencies of resources. -/
def mapDependencies (scope : Scope) (resources : List Resource) : Mapping (List Statement) := do
  let statements ← resources.mapM fun resource =>
    resource.dependsOn.mapM (mapDependency scope resource.name)
  return statements.flatten.filterMap id

/-- The statement for an output, which is declared behind the `count` resources. -/
def mapOutput (libraries : Libraries) (scope : Scope) (count : Nat) (output : Output) :
    Mapping Statement := do
  mapCondition output.name output.condition
  let resolver : Resolver := { scope, owner := output.name, place := count, libraries }
  let value ← resolver.resolve .property output.value
  let exportName ← mapEntry resolver "exportName" output.exportName
  return .output output.name (.object
    ([("value", value)] ++ textEntry "description" output.description ++ exportName))

/-- The statements for outputs, whose class is imported when there are any. -/
def mapOutputs (libraries : Libraries) (scope : Scope) (count : Nat) (outputs : List Output) :
    Mapping (List Statement) := do
  unless outputs.isEmpty do Mapping.need (outputUse libraries)
  outputs.mapM (mapOutput libraries scope count)

/-- The code of a stack. -/
structure StackCode where
  parameters : List Statement
  /-- Constructs and reminders, in source order. -/
  resources : List Statement
  dependencies : List Statement
  outputs : List Statement
  imports : Imports
  warnings : List Warning

/-- The code of a template whose references are no circle, with all that the ledger holds then. -/
def mapTemplate (libraries : Libraries) (template : Template) : Mapping StackCode := do
  let scope := Scope.ofTemplate template
  let parameters ← template.parameters.mapM (mapParameter libraries scope)
  let resources ← mapResources libraries scope 0 template.resources
  let dependencies ← mapDependencies scope template.resources
  let outputs ← mapOutputs libraries scope template.resources.length template.outputs
  let ledger ← get
  return { parameters, resources, dependencies, outputs
           imports := ledger.imports, warnings := ledger.warnings }

/-- Map a template; its imports are added to `imports`. -/
def StackCode.ofTemplate (template : Template) (imports : Imports) (libraries : Libraries) :
    Except Failure StackCode := do
  template.checkCycles
  return ((mapTemplate libraries template).run { imports, warnings := [] }).1

end CdkStacks.Construct
