import CdkStacks.Template.Value

/-!
# Templates

A template declares parameters, resources, outputs and conditions, each in source order.

* `Template.parameter?`, `Template.resource?`, `Template.resourceIndex?` find what a name declares;
  of two declarations of one name the first one counts;
* `Resource.sites`, `Output.sites` are the names that a declaration reads.
-/

namespace CdkStacks.Template

/-- A parameter. -/
structure Parameter where
  name : String
  type : String
  description : Option String
  default : Option Value
  allowed : Option (List Value)
  /-- The other constraints, in source order. -/
  constraints : List (String × Value)

/-- A parameter with a name and a type only. -/
def Parameter.plain (name type : String) : Parameter :=
  { name, type, description := none, default := none, allowed := none, constraints := [] }

/-- A resource. -/
structure Resource where
  name : String
  type : String
  properties : List (String × Value)
  dependsOn : List String
  condition : Option String

/-- An output. -/
structure Output where
  name : String
  value : Value
  description : Option String
  exportName : Option Value
  condition : Option String

/-- The names that the properties of a resource read. -/
def Resource.sites (resource : Resource) : List Site :=
  entrySites resource.properties

/-- The names that an output reads. -/
def Output.sites (output : Output) : List Site :=
  output.value.sites ++ (output.exportName.map Value.sites).getD []

end CdkStacks.Template

namespace CdkStacks

open CdkStacks.Template

/-- What a template declares, in source order. -/
structure Template where
  parameters : List Parameter
  resources : List Resource
  outputs : List Output
  conditions : List (String × Value)

namespace Template

/-- The template that declares some parameters and nothing else. -/
def ofParameters (parameters : List Parameter) : Template :=
  { parameters, resources := [], outputs := [], conditions := [] }

/-- The parameter of a name. -/
def parameter? (template : Template) (name : String) : Option Parameter :=
  template.parameters.find? fun p => p.name = name

/-- The resource of a name. -/
def resource? (template : Template) (name : String) : Option Resource :=
  template.resources.find? fun r => r.name = name

/-- The place of the resource of a name among the resources. -/
def resourceIndex? (template : Template) (name : String) : Option Nat :=
  template.resources.findIdx? fun r => r.name = name

/-- Whether a name is a parameter or a resource. -/
def declares (template : Template) (name : String) : Bool :=
  (template.parameter? name).isSome || (template.resource? name).isSome

end Template

end CdkStacks
